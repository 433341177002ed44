import Slide.Memory.History

/-!
# Batches, the journal and MEMORY.md

A batch of sources is written to the journal, to a file of its own in the archive and to MEMORY.md,
below a marker with its id.  MEMORY.md is the list of its lines, as `split('\\n')` gives them.
-/

namespace Slide.Memory

open Slide.Display List

/-- A source of a batch, `{ id, entry }`. -/
structure Source where
  id : String
  entry : Record String Json

def HistoryEnvelope.source (envelope : HistoryEnvelope) : Source := ⟨envelope.id, envelope.entry⟩

/-- An item of a batch that is read: its value, its id and its entry. -/
structure Item where
  value : Json
  id : String
  entry : Json

def Source.item (source : Source) : Item :=
  ⟨.object [("id", .string source.id), ("entry", .object source.entry)], source.id,
    .object source.entry⟩

/-- An `ArchiveBatch`: its value, its id and its items. -/
structure ArchiveBatch where
  value : Json
  id : String
  entries : List Item

section Batches

variable (host : Host)

/-- `{ version: 1, id: hash(entries), entries }`. -/
def ArchiveBatch.of (sources : List Source) : ArchiveBatch :=
  let entries := Json.array (sources.map fun source => source.item.value)
  ⟨.object [("version", .number 1), ("id", .string (host.hash entries)), ("entries", entries)],
    host.hash entries, sources.map Source.item⟩

/-- `e && typeof e.id === 'string' && e.entry && typeof e.entry === 'object'`. -/
def readItem (value : Json) : Option Item :=
  match value.at? "id", value.at? "entry" with
  | some (.string id), some (.object entry) => some ⟨value, id, .object entry⟩
  | some (.string id), some (.array entry) => some ⟨value, id, .array entry⟩
  | _, _ => none

/-- The batch of a journal, where the checks let it pass. -/
def readBatch (value : Json) : Option ArchiveBatch :=
  match value.at? "id", value.at? "entries" with
  | some (.string id), some (.array items) =>
    (items.mapM readItem).bind fun entries =>
      if value.at? "version" = some (.number 1) ∧ entries ≠ [] ∧
          (entries.map Item.id).Nodup ∧ id = host.hash (.array items)
      then some ⟨value, id, entries⟩ else none
  | _, _ => none

/-! ## MEMORY.md -/

def trimEnd (text : String) : String :=
  String.ofList (text.toList.reverse.dropWhile JsString.isSpace).reverse

/-- `trimEnd()` of a text, from its last line on. -/
def trimReversed : List String → List String
  | [] => []
  | line :: rest =>
    if trimEnd line = "" ∧ rest ≠ [] then trimReversed rest else trimEnd line :: rest

/-- The lines of `text.trimEnd()`. -/
def trimLines (lines : List String) : List String := (trimReversed lines.reverse).reverse

/-- The text of every marker. -/
def markerOpening : String := "<!-- slide-memory-archive:"

def marker (id : String) : String := markerOpening ++ id ++ " -->"

/-- A file that is not there counts as `# Memory`. -/
def memoryLines (memory : Option (List String)) : List String := memory.getD ["# Memory", ""]

/-- The lines of a batch in MEMORY.md. -/
def blockLines (batch : ArchiveBatch) : List String :=
  "" :: marker batch.id :: batch.entries.map fun item => host.stringify item.value

def publishArchive (memory : Option (List String)) (batch : ArchiveBatch) : Option (List String) :=
  if marker batch.id ∈ memoryLines memory then memory
  else some (trimLines (memoryLines memory) ++ blockLines host batch ++ [""])

end Batches

variable {host : Host} {sources : List Source}

/-! ## What is written is read again -/

theorem readItem_item (source : Source) : readItem source.item.value = some source.item := rfl

theorem readItems_items : (sources.map fun source => source.item.value).mapM readItem =
    some (sources.map Source.item) := by
  induction sources with
  | nil => rfl
  | cons source rest ih =>
    rw [map_cons, mapM_cons, ih, readItem_item]
    rfl

theorem items_id : (sources.map Source.item).map Item.id = sources.map Source.id := by
  rw [map_map]
  rfl

theorem readBatch_of (some_sources : sources ≠ []) (nodup : (sources.map Source.id).Nodup) :
    readBatch host (ArchiveBatch.of host sources).value = some (ArchiveBatch.of host sources) := by
  have passes : (ArchiveBatch.of host sources).value.at? "version" = some (.number 1) ∧
      sources.map Source.item ≠ [] ∧ ((sources.map Source.item).map Item.id).Nodup ∧
      host.hash (.array (sources.map fun source => source.item.value)) =
        host.hash (.array (sources.map fun source => source.item.value)) := by
    refine ⟨rfl, fun empty => some_sources (map_eq_nil_iff.mp empty), ?_, rfl⟩
    rwa [items_id]
  unfold readBatch
  change ((sources.map fun source => source.item.value).mapM readItem).bind _ = _
  rw [readItems_items, Option.bind_some, if_pos passes]
  rfl

theorem Source.item_inj {left right : Source} (same : left.item.value = right.item.value) :
    left = right := by
  obtain ⟨id, entry⟩ := left
  obtain ⟨id', entry'⟩ := right
  cases same
  rfl

theorem ArchiveBatch.of_inj {others : List Source}
    (same : (ArchiveBatch.of host sources).value = (ArchiveBatch.of host others).value) :
    sources = others := by
  have items : Json.array (sources.map fun source => source.item.value) =
      .array (others.map fun source => source.item.value) := by
    unfold ArchiveBatch.of at same
    injection same with fields
    injection fields with _ fields
    injection fields with _ fields
    injection fields with last _
    exact congrArg Prod.snd last
  injection items with values
  exact map_injective_iff.mpr (fun _ _ equal => Source.item_inj equal) values

/-! ## The lines of MEMORY.md -/

/-- MEMORY.md with its first text and the batches that were published. -/
def memoryOf (host : Host) (start : Option (List String)) :
    List (List Source) → Option (List String)
  | [] => start
  | block :: blocks => some (trimLines (memoryLines start) ++
      (block :: blocks).flatMap (fun b => blockLines host (ArchiveBatch.of host b)) ++ [""])

/-- No line opens like a marker. -/
def Unmarked (lines : List String) : Prop :=
  ∀ line ∈ lines, ¬ markerOpening.toList <+: line.toList

variable {start : Option (List String)} {blocks : List (List Source)} {id : String}

theorem trimEnd_prefix (text : String) : (trimEnd text).toList <+: text.toList := by
  unfold trimEnd
  rw [String.toList_ofList]
  obtain ⟨gone, split⟩ := dropWhile_suffix JsString.isSpace (l := text.toList.reverse)
  refine ⟨gone.reverse, ?_⟩
  rw [← reverse_append, split, reverse_reverse]

theorem trimReversed_prefix (lines : List String) : ∀ line ∈ trimReversed lines,
    ∃ whole ∈ lines, line.toList <+: whole.toList := by
  induction lines with
  | nil => exact fun line mem => absurd mem not_mem_nil
  | cons last rest ih =>
    intro line mem
    unfold trimReversed at mem
    split at mem
    next =>
      obtain ⟨whole, inside, begins⟩ := ih line mem
      exact ⟨whole, mem_cons_of_mem _ inside, begins⟩
    next =>
      rcases mem_cons.mp mem with rfl | later
      · exact ⟨last, mem_cons_self .., trimEnd_prefix last⟩
      · exact ⟨line, mem_cons_of_mem _ later, prefix_refl _⟩

theorem Unmarked.trimLines {lines : List String} (unmarked : Unmarked lines) :
    Unmarked (trimLines lines) := by
  intro line mem opens
  obtain ⟨whole, inside, begins⟩ := trimReversed_prefix lines.reverse line (mem_reverse.mp mem)
  exact unmarked whole (mem_reverse.mp inside) (opens.trans begins)

theorem marker_opens (id : String) : markerOpening.toList <+: (marker id).toList := by
  unfold marker
  rw [String.toList_append, String.toList_append, append_assoc]
  exact prefix_append ..

theorem marker_inj {other : String} (same : marker id = marker other) : id = other := by
  unfold marker at same
  rwa [String.append_left_inj, String.append_right_inj] at same

theorem stringify_item (source : Source) : ∃ middle : List Char,
    (host.stringify source.item.value).toList = '\x7b' :: (middle ++ ['\x7d']) := by
  refine ⟨(",".intercalate (Json.stringifyFields host.numberText [("id", .string source.id),
    ("entry", .object source.entry)])).toList, ?_⟩
  unfold Host.stringify Source.item Json.stringify
  rw [String.toList_append, String.toList_append]
  rfl

theorem stringify_item_unmarked (source : Source) :
    ¬ markerOpening.toList <+: (host.stringify source.item.value).toList := by
  obtain ⟨middle, text⟩ := @stringify_item host source
  rw [text]
  rintro ⟨rest, same⟩
  cases same

theorem trimEnd_item (source : Source) :
    trimEnd (host.stringify source.item.value) = host.stringify source.item.value ∧
      host.stringify source.item.value ≠ "" := by
  obtain ⟨middle, text⟩ := @stringify_item host source
  constructor
  · unfold trimEnd
    have kept : (host.stringify source.item.value).toList.reverse.dropWhile JsString.isSpace =
        (host.stringify source.item.value).toList.reverse := by
      rw [text, ← cons_append, reverse_append]
      rfl
    rw [kept, reverse_reverse, String.ofList_toList]
  · intro empty
    rw [empty] at text
    cases text

theorem trimLines_snoc {lines : List String} {last : String} (whole : trimEnd last = last)
    (not_empty : last ≠ "") : trimLines (lines ++ [last] ++ [""]) = lines ++ [last] := by
  have empty : trimEnd "" = "" ∧ last :: lines.reverse ≠ [] := ⟨rfl, nofun⟩
  have stops : ¬ (trimEnd last = "" ∧ lines.reverse ≠ []) := fun both =>
    not_empty (whole.symm.trans both.1)
  unfold trimLines
  rw [reverse_append, reverse_append]
  change (trimReversed ("" :: last :: lines.reverse)).reverse = _
  rw [trimReversed, if_pos empty, trimReversed, if_neg stops, whole, reverse_cons,
    reverse_reverse]

theorem blockLines_snoc (some_sources : sources ≠ []) : ∃ lines, ∃ source : Source,
    blockLines host (ArchiveBatch.of host sources) =
      lines ++ [host.stringify source.item.value] := by
  rcases eq_nil_or_concat sources with rfl | ⟨before, source, rfl⟩
  · exact absurd rfl some_sources
  · refine ⟨"" :: marker (ArchiveBatch.of host (before.concat source)).id ::
      before.map fun s => host.stringify s.item.value, source, ?_⟩
    unfold blockLines ArchiveBatch.of
    dsimp only
    rw [map_map, concat_eq_append, map_append, map_append]
    rfl

theorem memoryOf_lines (some_blocks : blocks ≠ []) : memoryOf host start blocks =
    some (trimLines (memoryLines start) ++
      blocks.flatMap (fun b => blockLines host (ArchiveBatch.of host b)) ++ [""]) := by
  cases blocks with
  | nil => exact absurd rfl some_blocks
  | cons => rfl

theorem trimLines_memoryOf (filled : ∀ block ∈ blocks, block ≠ []) :
    trimLines (memoryLines (memoryOf host start blocks)) = trimLines (memoryLines start) ++
      blocks.flatMap fun b => blockLines host (ArchiveBatch.of host b) := by
  rcases eq_nil_or_concat blocks with rfl | ⟨before, last, rfl⟩
  · exact (append_nil _).symm
  · rw [concat_eq_append] at filled ⊢
    obtain ⟨lines, source, ends⟩ := @blockLines_snoc host last
      (filled last (mem_append_right _ (mem_singleton_self last)))
    obtain ⟨whole, not_empty⟩ := @trimEnd_item host source
    rw [memoryOf_lines (append_ne_nil_of_right_ne_nil _ (cons_ne_nil last []))]
    rw [flatMap_append, flatMap_singleton, ends]
    have trimmed (lines : List String) : trimLines (memoryLines (some (lines ++
        [host.stringify source.item.value] ++ [""]))) =
          lines ++ [host.stringify source.item.value] := trimLines_snoc whole not_empty
    rw [← append_assoc, ← append_assoc, trimmed]

theorem marker_mem_iff (unmarked : Unmarked (memoryLines start)) :
    marker id ∈ memoryLines (memoryOf host start blocks) ↔
      ∃ block ∈ blocks, (ArchiveBatch.of host block).id = id := by
  have no_marker {lines : List String} (unmarked : Unmarked lines) : marker id ∉ lines :=
    fun mem => unmarked _ mem (marker_opens id)
  have not_empty : marker id ≠ "" := by
    intro empty
    obtain ⟨rest, text⟩ := marker_opens id
    rw [empty] at text
    cases text
  cases blocks with
  | nil =>
    refine ⟨fun mem => absurd mem (no_marker unmarked), ?_⟩
    rintro ⟨block, mem, -⟩
    exact absurd mem not_mem_nil
  | cons first rest =>
    rw [memoryOf_lines (cons_ne_nil first rest)]
    change marker id ∈ _ ++ _ ++ _ ↔ _
    constructor
    · intro mem
      rcases mem_append.mp mem with mem | empty
      · rcases mem_append.mp mem with head | inside
        · exact absurd head (no_marker unmarked.trimLines)
        · obtain ⟨block, there, mem⟩ := mem_flatMap.mp inside
          refine ⟨block, there, ?_⟩
          rcases mem_cons.mp mem with empty | mem
          · exact absurd empty not_empty
          rcases mem_cons.mp mem with same | mem
          · exact (marker_inj same).symm
          · obtain ⟨item, mem, text⟩ := mem_map.mp mem
            obtain ⟨source, -, rfl⟩ := mem_map.mp mem
            exact absurd (text ▸ marker_opens id) (stringify_item_unmarked source)
      · exact absurd (mem_singleton.mp empty) not_empty
    · rintro ⟨block, there, rfl⟩
      refine mem_append_left _ (mem_append_right _ (mem_flatMap.mpr
        ⟨block, there, ?_⟩))
      exact mem_cons_of_mem _ (mem_cons_self ..)

theorem publishArchive_new (filled : ∀ block ∈ blocks, block ≠ [])
    (unknown : marker (ArchiveBatch.of host sources).id ∉
      memoryLines (memoryOf host start blocks)) :
    publishArchive host (memoryOf host start blocks) (ArchiveBatch.of host sources) =
      memoryOf host start (blocks ++ [sources]) := by
  unfold publishArchive
  rw [if_neg unknown, trimLines_memoryOf filled,
    memoryOf_lines (append_ne_nil_of_right_ne_nil _ (cons_ne_nil sources [])),
    flatMap_append, flatMap_singleton, ← append_assoc]

end Slide.Memory
