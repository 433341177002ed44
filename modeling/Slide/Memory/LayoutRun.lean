import Mathlib.Data.List.Induction
import Mathlib.Data.List.Perm.Basic
import Slide.Memory.LayoutSteps

/-!
# Runs of the memory history

Whatever the calls, failures and crashes, the layout is kept (`inv_run`), as long as no id that
`randomUUID` returns has been there before.
-/

namespace Slide.Memory

open Slide.Display List

variable {host : Host} {start : Option (List String)} {used : List String} {w : World}
  {blocks : List (List Source)} {entries : List HistoryEnvelope}

/-- The layout of a world, for some published batches and entries. -/
def Inv (host : Host) (start : Option (List String)) (used : List String) (w : World) : Prop :=
  ∃ blocks entries, Layout host start used w blocks entries

/-! ## One event -/

theorem Layout.append {id : Uuid} {entry : Record String Json}
    (layout : Layout host start used w blocks entries) (fresh : id.val ∉ used) :
    Layout host start (used ++ [id.val]) (step host w (.append id entry)) blocks entries := by
  obtain ⟨legacy, done⟩ := layout.readable
  have migrated := @Layout.migrated host start used w blocks entries legacy layout
  have taken : step host w (.append id entry) = { w with
      files := if legacy then w.files.write host entries else w.files
      appending := w.appending ++ [.of id.val id.property entry] } := by
    unfold step
    dsimp only
    rw [done]
  rw [taken]
  refine ⟨migrated.readable, migrated.memory, migrated.filled, migrated.archived, migrated.moving,
    migrated.stands, migrated.holds, ?_, fun name mem => ?_⟩
  · rw [map_append, ← append_assoc, nodup_append]
    refine ⟨layout.distinct, nodup_singleton _, fun a known b new same => fresh ?_⟩
    have this_one : b = id.val := mem_singleton.mp new
    rw [← this_one, ← same]
    exact layout.known a known
  · rw [map_append, ← append_assoc] at mem
    rcases mem_append.mp mem with old | new
    · exact mem_append_left _ (layout.known name old)
    · exact mem_append_right _ new

theorem Layout.line {i : Nat} {envelope : HistoryEnvelope}
    (layout : Layout host start used w blocks entries) (found : w.appending[i]? = some envelope) :
    Layout host start used (step host w (.line i)) blocks (entries ++ [envelope]) := by
  obtain ⟨legacy, done⟩ := layout.readable
  obtain ⟨inside, rfl⟩ := List.getElem?_eq_some_iff.mp found
  have added : step host w (.line i) = { w with
      files := { w.files with history := w.files.history ++ [w.appending[i].line host] }
      appending := w.appending.eraseIdx i
      live := w.live ++ [w.appending[i].source] } := by
    unfold step
    dsimp only
    rw [found]
  have same_ids : (w.live.map Source.id ++ w.appending.map HistoryEnvelope.id).Perm
      ((w.live ++ [w.appending[i].source]).map Source.id ++
        (w.appending.eraseIdx i).map HistoryEnvelope.id) := by
    rw [map_append, append_assoc]
    exact ((getElem_cons_eraseIdx_perm inside).map HistoryEnvelope.id).symm.append_left _
  have new : w.appending[i].id ∉ entries.map HistoryEnvelope.id := by
    intro mem
    obtain ⟨row, there, same⟩ := mem_map.mp mem
    have live := layout.moving.live_of_mem.1 row.source (mem_map_of_mem there)
    refine (nodup_append.mp layout.distinct).2.2 _ (mem_map_of_mem live) _
      (mem_map_of_mem (getElem_mem inside)) same
  have rows : (entries ++ [w.appending[i]]).map HistoryEnvelope.source =
      entries.map HistoryEnvelope.source ++ [w.appending[i].source] := map_append
  rw [added]
  refine ⟨⟨legacy, read_snoc done new⟩, layout.memory, layout.filled, layout.archived, ?_,
    fun consumer held => ?_, fun consumer held => ?_, same_ids.nodup_iff.mp layout.distinct,
    fun name mem => layout.known name (same_ids.mem_iff.mpr mem)⟩
  · rw [rows]
    exact layout.moving.snoc
  · rw [rows]
    exact (layout.stands consumer held).snoc rfl rfl
  · rw [rows]
    exact (layout.holds consumer held).snoc rfl

theorem no_journal (layout : Layout host start used w blocks entries)
    (none_pending : ¬ w.files.pending) : w.files.journal = none := by
  cases found : w.files.journal with
  | none => rfl
  | some file =>
    have moving := layout.moving
    rw [found] at moving
    obtain ⟨sources, rfl⟩ := moving.journal_of
    exact absurd ⟨_, found, journalOf_text⟩ none_pending

theorem Layout.clear (layout : Layout host start used w blocks entries)
    (idle : w.consumer = none) (none_pending : ¬ w.files.pending) :
    Layout host start used (step host w .clear) blocks [] := by
  obtain ⟨legacy, done⟩ := layout.readable
  have cleared : w.files.sources host = entries.map HistoryEnvelope.source := by
    unfold Files.sources
    rw [done]
  have wiped : step host w .clear = { w with
      files := w.files.write host []
      live := w.live.filter fun source =>
        decide (source.id ∉ (entries.map HistoryEnvelope.source).map Source.id) } := by
    unfold step
    dsimp only
    rw [idle]
    dsimp only
    rw [if_neg none_pending, cleared]
  have none_there : w.files.journal = none := no_journal layout none_pending
  have moving := layout.moving
  rw [none_there] at moving
  cases moving with
  | idle whole =>
    have live := live_nodup layout
    rw [whole, map_append, nodup_append] at live
    have left : w.live.filter (fun source =>
        decide (source.id ∉ (entries.map HistoryEnvelope.source).map Source.id)) =
          blocks.flatten := by
      rw [whole, filter_append]
      have published : blocks.flatten.filter (fun source =>
          decide (source.id ∉ (entries.map HistoryEnvelope.source).map Source.id)) =
            blocks.flatten :=
        filter_eq_self.mpr fun source mem => decide_eq_true fun gone =>
          live.2.2 _ (mem_map_of_mem mem) _ gone rfl
      have none_left : (entries.map HistoryEnvelope.source).filter (fun source =>
          decide (source.id ∉ (entries.map HistoryEnvelope.source).map Source.id)) = [] :=
        filter_eq_nil_iff.mpr fun source mem holds =>
          of_decide_eq_true holds (mem_map_of_mem mem)
      rw [published, none_left, append_nil]
    have fewer : (blocks.flatten.map Source.id ++ w.appending.map HistoryEnvelope.id).Sublist
        (w.live.map Source.id ++ w.appending.map HistoryEnvelope.id) := by
      rw [whole, map_append]
      exact (sublist_append_left ..).append (List.Sublist.refl _)
    rw [wiped, left]
    refine ⟨⟨false, rfl⟩, layout.memory, layout.filled, layout.archived, ?_, ?_, ?_,
      layout.distinct.sublist fewer, fun name mem => layout.known name (fewer.subset mem)⟩
    · change Moving host blocks [] blocks.flatten w.files.journal
      rw [none_there]
      exact .idle (append_nil _).symm
    · intro consumer held
      rw [idle] at held
      cases held
    · intro consumer held
      rw [idle] at held
      cases held

theorem Layout.begins (task : Task) (point : Point)
    (layout : Layout host start used w blocks entries)
    (stands : Stands host w.files blocks (entries.map HistoryEnvelope.source) w.live point)
    (holds : Holds host w.files (entries.map HistoryEnvelope.source) task point) :
    Layout host start used { w with consumer := some ⟨task, point⟩ } blocks entries := by
  refine ⟨layout.readable, layout.memory, layout.filled, layout.archived, layout.moving, ?_, ?_,
    layout.distinct, layout.known⟩
  · rintro _ ⟨⟩
    exact stands
  · rintro _ ⟨⟩
    exact holds

theorem Layout.fewer {appending : List HistoryEnvelope} {consumer : Option Consumer}
    (layout : Layout host start used w blocks entries) (part : appending.Sublist w.appending)
    (ended : consumer = w.consumer ∨ consumer = none) :
    Layout host start used { w with appending, consumer } blocks entries := by
  have ids : (w.live.map Source.id ++ appending.map HistoryEnvelope.id).Sublist
      (w.live.map Source.id ++ w.appending.map HistoryEnvelope.id) :=
    (List.Sublist.refl _).append (part.map _)
  refine ⟨layout.readable, layout.memory, layout.filled, layout.archived, layout.moving, ?_, ?_,
    layout.distinct.sublist ids, fun name mem => layout.known name (ids.subset mem)⟩
  · rcases ended with rfl | rfl
    · exact layout.stands
    · exact fun _ none_left => (nomatch none_left)
  · rcases ended with rfl | rfl
    · exact layout.holds
    · exact fun _ none_left => (nomatch none_left)

theorem Layout.widen {more : List String} (layout : Layout host start used w blocks entries) :
    Layout host start (used ++ more) w blocks entries :=
  ⟨layout.readable, layout.memory, layout.filled, layout.archived, layout.moving, layout.stands,
    layout.holds, layout.distinct, fun name mem => mem_append_left _ (layout.known name mem)⟩

theorem inv_step {event : Event} (inv : Inv host start used w)
    (unmarked : Unmarked (memoryLines start)) (fresh : ∀ id ∈ event.uuid, id ∉ used) :
    Inv host start (used ++ event.uuid.toList) (step host w event) := by
  obtain ⟨blocks, entries, layout⟩ := inv
  cases event with
  | append id entry => exact ⟨blocks, entries, layout.append (fresh id.val rfl)⟩
  | line i =>
    cases found : w.appending[i]? with
    | none =>
      refine ⟨blocks, entries, ?_⟩
      unfold step
      dsimp only
      rw [found]
      exact layout.widen
    | some envelope => exact ⟨blocks, _, (layout.line found).widen⟩
  | clear =>
    unfold step
    dsimp only
    cases idle : w.consumer with
    | some consumer => exact ⟨blocks, entries, layout.widen⟩
    | none =>
      dsimp only
      by_cases pending : w.files.pending
      · rw [if_pos pending]
        exact ⟨blocks, entries, layout.widen⟩
      · rw [if_neg pending]
        have cleared := layout.clear idle pending
        unfold step at cleared
        dsimp only at cleared
        rw [idle] at cleared
        dsimp only at cleared
        rw [if_neg pending] at cleared
        exact ⟨blocks, [], cleared.widen⟩
  | archiveBatch limit =>
    unfold step
    dsimp only
    cases w.consumer with
    | some consumer => exact ⟨blocks, entries, layout.widen⟩
    | none =>
      dsimp only
      split
      next => exact ⟨blocks, entries, layout.widen⟩
      next =>
        have begun := layout.begins .archiveBatch (.journal limit.toNat) trivial trivial
        exact ⟨blocks, entries, begun.widen⟩
  | compact keepCount =>
    unfold step
    dsimp only
    cases w.consumer with
    | some consumer => exact ⟨blocks, entries, layout.widen⟩
    | none =>
      dsimp only
      split
      next => exact ⟨blocks, entries, layout.widen⟩
      next =>
        split
        next =>
          have begun := layout.begins (.recover keepCount.toNat) (.journal 50) trivial trivial
          exact ⟨blocks, entries, begun.widen⟩
        next pending =>
          have begun := layout.begins (.recover keepCount.toNat) (.count keepCount.toNat)
            (no_journal layout pending) trivial
          exact ⟨blocks, entries, begun.widen⟩
  | advance =>
    unfold step
    dsimp only
    cases held : w.consumer with
    | none => exact ⟨blocks, entries, layout.widen⟩
    | some consumer =>
      obtain ⟨blocks', entries', kept⟩ := layout.advance unmarked held
      exact ⟨blocks', entries', kept.widen⟩
  | fail =>
    exact ⟨blocks, entries, (layout.fewer (List.Sublist.refl _) (.inr rfl)).widen⟩
  | failAppend i =>
    exact ⟨blocks, entries, (layout.fewer (eraseIdx_sublist ..) (.inl rfl)).widen⟩
  | crash => exact ⟨blocks, entries, (layout.fewer (nil_sublist _) (.inr rfl)).widen⟩

/-! ## Runs -/

/-- A workspace before the first batch: nobody at work, no journal, a history that can be read. -/
structure Start (host : Host) (w : World) : Prop where
  idle : w.consumer = none ∧ w.appending = []
  no_journal : w.files.journal = none
  unmarked : Unmarked (memoryLines w.files.memory)
  readable : ∃ entries legacy, read host w.files.history = .ok (entries, legacy) ∧
    w.live = entries.map HistoryEnvelope.source

theorem Start.inv (first : Start host w) :
    Inv host w.files.memory (w.live.map Source.id) w := by
  obtain ⟨entries, legacy, done, live⟩ := first.readable
  obtain ⟨idle, none_appending⟩ := first.idle
  refine ⟨[], entries, ⟨legacy, done⟩, rfl, fun block mem => absurd mem not_mem_nil,
    fun block mem => absurd mem not_mem_nil, ?_, fun consumer held => ?_,
    fun consumer held => ?_, ?_, fun name mem => ?_⟩
  · rw [first.no_journal]
    exact .idle live
  · rw [idle] at held
    cases held
  · rw [idle] at held
    cases held
  · rw [none_appending, live, map_nil, append_nil, map_map]
    exact read_nodup done
  · rwa [none_appending, map_nil, append_nil] at mem

theorem inv_run (first : Start host w) {events : List Event}
    (fresh : (w.live.map Source.id ++ events.filterMap Event.uuid).Nodup) :
    Inv host w.files.memory (w.live.map Source.id ++ events.filterMap Event.uuid)
      (run host w events) := by
  induction events using List.reverseRecOn with
  | nil =>
    rw [filterMap_nil, append_nil]
    exact first.inv
  | append_singleton events event ih =>
    have ids : (events ++ [event]).filterMap Event.uuid =
        events.filterMap Event.uuid ++ event.uuid.toList := by
      rw [filterMap_append]
      cases made : event.uuid <;> simp [made]
    rw [ids, ← append_assoc] at fresh ⊢
    obtain ⟨before, -, apart⟩ := nodup_append.mp fresh
    rw [run_snoc]
    refine inv_step (ih before) first.unmarked fun id made known => ?_
    exact apart id known id (Option.mem_toList.mpr made) rfl

end Slide.Memory
