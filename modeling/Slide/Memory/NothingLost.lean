import Mathlib.Data.List.Pairwise
import Slide.Memory.LayoutRun

/-!
# Consolidation loses and duplicates nothing

Every live entry lies in the history, in MEMORY.md below one marker, or in the batch of the journal
that moves from the one to the other.  A journal that does not pass its checks stops a call before it
changes anything; an entry of the history that was changed stops it at the acknowledgement, behind
the publication.
-/

namespace Slide.Memory

open Slide.Display List

variable {host : Host} {start : Option (List String)} {used : List String} {w : World}
  {blocks : List (List Source)} {entries : List HistoryEnvelope} {sources : List Source}

/-- The ids of the batch that the journal holds. -/
def Files.pendingIds (host : Host) (files : Files) : List String :=
  match (files.journal.bind JournalFile.value).bind (readBatch host) with
  | some batch => batch.entries.map Item.id
  | none => []

/-- Where the live entries lie in the files. -/
structure Places (host : Host) (start : Option (List String)) (w : World)
    (blocks : List (List Source)) : Prop where
  /-- MEMORY.md is its first text and the published batches, each with its archive file. -/
  memory : w.files.memory = memoryOf host start blocks
  archived : ∀ block ∈ blocks,
    w.files.archive (ArchiveBatch.of host block).id = some (ArchiveBatch.of host block).value
  /-- No entry is in MEMORY.md twice. -/
  once : (blocks.flatten.map Source.id).Nodup
  /-- The entries reach MEMORY.md in the order in which they were appended. -/
  order : blocks.flatten.Sublist w.live
  /-- An entry of the pending batch is in the history or in MEMORY.md. -/
  pending : ∀ source ∈ w.live, source.id ∈ w.files.pendingIds host →
    source ∈ w.files.sources host ∨ ∃ block ∈ blocks, source ∈ block
  /-- Any other one is in exactly one of them, and there below one marker. -/
  settled : ∀ source ∈ w.live, source.id ∉ w.files.pendingIds host →
    (source ∈ w.files.sources host ∧ ∀ block ∈ blocks, source ∉ block) ∨
      (source ∉ w.files.sources host ∧ ∃ block ∈ blocks, source ∈ block ∧
        ∀ other ∈ blocks, source ∈ other → other = block)
  /-- A compaction does not touch the entries it found to keep. -/
  kept : ∀ remaining kept point, w.consumer = some ⟨.compact remaining kept, point⟩ →
    ∀ source ∈ kept, source ∈ w.files.sources host ∧ source.id ∉ w.files.pendingIds host

theorem pendingIds_none (none_there : w.files.journal = none) :
    w.files.pendingIds host = [] := by
  unfold Files.pendingIds
  rw [none_there]
  rfl

theorem pendingIds_of (layout : Layout host start used w blocks entries)
    (held : w.files.journal = some (journalOf host sources)) :
    w.files.pendingIds host = sources.map Source.id := by
  obtain ⟨filled, nodup⟩ := layout.moving.sources_nodup (live_nodup layout) held
  have passes : (w.files.journal.bind JournalFile.value).bind (readBatch host) =
      some (ArchiveBatch.of host sources) := by
    rw [held]
    exact readBatch_of filled nodup
  unfold Files.pendingIds
  rw [passes]
  exact items_id

theorem sources_of (layout : Layout host start used w blocks entries) :
    w.files.sources host = entries.map HistoryEnvelope.source := by
  obtain ⟨legacy, done⟩ := layout.readable
  unfold Files.sources
  rw [done]

theorem Layout.once (layout : Layout host start used w blocks entries) :
    (blocks.flatten.map Source.id).Nodup ∧ blocks.flatten.Sublist w.live := by
  have part : blocks.flatten.Sublist w.live := by
    obtain ⟨rest, whole⟩ := layout.moving.published_first
    rw [whole]
    exact sublist_append_left ..
  exact ⟨(live_nodup layout).sublist (part.map _), part⟩

theorem block_unique (nodup : (blocks.flatten.map Source.id).Nodup)
    {source : Source} {block other : List Source} (mem : block ∈ blocks) (inside : source ∈ block)
    (mem' : other ∈ blocks) (inside' : source ∈ other) : other = block := by
  have apart := (nodup_flatten.mp (List.Nodup.of_map _ nodup)).2
  have symmetric : Std.Symm (@List.Disjoint Source) := ⟨fun _ _ apart a right left =>
    apart left right⟩
  by_contra different
  exact apart.forall mem' mem different inside' inside

theorem Layout.kept (layout : Layout host start used w blocks entries) {remaining : Nat}
    {kept : List Source} {point : Point}
    (held : w.consumer = some ⟨.compact remaining kept, point⟩) :
    ∀ source ∈ kept, source ∈ entries.map HistoryEnvelope.source ∧
      source.id ∉ w.files.pendingIds host := by
  have stands : Stands host w.files blocks (entries.map HistoryEnvelope.source) w.live point :=
    layout.stands _ held
  have holds : Holds host w.files (entries.map HistoryEnvelope.source) (.compact remaining kept)
    point := layout.holds _ held
  have idle (none_there : w.files.journal = none) (first more : List Source)
      (split : entries.map HistoryEnvelope.source = first ++ kept ++ more) :
      ∀ source ∈ kept, source ∈ entries.map HistoryEnvelope.source ∧
        source.id ∉ w.files.pendingIds host := by
    intro source mem
    rw [pendingIds_none none_there, split]
    exact ⟨mem_append_left _ (mem_append_right _ mem), not_mem_nil⟩
  have nodup : ((entries.map HistoryEnvelope.source).map Source.id).Nodup := by
    rw [map_map]
    exact rows_nodup layout
  have moving {sources first more : List Source}
      (there : w.files.journal = some (journalOf host sources))
      (split : entries.map HistoryEnvelope.source = sources ++ first ++ kept ++ more) :
      ∀ source ∈ kept, source ∈ entries.map HistoryEnvelope.source ∧
        source.id ∉ w.files.pendingIds host := by
    intro source mem
    rw [pendingIds_of layout there]
    rw [split, append_assoc, append_assoc, map_append, nodup_append] at nodup
    rw [split]
    refine ⟨mem_append_left _ (mem_append_right _ mem), fun selected => ?_⟩
    refine nodup.2.2 _ selected _ (mem_map_of_mem ?_) rfl
    exact mem_append_right _ (mem_append_left _ mem)
  cases point with
  | journal limit =>
    obtain ⟨none_there, -, first, more, split, -⟩ := holds
    exact idle none_there first more split
  | source limit =>
    obtain ⟨-, first, more, split, -⟩ := holds
    exact idle stands first more split
  | record batch =>
    obtain ⟨sources, first, more, -, split, -⟩ := holds batch rfl
    exact idle stands.1 (sources ++ first) more split
  | archive batch =>
    obtain ⟨sources, first, more, made, split, -⟩ := holds batch rfl
    obtain ⟨others, made', there⟩ := stands
    exact moving there (of_inj (made'.symm.trans made) ▸ split)
  | publish batch =>
    obtain ⟨sources, first, more, made, split, -⟩ := holds batch rfl
    obtain ⟨others, made', there, -⟩ := stands
    exact moving there (of_inj (made'.symm.trans made) ▸ split)
  | cursor batch =>
    obtain ⟨sources, first, more, made, split, -⟩ := holds batch rfl
    obtain ⟨others, made', there, -⟩ := stands
    exact moving there (of_inj (made'.symm.trans made) ▸ split)
  | acknowledge batch =>
    obtain ⟨sources, first, more, made, split, -⟩ := holds batch rfl
    obtain ⟨others, made', there, -⟩ := stands
    exact moving there (of_inj (made'.symm.trans made) ▸ split)
  | unlink batch =>
    obtain ⟨sources, first, more, made, split, -⟩ := holds
    obtain ⟨others, made', there, ⟨before, last⟩, whole⟩ := stands
    intro source mem
    have row : source ∈ entries.map HistoryEnvelope.source := by
      rw [split]
      exact mem_append_left _ (mem_append_right _ mem)
    refine ⟨row, fun selected => ?_⟩
    rw [pendingIds_of layout there] at selected
    have live := live_nodup layout
    rw [whole, last, flatten_append, flatten_singleton, map_append,
      map_append, nodup_append] at live
    exact live.2.2 _ (mem_append_right _ selected) _ (mem_map_of_mem row) rfl
  | count => exact holds.elim

theorem Layout.places (layout : Layout host start used w blocks entries) :
    Places host start w blocks := by
  have sources := sources_of layout
  obtain ⟨once, order⟩ := layout.once
  have in_block {source : Source} (mem : source ∈ blocks.flatten) :
      ∃ block ∈ blocks, source ∈ block ∧ ∀ other ∈ blocks, source ∈ other → other = block := by
    obtain ⟨block, there, inside⟩ := mem_flatten.mp mem
    exact ⟨block, there, inside, fun other mem' inside' =>
      block_unique once there inside mem' inside'⟩
  refine ⟨layout.memory, layout.archived, once, order, fun source live moved => ?_,
    fun source live unmoved => ?_, fun remaining kept point held source mem => ?_⟩
  · rw [sources]
    rcases layout.moving.mem_of_live live with row | published
    · exact .inl row
    · exact .inr (mem_flatten.mp published)
  · have apart : source ∈ entries.map HistoryEnvelope.source → source ∉ blocks.flatten :=
      layout.moving.apart (live_nodup layout) fun moved held => by
        rwa [pendingIds_of layout held] at unmoved
    rw [sources]
    rcases layout.moving.mem_of_live live with row | published
    · exact .inl ⟨row, fun block there inside =>
        apart row (mem_flatten.mpr ⟨block, there, inside⟩)⟩
    · exact .inr ⟨fun row => apart row published, in_block published⟩
  · rw [sources]
    exact layout.kept held source mem

/-! ## Calls that stop -/

/-- A call of `archiveBatch` or `compact`, and its steps while nothing else happens. -/
def call (event : Event) (steps : Nat) : List Event := event :: List.replicate steps .advance

theorem run_call {P : World → Prop} {event : Event} (first : P (step host w event))
    (keeps : ∀ w, P w → P (step host w .advance)) (steps : Nat) :
    P (run host w (call event steps)) := by
  change P (run host (step host w event) (List.replicate steps .advance))
  generalize step host w event = w at first
  induction steps generalizing w with
  | zero => exact first
  | succ steps ih => exact ih (step host w .advance) (keeps w first)

/-- The calls that consume. -/
def Event.consumes : Event → Prop
  | .archiveBatch _ | .compact _ => True
  | _ => False

theorem consumes_begins {event : Event} (consumes : event.consumes) (idle : w.consumer = none) :
    (step host w event).files = w.files ∧ ∀ consumer ∈ (step host w event).consumer,
      (∃ limit, consumer.point = .journal limit) ∨ ∃ keepCount, consumer.point = .count keepCount := by
  have none_left {P : Consumer → Prop} : ∀ consumer ∈ w.consumer, P consumer := by
    intro consumer held
    rw [idle] at held
    cases held
  cases event with
  | archiveBatch limit =>
    unfold step
    dsimp only
    rw [idle]
    dsimp only
    split
    next => exact ⟨rfl, none_left⟩
    next =>
      refine ⟨rfl, ?_⟩
      rintro consumer ⟨⟩
      exact .inl ⟨_, rfl⟩
  | compact keepCount =>
    unfold step
    dsimp only
    rw [idle]
    dsimp only
    split
    next => exact ⟨rfl, none_left⟩
    next =>
      split
      next =>
        refine ⟨rfl, ?_⟩
        rintro consumer ⟨⟩
        exact .inl ⟨_, rfl⟩
      next =>
        refine ⟨rfl, ?_⟩
        rintro consumer ⟨⟩
        exact .inr ⟨_, rfl⟩
  | _ => exact consumes.elim

theorem advance_count {files : Files} {task : Task} {keepCount : Nat} :
    (advance host files task (.count keepCount)).1 = files ∧
      ∀ consumer ∈ (advance host files task (.count keepCount)).2,
        ∃ limit, consumer.point = .journal limit := by
  unfold advance
  dsimp only
  split
  next => exact ⟨rfl, fun _ none_left => (nomatch none_left)⟩
  next entries legacy done =>
    refine ⟨rfl, fun consumer held => ?_⟩
    unfold compacting at held
    split at held
    next =>
      cases held
      exact ⟨_, rfl⟩
    next => cases held

theorem invalid_journal_stops {file : JournalFile} (held : w.files.journal = some file)
    (invalid : file.value.bind (readBatch host) = none) (idle : w.consumer = none) {event : Event}
    (consumes : event.consumes) (steps : Nat) :
    (run host w (call event steps)).files = w.files := by
  obtain ⟨same, begins⟩ := @consumes_begins host w event consumes idle
  let P (later : World) : Prop := later.files = w.files ∧ ∀ consumer ∈ later.consumer,
    (∃ limit, consumer.point = .journal limit) ∨ ∃ keepCount, consumer.point = .count keepCount
  have always : P (run host w (call event steps)) := by
    refine run_call ⟨same, begins⟩ (fun later known => ?_) steps
    obtain ⟨same, known⟩ := known
    unfold step
    dsimp only
    cases now : later.consumer with
    | none => exact ⟨same, fun _ none_left => by rw [now] at none_left; cases none_left⟩
    | some consumer =>
      obtain ⟨task, point⟩ := consumer
      dsimp only
      rcases known _ now with ⟨limit, rfl⟩ | ⟨keepCount, rfl⟩
      · have stops : advance host later.files task (.journal limit) = (later.files, none) := by
          unfold advance
          dsimp only
          rw [same, held]
          dsimp only
          rw [invalid]
        rw [stops]
        exact ⟨same, fun _ none_left => (nomatch none_left)⟩
      · obtain ⟨unchanged, leads⟩ := @advance_count host later.files task keepCount
        exact ⟨unchanged.trans same, fun consumer held => .inl (leads consumer held)⟩
  exact always.1

theorem changed_source_stops {file : JournalFile} {batch : ArchiveBatch} {legacy : Bool}
    (held : w.files.journal = some file) (valid : file.value.bind (readBatch host) = some batch)
    (done : read host w.files.history = .ok (entries, legacy))
    (other : ∃ row ∈ entries, changed host batch row) (idle : w.consumer = none) {event : Event}
    (consumes : event.consumes) (steps : Nat) :
    (run host w (call event steps)).files.history = w.files.history ∧
      (run host w (call event steps)).files.journal = w.files.journal := by
  obtain ⟨same, begins⟩ := @consumes_begins host w event consumes idle
  let P (later : World) : Prop := (later.files.history = w.files.history ∧
    later.files.journal = w.files.journal) ∧ ∀ consumer ∈ later.consumer,
      (∃ limit, consumer.point = .journal limit) ∨ (∃ keepCount, consumer.point = .count keepCount) ∨
        consumer.point = .archive batch ∨ consumer.point = .publish batch ∨
        consumer.point = .cursor batch ∨ consumer.point = .acknowledge batch
  have first : P (step host w event) := by
    refine ⟨by rw [same]; exact ⟨rfl, rfl⟩, fun consumer there => ?_⟩
    rcases begins consumer there with journal | count
    · exact .inl journal
    · exact .inr (.inl count)
  have always : P (run host w (call event steps)) := by
    refine run_call first (fun later known => ?_) steps
    obtain ⟨⟨history, journal⟩, known⟩ := known
    unfold step
    dsimp only
    cases now : later.consumer with
    | none =>
      exact ⟨⟨history, journal⟩, fun _ none_left => by rw [now] at none_left; cases none_left⟩
    | some consumer =>
      obtain ⟨task, point⟩ := consumer
      dsimp only
      rcases known _ now with ⟨limit, rfl⟩ | ⟨keepCount, rfl⟩ | rfl | rfl | rfl | rfl
      · have reads : advance host later.files task (.journal limit) =
            (later.files, task.goto (.archive batch)) := by
          unfold advance
          dsimp only
          rw [journal, held]
          dsimp only
          rw [valid]
        rw [reads]
        refine ⟨⟨history, journal⟩, ?_⟩
        rintro consumer ⟨⟩
        exact .inr (.inr (.inl rfl))
      · obtain ⟨unchanged, leads⟩ := @advance_count host later.files task keepCount
        rw [unchanged]
        exact ⟨⟨history, journal⟩, fun consumer held => .inl (leads consumer held)⟩
      · unfold advance
        dsimp only
        split
        next =>
          split
          next => exact ⟨⟨history, journal⟩, fun _ none_left => (nomatch none_left)⟩
          next =>
            refine ⟨⟨history, journal⟩, ?_⟩
            rintro consumer ⟨⟩
            exact .inr (.inr (.inr (.inl rfl)))
        next =>
          refine ⟨⟨history, journal⟩, ?_⟩
          rintro consumer ⟨⟩
          exact .inr (.inr (.inr (.inl rfl)))
      · refine ⟨⟨history, journal⟩, ?_⟩
        rintro consumer ⟨⟩
        exact .inr (.inr (.inr (.inr (.inl rfl))))
      · refine ⟨⟨history, journal⟩, ?_⟩
        rintro consumer ⟨⟩
        exact .inr (.inr (.inr (.inr (.inr rfl))))
      · have stops : advance host later.files task (.acknowledge batch) = (later.files, none) := by
          unfold advance
          dsimp only
          rw [history, done]
          exact if_pos other
        rw [stops]
        exact ⟨⟨history, journal⟩, fun _ none_left => (nomatch none_left)⟩
  exact always.1

/-! ## The result -/

/-- What consolidation does to the entries, and where it stops. -/
structure Outcome (host : Host) (w : World) (events : List Event) : Prop where
  places : ∃ blocks, Places host w.files.memory (run host w events) blocks
  invalid : ∀ now file event steps, now.files.journal = some file →
    file.value.bind (readBatch host) = none → now.consumer = none → event.consumes →
    (run host now (call event steps)).files = now.files
  changed : ∀ now file batch entries legacy event steps, now.files.journal = some file →
    file.value.bind (readBatch host) = some batch →
    read host now.files.history = .ok (entries, legacy) →
    (∃ row ∈ entries, changed host batch row) → now.consumer = none → event.consumes →
    (run host now (call event steps)).files.history = now.files.history ∧
      (run host now (call event steps)).files.journal = now.files.journal

/-- No entry is lost or duplicated, whatever happens to the calls. -/
theorem nothing_lost (host : Host) (w : World) (first : Start host w) (events : List Event)
    (fresh : (w.live.map Source.id ++ events.filterMap Event.uuid).Nodup) :
    Outcome host w events := by
  obtain ⟨blocks, entries, layout⟩ := inv_run first fresh
  exact ⟨⟨blocks, layout.places⟩,
    fun _ _ _ steps held invalid idle consumes =>
      invalid_journal_stops held invalid idle consumes steps,
    fun _ _ _ _ _ _ steps held valid done other idle consumes =>
      changed_source_stops held valid done other idle consumes steps⟩

/-! ## A changed entry -/

section Texts

/-- A host that tells texts by themselves. -/
def plainHost : Host where
  sha256 := fun text => text
  numberText := fun n => toString n.num

def noted (text : String) : Record String Json := [("message", .string text)]

def emptyWorkspace : World where
  files := ⟨[], none, fun _ => none, none, none⟩
  appending := []
  consumer := none
  live := []

theorem nothing_lost_in_empty_workspace : Outcome plainHost emptyWorkspace
    [.append ⟨"a", by decide⟩ (noted "first"), .line 0, .archiveBatch 50, .advance, .advance,
      .advance, .advance, .crash, .archiveBatch 50, .advance] :=
  nothing_lost plainHost emptyWorkspace
    ⟨⟨rfl, rfl⟩, rfl, by
      unfold Unmarked
      decide, [], false, rfl, rfl⟩ _ (by decide)

/-- A journal whose entry has another text in the history. -/
def changedWorkspace : World :=
  { emptyWorkspace with files := { emptyWorkspace.files with
      history := [(HistoryEnvelope.of "a" (by decide) (noted "changed")).line plainHost]
      journal := some (journalOf plainHost [⟨"a", noted "first"⟩]) } }

/-- A changed entry stops the call only behind the publication to MEMORY.md. -/
theorem changed_source_published :
    (run plainHost changedWorkspace (call (.archiveBatch 50) 5)).consumer.isNone = true ∧
      (run plainHost changedWorkspace (call (.archiveBatch 50) 5)).files.history =
        changedWorkspace.files.history ∧
      (run plainHost changedWorkspace (call (.archiveBatch 50) 5)).files.memory ≠
        changedWorkspace.files.memory := by
  decide

end Texts

end Slide.Memory
