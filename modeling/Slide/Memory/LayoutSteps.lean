import Slide.Memory.Layout

/-!
# One step of a call keeps the layout

Each file operation of `consume` takes the batch of the journal one stage further; a repeated one
changes nothing.
-/

namespace Slide.Memory

open Slide.Display List

variable {host : Host} {start : Option (List String)} {used : List String} {w : World}
  {blocks : List (List Source)} {entries : List HistoryEnvelope} {files : Files}
  {rows live sources : List Source} {task : Task} {point : Point}

/-- The layout of what a call has made of the files, and where it stands then. -/
abbrev LayoutOf (host : Host) (start : Option (List String)) (used : List String) (w : World)
    (blocks : List (List Source)) (entries : List HistoryEnvelope)
    (result : Files × Option Consumer) : Prop :=
  Layout host start used { w with files := result.1, consumer := result.2 } blocks entries

theorem rows_nodup (layout : Layout host start used w blocks entries) :
    (entries.map HistoryEnvelope.id).Nodup := by
  obtain ⟨legacy, done⟩ := layout.readable
  exact read_nodup done

theorem live_nodup (layout : Layout host start used w blocks entries) :
    (w.live.map Source.id).Nodup :=
  (nodup_append.mp layout.distinct).1

theorem Layout.ended (layout : Layout host start used w blocks entries) :
    LayoutOf host start used w blocks entries (w.files, none) :=
  ⟨layout.readable, layout.memory, layout.filled, layout.archived, layout.moving,
    fun _ none_left => (nomatch none_left), fun _ none_left => (nomatch none_left),
    layout.distinct, layout.known⟩

theorem Layout.goes_on (layout : Layout host start used w blocks entries)
    (stands : Stands host w.files blocks (entries.map HistoryEnvelope.source) w.live point)
    (holds : Holds host w.files (entries.map HistoryEnvelope.source) task point) :
    LayoutOf host start used w blocks entries (w.files, task.goto point) := by
  refine ⟨layout.readable, layout.memory, layout.filled, layout.archived, layout.moving, ?_, ?_,
    layout.distinct, layout.known⟩
  · rintro consumer ⟨⟩
    exact stands
  · rintro consumer ⟨⟩
    exact holds

theorem Moving.sources_nodup {journal : Option JournalFile}
    (moving : Moving host blocks rows live journal) (nodup : (live.map Source.id).Nodup)
    (held : journal = some (journalOf host sources)) :
    sources ≠ [] ∧ (sources.map Source.id).Nodup := by
  have of_rows {sources rest : List Source} (oldest : rows = sources ++ rest)
      (whole : live = blocks.flatten ++ rows) : (sources.map Source.id).Nodup := by
    rw [whole, oldest, map_append, map_append] at nodup
    exact (nodup_append.mp (nodup_append.mp nodup).2.1).1
  have of_blocks {before : List (List Source)} {sources rest : List Source}
      (last : blocks = before ++ [sources]) (whole : live = blocks.flatten ++ rest) :
      (sources.map Source.id).Nodup := by
    rw [whole, last, flatten_append, flatten_singleton, map_append,
      map_append] at nodup
    exact (nodup_append.mp (nodup_append.mp nodup).1).2.1
  cases moving with
  | idle => cases held
  | taken others rest filled oldest whole =>
    rw [← journalOf_inj (some.inj held)]
    exact ⟨filled, of_rows oldest whole⟩
  | published before others rest filled last oldest whole =>
    rw [← journalOf_inj (some.inj held)]
    exact ⟨filled, of_blocks last whole⟩
  | acknowledged before others filled last whole =>
    rw [← journalOf_inj (some.inj held)]
    exact ⟨filled, of_blocks last whole⟩

theorem Moving.journal_of {file : JournalFile} (moving : Moving host blocks rows live (some file)) :
    ∃ sources, file = journalOf host sources := by
  cases moving with
  | taken sources => exact ⟨sources, rfl⟩
  | published before sources => exact ⟨sources, rfl⟩
  | acknowledged before sources => exact ⟨sources, rfl⟩

/-! ## Reading the journal and the sources -/

theorem Layout.journal {limit : Nat} (layout : Layout host start used w blocks entries)
    (holds : Holds host w.files (entries.map HistoryEnvelope.source) task (.journal limit)) :
    LayoutOf host start used w blocks entries (advance host w.files task (.journal limit)) := by
  have moving := layout.moving
  unfold advance
  dsimp only
  cases found : w.files.journal with
  | none =>
    refine layout.goes_on found ?_
    cases task with
    | archiveBatch | recover => trivial
    | compact remaining kept => exact holds.2
  | some file =>
    rw [found] at moving
    obtain ⟨sources, rfl⟩ := moving.journal_of
    obtain ⟨filled, nodup⟩ := moving.sources_nodup (live_nodup layout) rfl
    have passes : (journalOf host sources).value.bind (readBatch host) =
        some (ArchiveBatch.of host sources) := readBatch_of filled nodup
    dsimp only
    rw [passes]
    refine layout.goes_on ⟨sources, rfl, found⟩ ?_
    cases task with
    | archiveBatch | recover => trivial
    | compact remaining kept =>
      have none_there := holds.1
      rw [found] at none_there
      cases none_there

theorem Layout.migrated {legacy : Bool} (layout : Layout host start used w blocks entries) :
    Layout host start used
      { w with files := if legacy then w.files.write host entries else w.files } blocks entries := by
  cases legacy with
  | false => exact layout
  | true =>
    refine ⟨⟨false, read_lines (rows_nodup layout)⟩, layout.memory, layout.filled, layout.archived,
      layout.moving, fun consumer held => ?_, fun consumer held => ?_, layout.distinct,
      layout.known⟩
    · have stands := layout.stands consumer held
      cases point : consumer.point <;> rw [point] at stands <;> exact stands
    · have holds := layout.holds consumer held
      cases task : consumer.task <;> cases point : consumer.point <;> rw [task, point] at holds <;>
        exact holds

theorem Layout.source {limit : Nat} (layout : Layout host start used w blocks entries)
    (stands : w.files.journal = none)
    (holds : Holds host w.files (entries.map HistoryEnvelope.source) task (.source limit)) :
    LayoutOf host start used w blocks entries (advance host w.files task (.source limit)) := by
  obtain ⟨legacy, done⟩ := layout.readable
  have migrated := @Layout.migrated host start used w blocks entries legacy layout
  obtain ⟨files, same⟩ : ∃ files, (if legacy then w.files.write host entries else w.files) = files :=
    ⟨_, rfl⟩
  have none_there : files.journal = none := by
    rw [← same]
    cases legacy <;> exact stands
  rw [same] at migrated
  unfold advance
  dsimp only
  rw [done]
  dsimp only
  rw [same]
  by_cases empty : ((entries.take (min limit 50)).map HistoryEnvelope.source).isEmpty = true
  · rw [if_pos empty]
    cases task with
    | archiveBatch => exact migrated.ended
    | recover keepCount => exact migrated.goes_on none_there trivial
    | compact remaining kept => exact migrated.ended
  · rw [if_neg empty]
    have filled : (entries.take (min limit 50)).map HistoryEnvelope.source ≠ [] := fun nil =>
      empty (isEmpty_iff.mpr nil)
    refine migrated.goes_on ⟨none_there, _, (entries.drop (min limit 50)).map
      HistoryEnvelope.source, filled, rfl, ?_⟩ ?_
    · rw [← map_append, take_append_drop]
    · cases task with
      | archiveBatch | recover => trivial
      | compact remaining kept =>
        obtain ⟨limited, first, more, split, count⟩ := holds
        rintro batch ⟨⟩
        -- the limit keeps the batch before the entries to keep
        have within : min limit 50 ≤ first.length := by omega
        refine ⟨_, first.drop (min limit 50), more, rfl, ?_, ?_⟩
        · rw [map_take, split, append_assoc, take_append_of_le_length within,
            take_append_drop, append_assoc]
        · rw [map_take, split, append_assoc, take_append_of_le_length within,
            ← length_append, take_append_drop, count]

/-! ## Moving a batch -/

variable {batch : ArchiveBatch}

theorem Layout.record (layout : Layout host start used w blocks entries)
    (stands : Stands host w.files blocks (entries.map HistoryEnvelope.source) w.live (.record batch))
    (holds : Holds host w.files (entries.map HistoryEnvelope.source) task (.record batch)) :
    LayoutOf host start used w blocks entries (advance host w.files task (.record batch)) := by
  obtain ⟨none_there, sources, rest, filled, rfl, oldest⟩ := stands
  have moving := layout.moving
  rw [none_there] at moving
  cases moving with
  | idle whole =>
    refine ⟨layout.readable, layout.memory, layout.filled, layout.archived,
      .taken sources rest filled oldest whole, ?_, ?_, layout.distinct, layout.known⟩
    · rintro consumer ⟨⟩
      exact ⟨sources, rfl, rfl⟩
    · rintro consumer ⟨⟩
      cases task with
      | archiveBatch | recover => trivial
      | compact remaining kept => exact holds

theorem Layout.archive (layout : Layout host start used w blocks entries)
    (stands : Stands host w.files blocks (entries.map HistoryEnvelope.source) w.live (.archive batch))
    (holds : Holds host w.files (entries.map HistoryEnvelope.source) task (.archive batch)) :
    LayoutOf host start used w blocks entries (advance host w.files task (.archive batch)) := by
  obtain ⟨sources, rfl, held⟩ := stands
  have holds' {files : Files} : Holds host files (entries.map HistoryEnvelope.source) task
      (.publish (ArchiveBatch.of host sources)) := by
    cases task with
    | archiveBatch | recover => trivial
    | compact remaining kept => exact holds
  unfold advance
  dsimp only
  cases existing : w.files.archive (ArchiveBatch.of host sources).id with
  | some value =>
    dsimp only
    by_cases same : value ≠ (ArchiveBatch.of host sources).value
    · rw [if_pos same]
      exact layout.ended
    · rw [if_neg same]
      refine layout.goes_on ⟨sources, rfl, held, ?_⟩ holds'
      rw [existing, not_not.mp same]
  | none =>
    refine ⟨layout.readable, layout.memory, layout.filled, fun block mem => ?_, layout.moving, ?_,
      ?_, layout.distinct, layout.known⟩
    · have archived := layout.archived block mem
      have other : (ArchiveBatch.of host block).id ≠ (ArchiveBatch.of host sources).id := by
        intro same
        rw [same, existing] at archived
        cases archived
      exact (Function.update_of_ne other ..).trans archived
    · rintro consumer ⟨⟩
      exact ⟨sources, rfl, held, Function.update_self ..⟩
    · rintro consumer ⟨⟩
      exact holds'

theorem Layout.publish (layout : Layout host start used w blocks entries)
    (unmarked : Unmarked (memoryLines start))
    (stands : Stands host w.files blocks (entries.map HistoryEnvelope.source) w.live (.publish batch))
    (holds : Holds host w.files (entries.map HistoryEnvelope.source) task (.publish batch)) :
    ∃ blocks, LayoutOf host start used w blocks entries
      (advance host w.files task (.publish batch)) := by
  obtain ⟨sources, rfl, held, archived⟩ := stands
  have holds' {files : Files} : Holds host files (entries.map HistoryEnvelope.source) task
      (.cursor (ArchiveBatch.of host sources)) := by
    cases task with
    | archiveBatch | recover => trivial
    | compact remaining kept => exact holds
  have again {before : List (List Source)} (last : blocks = before ++ [sources]) :
      LayoutOf host start used w blocks entries
        (advance host w.files task (.publish (ArchiveBatch.of host sources))) := by
    have there : marker (ArchiveBatch.of host sources).id ∈ memoryLines w.files.memory := by
      rw [layout.memory, marker_mem_iff unmarked]
      exact ⟨sources, last ▸ mem_append_right _ (mem_singleton_self sources), rfl⟩
    have same : publishArchive host w.files.memory (ArchiveBatch.of host sources) =
        w.files.memory := if_pos there
    unfold advance
    dsimp only
    rw [same]
    exact layout.goes_on ⟨sources, rfl, held, before, last⟩ holds'
  have moving := layout.moving
  rw [held] at moving
  generalize journal : some (journalOf host sources) = file at moving
  cases moving with
  | idle => cases journal
  | published before others rest filled last =>
    rw [← journalOf_inj (some.inj journal)] at last
    exact ⟨blocks, again last⟩
  | acknowledged before others filled last =>
    rw [← journalOf_inj (some.inj journal)] at last
    exact ⟨blocks, again last⟩
  | taken others rest filled oldest whole =>
    obtain rfl := journalOf_inj (some.inj journal)
    have new : marker (ArchiveBatch.of host sources).id ∉
        memoryLines (memoryOf host start blocks) := by
      rw [marker_mem_iff unmarked]
      rintro ⟨block, mem, same⟩
      -- a published batch with this id is this one, and its sources would be live twice
      have value := layout.archived block mem
      rw [same, archived] at value
      obtain rfl := ArchiveBatch.of_inj (some.inj value)
      obtain ⟨source, inside⟩ := exists_mem_of_ne_nil _ filled
      have nodup := live_nodup layout
      rw [whole, oldest, map_append, nodup_append] at nodup
      refine nodup.2.2 source.id (mem_map_of_mem (mem_flatten.mpr ⟨_, mem, inside⟩))
        source.id ?_ rfl
      exact mem_map_of_mem (mem_append_left _ inside)
    have published := publishArchive_new layout.filled new
    refine ⟨blocks ++ [sources], layout.readable, ?_, fun block mem => ?_, fun block mem => ?_, ?_,
      ?_, ?_, layout.distinct, layout.known⟩
    · change publishArchive host w.files.memory _ = _
      rw [layout.memory, published]
    · rcases mem_append.mp mem with old | last
      · exact layout.filled block old
      · exact mem_singleton.mp last ▸ filled
    · rcases mem_append.mp mem with old | last
      · exact layout.archived block old
      · exact mem_singleton.mp last ▸ archived
    · change Moving host _ _ _ w.files.journal
      rw [held]
      refine .published blocks sources rest filled rfl oldest ?_
      rw [whole, oldest, flatten_append, flatten_singleton, append_assoc]
    · rintro consumer ⟨⟩
      exact ⟨sources, rfl, held, blocks, rfl⟩
    · rintro consumer ⟨⟩
      exact holds'

theorem Layout.cursor (layout : Layout host start used w blocks entries)
    (stands : Stands host w.files blocks (entries.map HistoryEnvelope.source) w.live (.cursor batch))
    (holds : Holds host w.files (entries.map HistoryEnvelope.source) task (.cursor batch)) :
    LayoutOf host start used w blocks entries (advance host w.files task (.cursor batch)) := by
  refine ⟨layout.readable, layout.memory, layout.filled, layout.archived, layout.moving, ?_, ?_,
    layout.distinct, layout.known⟩
  · rintro consumer ⟨⟩
    exact stands
  · rintro consumer ⟨⟩
    cases task with
    | archiveBatch | recover => trivial
    | compact remaining kept => exact holds

/-- The rows that are not selected. -/
def unselected (sources : List Source) (entries : List HistoryEnvelope) : List HistoryEnvelope :=
  entries.filter fun row =>
    decide (row.id ∉ (ArchiveBatch.of host sources).entries.map Item.id)

theorem unselected_rows : (@unselected host sources entries).map HistoryEnvelope.source =
    (entries.map HistoryEnvelope.source).filter fun source =>
      decide (source.id ∉ sources.map Source.id) := by
  have ids : (ArchiveBatch.of host sources).entries.map Item.id = sources.map Source.id := items_id
  unfold unselected
  rw [ids, filter_map]
  rfl

theorem filter_oldest {rest : List Source} (oldest : rows = sources ++ rest)
    (nodup : (rows.map Source.id).Nodup) :
    rows.filter (fun source => decide (source.id ∉ sources.map Source.id)) = rest := by
  subst oldest
  rw [map_append, nodup_append] at nodup
  rw [filter_append]
  have none_of_them : sources.filter (fun source => decide (source.id ∉ sources.map Source.id)) =
      [] :=
    filter_eq_nil_iff.mpr fun source mem holds =>
      of_decide_eq_true holds (mem_map_of_mem mem)
  have all_others : rest.filter (fun source => decide (source.id ∉ sources.map Source.id)) = rest :=
    filter_eq_self.mpr fun source mem => decide_eq_true fun selected =>
      nodup.2.2 _ selected _ (mem_map_of_mem mem) rfl
  rw [none_of_them, all_others, nil_append]

theorem Layout.acknowledge (layout : Layout host start used w blocks entries)
    (stands : Stands host w.files blocks (entries.map HistoryEnvelope.source) w.live
      (.acknowledge batch))
    (holds : Holds host w.files (entries.map HistoryEnvelope.source) task (.acknowledge batch)) :
    ∃ entries, LayoutOf host start used w blocks entries
      (advance host w.files task (.acknowledge batch)) := by
  obtain ⟨sources, rfl, held, before, last⟩ := stands
  obtain ⟨legacy, done⟩ := layout.readable
  have nodup : ((entries.map HistoryEnvelope.source).map Source.id).Nodup := by
    rw [map_map]
    exact rows_nodup layout
  unfold advance
  dsimp only
  rw [done]
  dsimp only
  by_cases other : ∃ row ∈ entries, changed host (ArchiveBatch.of host sources) row
  · rw [if_pos other]
    exact ⟨entries, layout.ended⟩
  rw [if_neg other]
  obtain ⟨filled, whole⟩ : sources ≠ [] ∧ w.live = blocks.flatten ++
      (@unselected host sources entries).map HistoryEnvelope.source := by
    rw [unselected_rows]
    have moving := layout.moving
    rw [held] at moving
    generalize journal : some (journalOf host sources) = file at moving
    cases moving with
    | idle => cases journal
    | taken others rest filled oldest whole =>
      -- the last batch in MEMORY.md would be live twice
      obtain rfl := journalOf_inj (some.inj journal)
      obtain ⟨source, inside⟩ := exists_mem_of_ne_nil _ filled
      have live := live_nodup layout
      rw [whole, last, oldest, flatten_append, flatten_singleton, map_append,
        nodup_append] at live
      refine absurd rfl (live.2.2 source.id ?_ source.id ?_)
      · exact mem_map_of_mem (mem_append_right _ inside)
      · exact mem_map_of_mem (mem_append_left _ inside)
    | published before' others rest filled last' oldest whole =>
      obtain rfl := journalOf_inj (some.inj journal)
      rw [filter_oldest oldest nodup]
      exact ⟨filled, whole⟩
    | acknowledged before' others filled last' whole =>
      obtain rfl := journalOf_inj (some.inj journal)
      refine ⟨filled, whole.trans (congrArg _ (filter_eq_self.mpr fun source mem => ?_).symm)⟩
      refine decide_eq_true fun selected => ?_
      have live := live_nodup layout
      rw [whole, last, flatten_append, flatten_singleton, map_append,
        map_append, nodup_append] at live
      exact live.2.2 _ (mem_append_right _ selected) _ (mem_map_of_mem mem) rfl
  have kept_nodup : ((@unselected host sources entries).map HistoryEnvelope.id).Nodup :=
    (rows_nodup layout).sublist (filter_sublist.map _)
  refine ⟨@unselected host sources entries, ⟨false, read_lines kept_nodup⟩, layout.memory,
    layout.filled, layout.archived, ?_, ?_, ?_, layout.distinct, layout.known⟩
  · change Moving host _ _ _ w.files.journal
    rw [held]
    exact .acknowledged before sources filled last whole
  · rintro consumer ⟨⟩
    exact ⟨sources, rfl, held, ⟨before, last⟩, whole⟩
  · rintro consumer ⟨⟩
    cases task with
    | archiveBatch | recover => trivial
    | compact remaining kept =>
      obtain ⟨others, first, more, made, split, count⟩ := holds _ rfl
      obtain rfl := of_inj made
      refine ⟨sources, first, more, rfl, ?_, count⟩
      rw [unselected_rows]
      rw [append_assoc, append_assoc] at split
      rw [filter_oldest split nodup, append_assoc]

theorem Layout.compacting {remaining : Nat} {kept first more : List Source}
    (layout : Layout host start used w blocks entries) (none_there : w.files.journal = none)
    (split : entries.map HistoryEnvelope.source = first ++ kept ++ more)
    (count : first.length = remaining) :
    LayoutOf host start used w blocks entries (w.files, compacting remaining kept) := by
  unfold Memory.compacting
  by_cases more_left : 0 < remaining
  · rw [if_pos more_left]
    exact layout.goes_on trivial ⟨none_there, Nat.min_le_right _ _, first, more, split, count⟩
  · rw [if_neg more_left]
    exact layout.ended

theorem Layout.unlink (layout : Layout host start used w blocks entries)
    (stands : Stands host w.files blocks (entries.map HistoryEnvelope.source) w.live (.unlink batch))
    (holds : Holds host w.files (entries.map HistoryEnvelope.source) task (.unlink batch)) :
    LayoutOf host start used w blocks entries (advance host w.files task (.unlink batch)) := by
  obtain ⟨sources, rfl, held, -, whole⟩ := stands
  have moved : Layout host start used
      { w with files := { w.files with journal := none }, consumer := none } blocks entries :=
    ⟨layout.readable, layout.memory, layout.filled, layout.archived, .idle whole,
      fun _ none_left => (nomatch none_left), fun _ none_left => (nomatch none_left),
      layout.distinct, layout.known⟩
  unfold advance
  dsimp only
  cases task with
  | archiveBatch => exact moved
  | recover keepCount => exact moved.goes_on rfl trivial
  | compact remaining kept =>
    obtain ⟨others, first, more, made, split, count⟩ := holds
    obtain rfl := of_inj made
    have length : (ArchiveBatch.of host sources).entries.length = sources.length :=
      length_map _
    unfold Task.after
    dsimp only
    by_cases nothing : (ArchiveBatch.of host sources).entries.length = 0
    · rw [if_pos nothing]
      exact moved
    · rw [if_neg nothing]
      exact moved.compacting rfl split (by omega)

theorem Layout.count {keepCount : Nat} (layout : Layout host start used w blocks entries)
    (stands : w.files.journal = none) :
    LayoutOf host start used w blocks entries (advance host w.files task (.count keepCount)) := by
  obtain ⟨legacy, done⟩ := layout.readable
  unfold advance
  dsimp only
  rw [done]
  have split := @Layout.compacting host start used w blocks entries (entries.length - keepCount)
    ((entries.drop (entries.length - keepCount)).map HistoryEnvelope.source)
    ((entries.take (entries.length - keepCount)).map HistoryEnvelope.source) [] layout stands
  refine split ?_ ?_
  · rw [append_nil, ← map_append, take_append_drop]
  · rw [length_map, length_take]
    omega

theorem Layout.advance (layout : Layout host start used w blocks entries)
    (unmarked : Unmarked (memoryLines start)) {consumer : Consumer}
    (held : w.consumer = some consumer) :
    ∃ blocks entries, LayoutOf host start used w blocks entries
      (advance host w.files consumer.task consumer.point) := by
  have stands := layout.stands consumer held
  have holds := layout.holds consumer held
  obtain ⟨task, point⟩ := consumer
  cases point with
  | journal limit => exact ⟨blocks, entries, layout.journal holds⟩
  | source limit => exact ⟨blocks, entries, layout.source stands holds⟩
  | record batch => exact ⟨blocks, entries, layout.record stands holds⟩
  | archive batch => exact ⟨blocks, entries, layout.archive stands holds⟩
  | publish batch =>
    obtain ⟨published, kept⟩ := layout.publish unmarked stands holds
    exact ⟨published, entries, kept⟩
  | cursor batch => exact ⟨blocks, entries, layout.cursor stands holds⟩
  | acknowledge batch =>
    obtain ⟨rest, kept⟩ := layout.acknowledge stands holds
    exact ⟨blocks, rest, kept⟩
  | unlink batch => exact ⟨blocks, entries, layout.unlink stands holds⟩
  | count keepCount => exact ⟨blocks, entries, layout.count stands⟩

end Slide.Memory
