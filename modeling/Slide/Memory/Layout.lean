import Slide.Memory.Consolidation

/-!
# How the entries lie in the files

At any time MEMORY.md holds the batches that were published, and the history the entries behind them.
While a journal is there, its batch may be in both (`Moving`); a call that holds the lock `consume`
knows how far it has brought the batch (`Stands`), and a compaction that the entries it found to keep
are still behind what it takes (`Holds`).
-/

namespace Slide.Memory

open Slide.Display List

/-- The journal of some sources. -/
def journalOf (host : Host) (sources : List Source) : JournalFile :=
  JournalFile.of host (ArchiveBatch.of host sources)

/-- How the published batches, the rows of the history and the journal make up the live entries. -/
inductive Moving (host : Host) (blocks : List (List Source)) (rows live : List Source) :
    Option JournalFile → Prop
  | idle (whole : live = blocks.flatten ++ rows) : Moving host blocks rows live none
  /-- The batch of the journal is in the history only. -/
  | taken (sources rest : List Source) (filled : sources ≠ []) (oldest : rows = sources ++ rest)
      (whole : live = blocks.flatten ++ rows) :
      Moving host blocks rows live (some (journalOf host sources))
  /-- It is in MEMORY.md as well. -/
  | published (before : List (List Source)) (sources rest : List Source) (filled : sources ≠ [])
      (last : blocks = before ++ [sources]) (oldest : rows = sources ++ rest)
      (whole : live = blocks.flatten ++ rest) :
      Moving host blocks rows live (some (journalOf host sources))
  /-- It is in MEMORY.md only. -/
  | acknowledged (before : List (List Source)) (sources : List Source) (filled : sources ≠ [])
      (last : blocks = before ++ [sources]) (whole : live = blocks.flatten ++ rows) :
      Moving host blocks rows live (some (journalOf host sources))

/-- What a call knows where it stands. -/
def Stands (host : Host) (files : Files) (blocks : List (List Source)) (rows live : List Source) :
    Point → Prop
  | .journal _ => True
  | .source _ => files.journal = none
  | .count _ => files.journal = none
  | .record batch => files.journal = none ∧ ∃ sources rest, sources ≠ [] ∧
      batch = ArchiveBatch.of host sources ∧ rows = sources ++ rest
  | .archive batch => ∃ sources, batch = ArchiveBatch.of host sources ∧
      files.journal = some (journalOf host sources)
  | .publish batch => ∃ sources, batch = ArchiveBatch.of host sources ∧
      files.journal = some (journalOf host sources) ∧
      files.archive batch.id = some batch.value
  | .cursor batch => ∃ sources, batch = ArchiveBatch.of host sources ∧
      files.journal = some (journalOf host sources) ∧ ∃ before, blocks = before ++ [sources]
  | .acknowledge batch => ∃ sources, batch = ArchiveBatch.of host sources ∧
      files.journal = some (journalOf host sources) ∧ ∃ before, blocks = before ++ [sources]
  | .unlink batch => ∃ sources, batch = ArchiveBatch.of host sources ∧
      files.journal = some (journalOf host sources) ∧ (∃ before, blocks = before ++ [sources]) ∧
      live = blocks.flatten ++ rows

/-- The batch that a call is moving, until it is out of the history. -/
def Point.batch : Point → Option ArchiveBatch
  | .record batch | .archive batch | .publish batch | .cursor batch | .acknowledge batch =>
    some batch
  | _ => none

/-- What a compaction leaves: the entries it found to keep stand behind the remaining ones. -/
def Holds (host : Host) (files : Files) (rows : List Source) : Task → Point → Prop
  | .compact remaining kept, .journal limit => files.journal = none ∧ limit ≤ remaining ∧
      ∃ first more, rows = first ++ kept ++ more ∧ first.length = remaining
  | .compact remaining kept, .source limit => limit ≤ remaining ∧
      ∃ first more, rows = first ++ kept ++ more ∧ first.length = remaining
  | .compact remaining kept, .unlink batch => ∃ sources first more,
      batch = ArchiveBatch.of host sources ∧ rows = first ++ kept ++ more ∧
        sources.length + first.length = remaining
  | .compact _ _, .count _ => False
  | .compact remaining kept, point => ∀ batch, point.batch = some batch →
      ∃ sources first more, batch = ArchiveBatch.of host sources ∧
        rows = sources ++ first ++ kept ++ more ∧ sources.length + first.length = remaining
  | _, _ => True

structure Layout (host : Host) (start : Option (List String)) (used : List String) (w : World)
    (blocks : List (List Source)) (entries : List HistoryEnvelope) : Prop where
  readable : ∃ legacy, read host w.files.history = .ok (entries, legacy)
  memory : w.files.memory = memoryOf host start blocks
  filled : ∀ block ∈ blocks, block ≠ []
  archived : ∀ block ∈ blocks,
    w.files.archive (ArchiveBatch.of host block).id = some (ArchiveBatch.of host block).value
  moving : Moving host blocks (entries.map HistoryEnvelope.source) w.live w.files.journal
  stands : ∀ consumer ∈ w.consumer, Stands host w.files blocks
    (entries.map HistoryEnvelope.source) w.live consumer.point
  holds : ∀ consumer ∈ w.consumer, Holds host w.files (entries.map HistoryEnvelope.source)
    consumer.task consumer.point
  distinct : (w.live.map Source.id ++ w.appending.map HistoryEnvelope.id).Nodup
  known : ∀ id ∈ w.live.map Source.id ++ w.appending.map HistoryEnvelope.id, id ∈ used

variable {host : Host} {start : Option (List String)} {used : List String} {w : World}
  {blocks : List (List Source)} {entries : List HistoryEnvelope} {files : Files}
  {rows live sources others added : List Source} {journal : Option JournalFile} {task : Task}
  {point : Point} {source : Source}

/-! ## Facts about the parts -/

theorem journalOf_inj (same : journalOf host sources = journalOf host others) :
    sources = others := by
  unfold journalOf JournalFile.of at same
  injection same with _ value
  exact ArchiveBatch.of_inj (some.inj value)

theorem journalOf_text : (journalOf host sources).text ≠ "" := by
  intro empty
  have characters := congrArg String.toList empty
  unfold journalOf JournalFile.of ArchiveBatch.of Host.stringify Json.stringify at characters
  rw [String.toList_append, String.toList_append] at characters
  cases characters

theorem of_inj (same : ArchiveBatch.of host sources = ArchiveBatch.of host others) :
    sources = others :=
  ArchiveBatch.of_inj (congrArg ArchiveBatch.value same)

theorem Moving.published_first (moving : Moving host blocks rows live journal) :
    ∃ rest, live = blocks.flatten ++ rest := by
  cases moving with
  | idle whole => exact ⟨_, whole⟩
  | taken sources rest filled oldest whole => exact ⟨_, whole⟩
  | published before sources rest filled last oldest whole => exact ⟨_, whole⟩
  | acknowledged before sources filled last whole => exact ⟨_, whole⟩

theorem Moving.live_of_mem (moving : Moving host blocks rows live journal) :
    (∀ source ∈ rows, source ∈ live) ∧ ∀ source ∈ blocks.flatten, source ∈ live := by
  cases moving with
  | idle whole =>
    rw [whole]
    exact ⟨fun _ => mem_append_right _, fun _ => mem_append_left _⟩
  | taken sources rest filled oldest whole =>
    rw [whole]
    exact ⟨fun _ => mem_append_right _, fun _ => mem_append_left _⟩
  | published before sources rest filled last oldest whole =>
    rw [whole, oldest]
    refine ⟨fun source mem => ?_, fun _ => mem_append_left _⟩
    rcases mem_append.mp mem with moved | mem
    · refine mem_append_left _ (mem_flatten.mpr ⟨sources, ?_, moved⟩)
      exact last ▸ mem_append_right _ (mem_singleton_self sources)
    · exact mem_append_right _ mem
  | acknowledged before sources filled last whole =>
    rw [whole]
    exact ⟨fun _ => mem_append_right _, fun _ => mem_append_left _⟩

theorem Moving.mem_of_live (moving : Moving host blocks rows live journal) (mem : source ∈ live) :
    source ∈ rows ∨ source ∈ blocks.flatten := by
  cases moving with
  | idle whole =>
    rw [whole] at mem
    exact (mem_append.mp mem).symm
  | taken sources rest filled oldest whole =>
    rw [whole] at mem
    exact (mem_append.mp mem).symm
  | published before sources rest filled last oldest whole =>
    rw [whole] at mem
    rcases mem_append.mp mem with published | later
    · exact .inr published
    · exact .inl (oldest ▸ mem_append_right _ later)
  | acknowledged before sources filled last whole =>
    rw [whole] at mem
    exact (mem_append.mp mem).symm

theorem Moving.apart (moving : Moving host blocks rows live journal)
    (nodup : (live.map Source.id).Nodup)
    (unmoved : ∀ sources, journal = some (journalOf host sources) →
      source.id ∉ sources.map Source.id) :
    source ∈ rows → source ∉ blocks.flatten := by
  intro row published
  have once {rest : List Source} (whole : live = blocks.flatten ++ rest) (mem : source ∈ rest) :
      False := by
    rw [whole, map_append, nodup_append] at nodup
    exact nodup.2.2 _ (mem_map_of_mem published) _ (mem_map_of_mem mem) rfl
  cases moving with
  | idle whole => exact once whole row
  | taken sources rest filled oldest whole => exact once whole row
  | published before sources rest filled last oldest whole =>
    rw [oldest] at row
    rcases mem_append.mp row with moved | later
    · exact unmoved sources rfl (mem_map_of_mem moved)
    · exact once whole later
  | acknowledged before sources filled last whole => exact once whole row

theorem Moving.snoc (moving : Moving host blocks rows live journal) :
    Moving host blocks (rows ++ [source]) (live ++ [source]) journal := by
  cases moving with
  | idle whole =>
    refine .idle ?_
    rw [whole, append_assoc]
  | taken sources rest filled oldest whole =>
    refine .taken sources (rest ++ [source]) filled ?_ ?_
    · rw [oldest, append_assoc]
    · rw [whole, append_assoc]
  | published before sources rest filled last oldest whole =>
    refine .published before sources (rest ++ [source]) filled last ?_ ?_
    · rw [oldest, append_assoc]
    · rw [whole, append_assoc]
  | acknowledged before sources filled last whole =>
    refine .acknowledged before sources filled last ?_
    rw [whole, append_assoc]

theorem Stands.snoc {files' : Files} (same_journal : files'.journal = files.journal)
    (same_archive : files'.archive = files.archive)
    (stands : Stands host files blocks rows live point) :
    Stands host files' blocks (rows ++ [source]) (live ++ [source]) point := by
  cases point with
  | journal => trivial
  | source | count => exact same_journal.trans stands
  | record batch =>
    obtain ⟨none_yet, sources, rest, filled, made, oldest⟩ := stands
    refine ⟨same_journal.trans none_yet, sources, rest ++ [source], filled, made, ?_⟩
    rw [oldest, append_assoc]
  | archive batch =>
    obtain ⟨sources, made, held⟩ := stands
    exact ⟨sources, made, same_journal.trans held⟩
  | publish batch =>
    obtain ⟨sources, made, held, archived⟩ := stands
    exact ⟨sources, made, same_journal.trans held, same_archive ▸ archived⟩
  | cursor batch =>
    obtain ⟨sources, made, held, last⟩ := stands
    exact ⟨sources, made, same_journal.trans held, last⟩
  | acknowledge batch =>
    obtain ⟨sources, made, held, last⟩ := stands
    exact ⟨sources, made, same_journal.trans held, last⟩
  | unlink batch =>
    obtain ⟨sources, made, held, last, whole⟩ := stands
    refine ⟨sources, made, same_journal.trans held, last, ?_⟩
    rw [whole, append_assoc]

theorem Holds.snoc {files' : Files} (same_journal : files'.journal = files.journal)
    (holds : Holds host files rows task point) :
    Holds host files' (rows ++ [source]) task point := by
  cases task with
  | archiveBatch | recover => cases point <;> trivial
  | compact remaining kept =>
    have moving (holds : ∀ batch, point.batch = some batch → ∃ sources first more,
          batch = ArchiveBatch.of host sources ∧ rows = sources ++ first ++ kept ++ more ∧
            sources.length + first.length = remaining) :
        ∀ batch, point.batch = some batch → ∃ sources first more,
          batch = ArchiveBatch.of host sources ∧
            rows ++ [source] = sources ++ first ++ kept ++ more ∧
              sources.length + first.length = remaining := by
      intro batch moves
      obtain ⟨sources, first, more, made, split, count⟩ := holds batch moves
      refine ⟨sources, first, more ++ [source], made, ?_, count⟩
      rw [split, append_assoc]
    cases point with
    | journal limit =>
      obtain ⟨none_yet, limited, first, more, split, count⟩ := holds
      refine ⟨same_journal.trans none_yet, limited, first, more ++ [source], ?_, count⟩
      rw [split, append_assoc]
    | source limit =>
      obtain ⟨limited, first, more, split, count⟩ := holds
      refine ⟨limited, first, more ++ [source], ?_, count⟩
      rw [split, append_assoc]
    | unlink batch =>
      obtain ⟨sources, first, more, made, split, count⟩ := holds
      refine ⟨sources, first, more ++ [source], made, ?_, count⟩
      rw [split, append_assoc]
    | count => exact holds
    | _ => exact moving holds

end Slide.Memory
