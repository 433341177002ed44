import Slide.Memory.Archive

/-!
# Appending, archiving, compacting and clearing

A call of `archiveBatch` or `compact` holds the lock `consume` from its start to its end and does one
file operation after another; a crash or a failing operation ends it between two of them.  What runs
under the lock of the history file is one step, except that an append that first writes the entries
of an older version adds its line in a step of its own; more can happen in between here than the lock
allows.  MEMORY.md is written under the lock `consume` only.
-/

namespace Slide.Memory

open Slide.Display

/-- A journal: its text, and what `JSON.parse` reads from it. -/
structure JournalFile where
  text : String
  value : Option Json

/-- `JSON.stringify(batch)` as a journal. -/
def JournalFile.of (host : Host) (batch : ArchiveBatch) : JournalFile :=
  ⟨host.stringify batch.value, some batch.value⟩

/-- The files below `.slide`, and MEMORY.md.  An archive file is told by the value it holds. -/
structure Files where
  history : List HistoryLine
  journal : Option JournalFile
  archive : String → Option Json
  memory : Option (List String)
  cursor : Option Json

/-- Where a call that holds the lock `consume` stands. -/
inductive Point
  /-- `consume(limit)` reads the journal. -/
  | journal (limit : Nat)
  /-- It reads the oldest entries. -/
  | source (limit : Nat)
  /-- It writes the journal. -/
  | record (batch : ArchiveBatch)
  /-- It writes the archive file. -/
  | archive (batch : ArchiveBatch)
  /-- It publishes to MEMORY.md. -/
  | publish (batch : ArchiveBatch)
  /-- It writes the cursor. -/
  | cursor (batch : ArchiveBatch)
  /-- It takes the sources out of the history. -/
  | acknowledge (batch : ArchiveBatch)
  /-- It removes the journal. -/
  | unlink (batch : ArchiveBatch)
  /-- `compact` takes its high-water mark. -/
  | count (keepCount : Nat)

/-- What a call does behind `consume`. -/
inductive Task
  | archiveBatch
  /-- A compaction recovers an interrupted batch first. -/
  | recover (keepCount : Nat)
  /-- A compaction takes what remains before the entries it found to keep. -/
  | compact (remaining : Nat) (kept : List Source)

structure Consumer where
  task : Task
  point : Point

structure World where
  files : Files
  /-- Appends that have read the history and not added their line yet. -/
  appending : List HistoryEnvelope
  /-- The call that holds the lock `consume`. -/
  consumer : Option Consumer
  /-- The entries that were appended and not cleared since, in their order. -/
  live : List Source

section Consume

variable (host : Host)

/-- `while (remaining > 0) await this.consume(Math.min(50, remaining))`. -/
def compacting (remaining : Nat) (kept : List Source) : Option Consumer :=
  if 0 < remaining then some ⟨.compact remaining kept, .journal (min 50 remaining)⟩ else none

/-- A call goes on behind a `consume` that has taken some sources. -/
def Task.after (consumed : Nat) : Task → Option Consumer
  | .archiveBatch => none
  | .recover keepCount => some ⟨.recover keepCount, .count keepCount⟩
  | .compact remaining kept =>
    if consumed = 0 then none else compacting (remaining - consumed) kept

def Task.goto (task : Task) (point : Point) : Option Consumer := some ⟨task, point⟩

def Files.write (files : Files) (entries : List HistoryEnvelope) : Files :=
  { files with history := entries.map (HistoryEnvelope.line host) }

/-- `hash(row.entry) !== hash(selected.get(row.id))` of a row that is selected. -/
def changed (batch : ArchiveBatch) (row : HistoryEnvelope) : Prop :=
  ∃ item ∈ batch.entries, item.id = row.id ∧ host.hash (.object row.entry) ≠ host.hash item.entry

instance (batch : ArchiveBatch) (row : HistoryEnvelope) : Decidable (changed host batch row) :=
  inferInstanceAs (Decidable (∃ item ∈ batch.entries, _))

/-- `{ version: 1, batchId, lastSourceId }`. -/
def cursorOf (batch : ArchiveBatch) : Json :=
  .object [("version", .number 1), ("batchId", .string batch.id),
    ("lastSourceId", .string ((batch.entries.getLast?.map Item.id).getD ""))]

/-- The next step of a call: the files it leaves, and where the call stands then. -/
def advance (files : Files) (task : Task) : Point → Files × Option Consumer
  | .journal limit =>
    match files.journal with
    | some file =>
      match file.value.bind (readBatch host) with
      | some batch => (files, task.goto (.archive batch))
      | none => (files, none)
    | none => (files, task.goto (.source limit))
  | .source limit =>
    match read host files.history with
    | .error _ => (files, none)
    | .ok (entries, legacy) =>
      let files := if legacy then files.write host entries else files
      let sources := (entries.take (min limit 50)).map HistoryEnvelope.source
      if sources.isEmpty then (files, task.after 0)
      else (files, task.goto (.record (ArchiveBatch.of host sources)))
  | .record batch =>
    ({ files with journal := some (JournalFile.of host batch) }, task.goto (.archive batch))
  | .archive batch =>
    match files.archive batch.id with
    | some existing =>
      if existing ≠ batch.value then (files, none) else (files, task.goto (.publish batch))
    | none =>
      ({ files with archive := Function.update files.archive batch.id (some batch.value) },
        task.goto (.publish batch))
  | .publish batch =>
    ({ files with memory := publishArchive host files.memory batch }, task.goto (.cursor batch))
  | .cursor batch =>
    ({ files with cursor := some (cursorOf batch) }, task.goto (.acknowledge batch))
  | .acknowledge batch =>
    match read host files.history with
    | .error _ => (files, none)
    | .ok (entries, _) =>
      if ∃ row ∈ entries, changed host batch row then (files, none)
      else (files.write host (entries.filter fun row => decide (row.id ∉ batch.entries.map Item.id)),
        task.goto (.unlink batch))
  | .unlink batch => ({ files with journal := none }, task.after batch.entries.length)
  | .count keepCount =>
    match read host files.history with
    | .error _ => (files, none)
    | .ok (entries, _) =>
      let remaining := entries.length - keepCount
      (files, compacting remaining ((entries.drop remaining).map HistoryEnvelope.source))

/-- `if (await readOptional(journal))`. -/
def Files.pending (files : Files) : Prop := ∃ file ∈ files.journal, file.text ≠ ""

instance (files : Files) : Decidable files.pending :=
  match h : files.journal with
  | none => .isFalse (by simp [Files.pending, h])
  | some file => decidable_of_iff (file.text ≠ "") (by simp [Files.pending, h])

end Consume

/-- What `crypto.randomUUID()` returns. -/
abbrev Uuid := { id : String // id ≠ "" }

inductive Event
  /-- `append(entry)` reads the history. -/
  | append (id : Uuid) (entry : Record String Json)
  /-- It adds its line. -/
  | line (i : Nat)
  | clear
  | archiveBatch (limit : Int)
  | compact (keepCount : Int)
  /-- The call that holds the lock `consume` takes its next step. -/
  | advance
  /-- A file operation of that call fails. -/
  | fail
  /-- A file operation of an append fails. -/
  | failAppend (i : Nat)
  /-- The process ends; the next calls are those of another one. -/
  | crash

section Steps

variable (host : Host)

/-- The sources that the history holds. -/
def Files.sources (files : Files) : List Source :=
  match read host files.history with
  | .ok (entries, _) => entries.map HistoryEnvelope.source
  | .error _ => []

def step (w : World) : Event → World
  | .append id entry =>
    match read host w.files.history with
    | .error _ => w
    | .ok (entries, legacy) =>
      { w with
        files := if legacy then w.files.write host entries else w.files
        appending := w.appending ++ [.of id.val id.property entry] }
  | .line i =>
    match w.appending[i]? with
    | none => w
    | some envelope =>
      { w with
        files := { w.files with history := w.files.history ++ [envelope.line host] }
        appending := w.appending.eraseIdx i
        live := w.live ++ [envelope.source] }
  | .clear =>
    match w.consumer with
    | some _ => w
    | none =>
      if w.files.pending then w
      else
        let cleared := (w.files.sources host).map Source.id
        { w with
          files := w.files.write host []
          live := w.live.filter fun source => decide (source.id ∉ cleared) }
  | .archiveBatch limit =>
    match w.consumer with
    | some _ => w
    | none =>
      if limit ≤ 0 then w
      else { w with consumer := some ⟨.archiveBatch, .journal limit.toNat⟩ }
  | .compact keepCount =>
    match w.consumer with
    | some _ => w
    | none =>
      if keepCount < 0 then w
      else if w.files.pending
      then { w with consumer := some ⟨.recover keepCount.toNat, .journal 50⟩ }
      else { w with consumer := some ⟨.recover keepCount.toNat, .count keepCount.toNat⟩ }
  | .advance =>
    match w.consumer with
    | none => w
    | some consumer =>
      let (files, consumer) := advance host w.files consumer.task consumer.point
      { w with files, consumer }
  | .fail => { w with consumer := none }
  | .failAppend i => { w with appending := w.appending.eraseIdx i }
  | .crash => { w with appending := [], consumer := none }

def run (w : World) (events : List Event) : World := events.foldl (step host) w

end Steps

/-- The id that an event makes. -/
def Event.uuid : Event → Option String
  | .append id _ => some id.val
  | _ => none

theorem run_snoc {host : Host} {w : World} {events : List Event} {event : Event} :
    run host w (events ++ [event]) = step host (run host w events) event := by
  unfold run
  rw [List.foldl_append]
  rfl

end Slide.Memory
