import Slide.Investigations.JsonColumn
import Slide.Library.Record

/-!
# The history file of the memory

`memory-history.ts`: `history.jsonl` holds one entry a line, in an envelope with an id.  A line of an
older version is an entry without an envelope; it gets an id from its text and from how many equal
lines stand before it.  A file is the list of its lines that are not blank, each ended by a line feed.
-/

namespace Slide.Memory

open Slide.Display List

/-- What the memory calls of its host. -/
structure Host where
  /-- `sha256(text)`, in hex. -/
  sha256 : String → String
  /-- The text of a number. -/
  numberText : Rat → String

def Host.stringify (host : Host) (value : Json) : String := value.stringify host.numberText

def Host.hash (host : Host) (value : Json) : String := host.sha256 (host.stringify value)

/-- A line: its text, and what `JSON.parse` reads from it. -/
structure HistoryLine where
  text : String
  value : Option Json
  deriving DecidableEq

/-- A `HistoryEnvelope`, with all the keys it has. -/
structure HistoryEnvelope where
  fields : Record String Json
  id : String
  entry : Record String Json
  has_type : fields.get "_type" = some (.string "memory-history-v1")
  has_id : fields.get "id" = some (.string id)
  has_entry : fields.get "entry" = some (.object entry)
  named : id ≠ ""

/-- `{ _type: 'memory-history-v1', id, entry }`. -/
def HistoryEnvelope.of (id : String) (named : id ≠ "") (entry : Record String Json) :
    HistoryEnvelope where
  fields := [("_type", .string "memory-history-v1"), ("id", .string id), ("entry", .object entry)]
  id := id
  entry := entry
  has_type := rfl
  has_id := rfl
  has_entry := rfl
  named := named

/-- The line that an envelope is written as. -/
def HistoryEnvelope.line (host : Host) (envelope : HistoryEnvelope) : HistoryLine :=
  ⟨host.stringify (.object envelope.fields), some (.object envelope.fields)⟩

section Read

variable (host : Host)

/-- The envelope of a value of the current version. -/
def readEnvelope (fields : Record String Json)
    (has_type : fields.get "_type" = some (.string "memory-history-v1")) :
    Except String HistoryEnvelope :=
  match has_id : fields.get "id", has_entry : fields.get "entry" with
  | some (.string id), some (.object entry) =>
    if named : id ≠ "" then .ok ⟨fields, id, entry, has_type, has_id, has_entry, named⟩
    else .error "Invalid memory history envelope"
  | _, _ => .error "Invalid memory history envelope"

theorem legacyId_named (line : String) (occurrence : Nat) :
    "legacy-" ++ host.hash (.array [.string line, .number occurrence]) ≠ "" := by
  intro empty
  have characters := congrArg String.toList empty
  rw [String.toList_append] at characters
  cases characters

/-- The envelope of an entry of an older version. -/
def legacyEnvelope (line : String) (occurrence : Nat) (entry : Record String Json) :
    HistoryEnvelope :=
  .of ("legacy-" ++ host.hash (.array [.string line, .number occurrence]))
    (legacyId_named host line occurrence) entry

/-- The envelope of a line behind equal lines of the older version, and whether it is one too. -/
def readLine (occurrence : Nat) (line : HistoryLine) : Except String (HistoryEnvelope × Bool) :=
  match line.value with
  | none => .error "SyntaxError"
  | some (.object fields) =>
    if has_type : Record.get fields "_type" = some (.string "memory-history-v1")
    then (readEnvelope fields has_type).map fun envelope => (envelope, false)
    else .ok (legacyEnvelope host line.text occurrence fields, true)
  | some _ => .error "Invalid memory history entry"

/-- The loop of `read`: the ids and the older lines before it. -/
def readFrom (seen : List String) (older : List String) :
    List HistoryLine → Except String (List HistoryEnvelope × Bool)
  | [] => .ok ([], false)
  | line :: rest => do
    let (envelope, legacy) ← readLine host (older.count line.text) line
    if envelope.id ∈ seen then .error "Duplicate memory history ID"
    else
      let (entries, later) ← readFrom (envelope.id :: seen)
        (if legacy then line.text :: older else older) rest
      .ok (envelope :: entries, legacy || later)

/-- `read()`: the entries, and whether some line is one of an older version. -/
def read (lines : List HistoryLine) : Except String (List HistoryEnvelope × Bool) :=
  readFrom host [] [] lines

end Read

variable {host : Host} {lines : List HistoryLine} {entries : List HistoryEnvelope}
  {envelope : HistoryEnvelope} {seen older : List String} {legacy : Bool}

/-! ## What is written is read again -/

theorem readEnvelope_fields : readEnvelope envelope.fields envelope.has_type = .ok envelope := by
  obtain ⟨fields, id, entry, has_type, has_id, has_entry, named⟩ := envelope
  dsimp only at *
  unfold readEnvelope
  split
  next id' entry' found found' =>
    rw [has_id] at found
    rw [has_entry] at found'
    cases found
    cases found'
    rw [dif_pos named]
  next other => exact (other id entry has_id has_entry).elim

theorem readLine_line {occurrence : Nat} :
    readLine host occurrence (envelope.line host) = .ok (envelope, false) := by
  unfold readLine HistoryEnvelope.line
  dsimp only
  rw [dif_pos envelope.has_type, readEnvelope_fields]
  rfl

theorem readFrom_cons {line : HistoryLine} {rest : List HistoryLine} :
    readFrom host seen older (line :: rest) = .ok (entries, legacy) ↔
      ∃ envelope old later rest_legacy,
        readLine host (older.count line.text) line = .ok (envelope, old) ∧ envelope.id ∉ seen ∧
          readFrom host (envelope.id :: seen) (if old then line.text :: older else older) rest =
            .ok (later, rest_legacy) ∧
          entries = envelope :: later ∧ legacy = (old || rest_legacy) := by
  constructor
  · intro done
    unfold readFrom at done
    cases first : readLine host (older.count line.text) line with
    | error =>
      rw [first] at done
      cases done
    | ok pair =>
      obtain ⟨envelope, old⟩ := pair
      rw [first] at done
      change (if envelope.id ∈ seen then _ else _) = _ at done
      by_cases known : envelope.id ∈ seen
      · rw [if_pos known] at done
        cases done
      · rw [if_neg known] at done
        cases rest_read : readFrom host (envelope.id :: seen)
          (if old then line.text :: older else older) rest with
        | error =>
          rw [rest_read] at done
          cases done
        | ok pair =>
          rw [rest_read] at done
          cases done
          exact ⟨envelope, old, pair.1, pair.2, rfl, known, rest_read, rfl, rfl⟩
  · rintro ⟨envelope, old, later, rest_legacy, first, new, rest_read, rfl, rfl⟩
    unfold readFrom
    rw [first]
    change (if envelope.id ∈ seen then _ else _) = _
    rw [if_neg new, rest_read]
    rfl

theorem readFrom_nodup (done : readFrom host seen older lines = .ok (entries, legacy)) :
    (entries.map HistoryEnvelope.id).Nodup ∧
      ∀ envelope ∈ entries, envelope.id ∉ seen := by
  induction lines generalizing seen older entries legacy with
  | nil =>
    cases done
    exact ⟨nodup_nil, fun envelope mem => absurd mem not_mem_nil⟩
  | cons line rest ih =>
    obtain ⟨envelope, old, later, rest_legacy, -, new, rest_read, rfl, -⟩ := readFrom_cons.mp done
    obtain ⟨nodup, others⟩ := ih rest_read
    refine ⟨nodup_cons.mpr ⟨fun mem => ?_, nodup⟩, fun e mem => ?_⟩
    · obtain ⟨e, inside, same⟩ := mem_map.mp mem
      exact others e inside (same ▸ mem_cons_self ..)
    · rcases mem_cons.mp mem with rfl | inside
      · exact new
      · exact fun known => others e inside (mem_cons_of_mem _ known)

theorem readFrom_lines (nodup : (entries.map HistoryEnvelope.id).Nodup)
    (new : ∀ envelope ∈ entries, envelope.id ∉ seen) :
    readFrom host seen older (entries.map (HistoryEnvelope.line host)) = .ok (entries, false) := by
  induction entries generalizing seen with
  | nil => rfl
  | cons envelope rest ih =>
    obtain ⟨first, others⟩ := nodup_cons.mp nodup
    refine readFrom_cons.mpr ⟨envelope, false, rest, false, readLine_line,
      new envelope (mem_cons_self ..), ih others fun e mem known => ?_, rfl, rfl⟩
    rcases mem_cons.mp known with same | old
    · exact first (same ▸ mem_map_of_mem mem)
    · exact new e (mem_cons_of_mem _ mem) old

theorem readFrom_snoc (done : readFrom host seen older lines = .ok (entries, legacy))
    (new : envelope.id ∉ seen) (fresh : envelope.id ∉ entries.map HistoryEnvelope.id) :
    readFrom host seen older (lines ++ [envelope.line host]) =
      .ok (entries ++ [envelope], legacy) := by
  induction lines generalizing seen older entries legacy with
  | nil =>
    cases done
    exact readFrom_cons.mpr ⟨envelope, false, [], false, readLine_line, new, rfl, rfl, rfl⟩
  | cons line rest ih =>
    obtain ⟨first, old, later, rest_legacy, read, unseen, rest_read, rfl, rfl⟩ :=
      readFrom_cons.mp done
    obtain ⟨different, fresh⟩ := not_or.mp fun same => fresh (mem_cons.mpr same)
    refine readFrom_cons.mpr ⟨first, old, later ++ [envelope], rest_legacy, read, unseen,
      ih rest_read (fun known => ?_) fresh, rfl, rfl⟩
    rcases mem_cons.mp known with same | known
    · exact different same
    · exact new known

theorem read_nodup (done : read host lines = .ok (entries, legacy)) :
    (entries.map HistoryEnvelope.id).Nodup :=
  (readFrom_nodup done).1

theorem read_lines (nodup : (entries.map HistoryEnvelope.id).Nodup) :
    read host (entries.map (HistoryEnvelope.line host)) = .ok (entries, false) :=
  readFrom_lines nodup fun _ _ => not_mem_nil

theorem read_snoc (done : read host lines = .ok (entries, legacy))
    (fresh : envelope.id ∉ entries.map HistoryEnvelope.id) :
    read host (lines ++ [envelope.line host]) = .ok (entries ++ [envelope], legacy) :=
  readFrom_snoc done not_mem_nil fresh

end Slide.Memory
