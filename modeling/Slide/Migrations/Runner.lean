import Slide.Library.JsString
import Slide.Library.Table

/-!
# The migration runner

`MigrationRunner.run` and `acknowledgeExternallyRepairedMigration` over the ledger, one query at a time.
The advisory lock leaves one process in `runLocked`; any query of it may fail, or take effect without its
process learning of it, and the process may stop between two of them.
-/

namespace Slide.Migrations

/-! ## Files -/

structure SqlMigration where
  (id sql checksum : String)
deriving DecidableEq

def isDigit (c : Char) : Bool := '0' ≤ c && c ≤ '9'

/-- `/^\d+_.+\.sql$/`. -/
def isMigrationFile (name : String) : Bool :=
  let rest := name.toList.dropWhile isDigit
  name.toList.head?.any isDigit && rest.head? = some '_' && rest.length > 5 &&
    rest.reverse.take 4 = ".sql".toList.reverse && !name.toList.contains '\n'

/-- The files of the migrations directory, whose names differ. -/
structure Directory where
  files : List SqlMigration
  nodup : (files.map (·.id)).Nodup

def Directory.loadMigrations (d : Directory) : List SqlMigration :=
  (d.files.filter (isMigrationFile ·.id)).insertionSort fun a b => JsString.le a.id b.id

def snapshotId : String := "000_schema_baseline.sql"

theorem Directory.eq_of_id {d : Directory} {m m' : SqlMigration} (mem : m ∈ d.loadMigrations)
    (mem' : m' ∈ d.loadMigrations) (same : m.id = m'.id) : m = m' := by
  have of_file : ∀ e ∈ d.loadMigrations, e ∈ d.files := fun e inside =>
    (List.mem_filter.mp ((List.mem_insertionSort _).mp inside)).1
  exact List.inj_on_of_nodup_map d.nodup (of_file m mem) (of_file m' mem') same

/-- `<` of two ids. -/
def before (a b : String) : Bool := JsString.le a b && a ≠ b

def coveredBySnapshot (id : String) : Bool :=
  before snapshotId id &&
    ((before id "009_" && !id.startsWith "007_") ||
      (JsString.le "011_" id && before id "017_" && id ≠ "015_add_output_schema.sql") ||
      id.startsWith "018_")

/-- `LEGACY_MIGRATION_CHECKSUMS`: an id, a recorded checksum and the current one. -/
def legacyMigrationChecksums : List (String × String × String) :=
  [("000_schema_baseline.sql",
      "ba0ea57599e766dc9c9605746cdd9fa221cc05464fe45ed640b33a668fbcbbb8",
      "729ec2cce91657443417503a6cf0a1852cb6002885fc6f9f9af5755560cdc2b9"),
    ("071_v010_infrastructure_assistant.sql",
      "2a070214f68fbc1fd760d1708b3b39d5376d226495a0df5d77c32fb96fd4763f",
      "a5e7b11e17674530e818fb21aa626236153065bf7ce66a4af609314bb7aa923c"),
    ("067_device_registrations.sql",
      "94403810bcae74f546a719b6d2f062e1699c18440e2ad76a5c787fa3f2c10ebb",
      "b53a8b888ad3842cecd10a42df37d579769d615f3894fad107d04a5fec2da84d"),
    ("070_network_device_resource_foundation.sql",
      "b8e1da4a29ff2a47b0703ab4d95746e41812b4bf4d5f46ca293292f816c10583",
      "5ca1ec5c8f2c2d40a09cb5e5375eb4ab98851dc7a30eefef077011091ae4cc1b"),
    ("072_agent_execution_controls.sql",
      "ddedfc2c11ce30af437a40867959a5e3dfc966e04bddae5ea3b4c2eaeab2335c",
      "8ff16ebc799d13c22cde6c44a645bbf4702c1af708d66bd1aa37be40f04f517f")]

def isMigrationChecksumAccepted (migrationId recordedChecksum currentChecksum : String) : Bool :=
  recordedChecksum = currentChecksum ||
    legacyMigrationChecksums.contains (migrationId, recordedChecksum, currentChecksum)

/-! ## Ledger -/

inductive Status
  | running | completed | failed | baselined
deriving DecidableEq

structure LedgerEntry where
  checksum : String
  status : Status
  statementIndex : Option Nat
  error : Option String

/-- `app_schema_migrations`, by `migration_id`. -/
abbrev Ledger := Table String LedgerEntry

/-- An insert, which the primary key may refuse. -/
def Ledger.insert (ledger : Ledger) (id : String) (row : LedgerEntry) : Option Ledger :=
  if (ledger.get id).isSome then none else some (ledger.put id row)

def Ledger.update (ledger : Ledger) (id : String) (f : LedgerEntry → LedgerEntry) : Ledger :=
  (ledger.updateWhere id (fun _ => true) f).1

def LedgerEntry.complete (e : LedgerEntry) : LedgerEntry :=
  { e with status := .completed, statementIndex := none, error := none }

def LedgerEntry.fail (index : Nat) (message : String) (e : LedgerEntry) : LedgerEntry :=
  { e with status := .failed, statementIndex := some index, error := some message }

/-- `continue` in `runLocked`. -/
def LedgerEntry.settled (e : LedgerEntry) : Bool := e.status = .completed || e.status = .baselined

/-! ## Steps -/

/-- Where the process that holds the lock stands. -/
inductive Phase
  | counting
  /-- The loop of `runLocked`: the ledger row of the next migration is to be read, or inserted. -/
  | scanning (rest : List SqlMigration)
  | inserting (m : SqlMigration) (rest : List SqlMigration)
  /-- `apply`, at a statement. -/
  | applying (m : SqlMigration) (index : Nat) (rest : List SqlMigration)
  /-- Its `catch`, after a failure at a statement. -/
  | failing (m : SqlMigration) (index : Nat)
  /-- `recordSnapshotCoverage`, with what is still to be recorded. -/
  | covering (left rest : List SqlMigration)

/-- How a query ends: with its effect, with an error, or with its effect and a process that is gone. -/
inductive Answer
  | ok | error | gone
deriving DecidableEq

/-- What has happened so far. -/
inductive Entry
  | begun (id : String)
  | executed (id : String) (index : Nat) (answer : Answer)
  /-- A run has ended inside a migration. -/
  | ended (id : String)
  | acknowledged (id : String)
  /-- A run has ended after its snapshot, before the coverage was recorded. -/
  | uncovered
deriving DecidableEq

structure World where
  ledger : Ledger
  holder : Option Phase
  log : List Entry

/-- The statements of a migration that are executed, and the ledger's text of an error. -/
structure Host where
  statements : SqlMigration → List String
  message : SqlMigration → Nat → String

variable (host : Host) (directory : Directory)

variable (w : World) (m : SqlMigration)

namespace World

def goto (phase : Phase) : World := { w with holder := some phase }

/-- The session is closed, which frees the lock. -/
def leave : World := { w with holder := none }

def note (entry : Entry) : World := { w with log := w.log ++ [entry] }

/-- The process that stands here is gone. -/
def quit : Phase → World
  | .applying m _ _ => w.leave.note (.ended m.id)
  | .failing m _ => w.leave.note (.ended m.id)
  | .covering (_ :: _) _ => w.leave.note .uncovered
  | _ => w.leave

/-- A query has had its effect, and its process is in the next phase or gone. -/
def settle (answer : Answer) (phase : Phase) : World :=
  if answer = .gone then w.quit phase else w.goto phase

/-- The migrations that a snapshot covers. -/
def coverage (directory : Directory) : List SqlMigration :=
  directory.loadMigrations.filter (coveredBySnapshot ·.id)

/-- What follows a completed migration. -/
def next (rest : List SqlMigration) : Phase :=
  if m.id = snapshotId then .covering (coverage directory) rest else .scanning rest

/-- `runLocked` at a migration whose row is read. -/
def scan (rest : List SqlMigration) : World :=
  match w.ledger.get m.id with
  | none => w.goto (.inserting m rest)
  | some recorded =>
    if isMigrationChecksumAccepted m.id recorded.checksum m.checksum = false then w.leave
    else if recorded.settled then w.goto (.scanning rest)
    else w.leave

/-- The insert of a `running` row. -/
def begin_ (rest : List SqlMigration) (answer : Answer) : World :=
  match w.ledger.insert m.id ⟨m.checksum, .running, none, none⟩ with
  | none => w.leave
  | some ledger =>
    if answer = .error then w.leave
    else { w.note (.begun m.id) with ledger }.settle answer (.applying m 0 rest)

/-- A statement of a migration. -/
def execute (index : Nat) (rest : List SqlMigration) (answer : Answer) : World :=
  (w.note (.executed m.id index answer)).settle answer
    (if answer = .error then .failing m index else .applying m (index + 1) rest)

/-- The update of a row to `completed`. -/
def complete (index : Nat) (rest : List SqlMigration) (answer : Answer) : World :=
  if answer = .error then w.goto (.failing m index)
  else { w with ledger := w.ledger.update m.id (·.complete) }.settle answer (next directory m rest)

/-- The `catch` of `apply`: its rollback, its update and its commit. -/
def fail (index : Nat) (answer : Answer) : World :=
  if answer = .error then w.quit (.failing m index)
  else { w with ledger := w.ledger.update m.id (.fail index (host.message m index)) }.quit (.failing m index)

/-- One row of `recordSnapshotCoverage`. -/
def cover (c : SqlMigration) (left rest : List SqlMigration) (answer : Answer) : World :=
  match w.ledger.insert c.id ⟨c.checksum, .baselined, none, some "covered by 000_schema_baseline.sql"⟩ with
  | none => w.quit (.covering (c :: left) rest)
  | some ledger =>
    if answer = .error then w.quit (.covering (c :: left) rest)
    else { w with ledger }.settle answer (.covering left rest)

/-- The next query of the process that holds the lock; `users` when that table exists. -/
def advance (phase : Phase) (users : Bool) (answer : Answer) : World :=
  match phase with
  | .counting =>
    if answer ≠ .ok ∨ (w.ledger.toList = [] ∧ users = true) then w.leave
    else w.goto (.scanning directory.loadMigrations)
  | .scanning [] => w.leave
  | .scanning (m :: rest) => if answer = .ok then w.scan m rest else w.leave
  | .inserting m rest => w.begin_ m rest answer
  | .applying m index rest =>
    if index < (host.statements m).length then w.execute m index rest answer
    else w.complete directory m index rest answer
  | .failing m index => w.fail host m index answer
  | .covering [] rest => w.goto (.scanning rest)
  | .covering (c :: left) rest => w.cover c left rest answer

/-- The update of `acknowledgeExternallyRepairedMigration`, when its verification has passed. -/
def acknowledge (audit : String) (verified : String → Bool) : World :=
  match w.ledger.get m.id with
  | none => w
  | some recorded =>
    if recorded.status = .failed ∧ isMigrationChecksumAccepted m.id recorded.checksum m.checksum = true ∧
        verified recorded.checksum = true then
      { w.note (.acknowledged m.id) with
        ledger := w.ledger.update m.id fun e => { e with status := .completed, error := some audit } }
    else w

end World

inductive Event
  /-- A process takes the lock. -/
  | start
  /-- The next query of the process that has it. -/
  | query (users : Bool) (answer : Answer)
  /-- That process stops. -/
  | stop
  /-- An operator acknowledges a repair; `verified` of the recorded checksum. -/
  | acknowledge (id audit : String) (verified : String → Bool)

/-- One step; an event out of place changes nothing. -/
def World.step : Event → World
  | .start =>
    match w.holder with
    | none => w.goto .counting
    | some _ => w
  | .query users answer =>
    match w.holder with
    | none => w
    | some phase => w.advance host directory phase users answer
  | .stop =>
    match w.holder with
    | none => w
    | some phase => w.quit phase
  | .acknowledge id audit verified =>
    match w.holder, directory.loadMigrations.find? (·.id = id) with
    | none, some m => w.acknowledge m audit verified
    | _, _ => w

/-- The world after any events, from an empty database. -/
def reached (events : List Event) : World := events.foldl (World.step host directory) ⟨Table.empty, none, []⟩

end Slide.Migrations
