import Mathlib.Logic.Function.Basic

/-!
# Transactions of the structured memory

`StructuredMemoryStore.transaction` reads the file of the memory, lets an action change what it has read
and renames a new file over it, while it holds a lock file.  A lock file whose owner is dead is taken
over under a second file, the guard.  Each step below is one operation on the files.
-/

namespace Slide.Memory

/-- `{ pid, host, token }`. -/
structure LockOwner where
  pid : Int
  host : String
  token : Nat

/-- `ownerAlive`, over what `process.kill(pid, 0)` finds. -/
def ownerAlive (hostname : String) (running : Int → Bool) : Option LockOwner → Bool
  | none => false
  | some owner =>
    if owner.host ≠ hostname ∨ owner.pid.natAbs > 9007199254740991 ∨ owner.pid ≤ 0 then true
    else running owner.pid

/-- The lock file: who created it, for which transaction, and what has been written to it. -/
structure LockFile where
  (process tx : Nat)
  content : Option LockOwner

/-- Where a transaction of a process stands. -/
inductive Phase (σ : Type)
  | idle
  /-- `fs.open(lock, 'wx')`. -/
  | opening
  /-- `fs.open(lock + '.reclaim', 'wx')`. -/
  | guarding
  /-- `fs.readFile(lock)`. -/
  | reading
  /-- `ownerAlive(old)`. -/
  | testing (old : LockOwner)
  /-- `fs.unlink(lock)` of a dead owner. -/
  | unlinking
  | reopening
  /-- The end of the guard, with the lock or without it. -/
  | unguarding (held : Bool)
  /-- `handle.writeFile(JSON.stringify(owner))`. -/
  | writing
  /-- `readSnapshot()`. -/
  | loading
  | acting (state : σ)
  /-- The temporary file is written and synced. -/
  | storing (state : σ)
  /-- `fsp.rename(temporary, file)`. -/
  | publishing (state : σ)
  | published
  /-- The end of the transaction, with a result or with an error. -/
  | releasing (done : Bool)

/-- A process works on one transaction; `withMemoryLock` makes the others wait in their order. -/
structure Process (σ : Type) where
  alive : Bool
  phase : Phase σ
  tx : Nat
  waiting : List Nat

/-- What the store takes from its surroundings: the host, and how it reads a file. -/
structure StoreHost (σ : Type) where
  hostname : String
  /-- The state of a file that is missing. -/
  empty : σ
  /-- `schemaVersion` and the arrays are there. -/
  valid : σ → Bool

/-- The files, the processes, the transactions that were called with their processes and actions, what
was renamed in its order, which transactions returned, and what readers got. -/
structure StoreWorld (σ : Type) where
  file : Option σ
  lock : Option LockFile
  guard : Option Nat
  processes : Nat → Process σ
  calls : List (Nat × (σ → Option σ))
  commits : List (Nat × σ)
  returned : List Nat
  snapshots : List σ

def StoreWorld.start {σ : Type} (file : Option σ) : StoreWorld σ :=
  ⟨file, none, none, fun _ => ⟨true, .idle, 0, []⟩, [], [], [], []⟩

/-- The process id of a process. -/
def pid (p : Nat) : Int := p + 1

section Steps

variable {σ : Type}

namespace StoreWorld

/-- `process.kill(pid, 0)`. -/
def running (w : StoreWorld σ) (id : Int) : Bool := 0 < id && (w.processes (id - 1).toNat).alive

/-- What `readSnapshot` would read. -/
def current (host : StoreHost σ) (w : StoreWorld σ) : σ := w.file.getD host.empty

def goto (w : StoreWorld σ) (p : Nat) (phase : Phase σ) : StoreWorld σ :=
  { w with processes := Function.update w.processes p { w.processes p with phase } }

/-- The transaction of a process ends; `withMemoryLock` lets the next one in. -/
def finish (w : StoreWorld σ) (p : Nat) (done : Bool) : StoreWorld σ :=
  { w.goto p .idle with
    returned := if done then w.returned ++ [(w.processes p).tx] else w.returned }

/-- The next operation of a process that lives, where the file system does what it is asked. -/
def advance (host : StoreHost σ) (w : StoreWorld σ) (p : Nat) : StoreWorld σ :=
  let process := w.processes p
  match process.phase with
  | .idle =>
    match process.waiting with
    | tx :: waiting =>
      { w with
        processes := Function.update w.processes p { process with phase := .opening, tx, waiting } }
    | [] => w
  | .opening =>
    if w.lock = none then { w.goto p .writing with lock := some ⟨p, process.tx, none⟩ }
    else w.goto p .guarding
  | .guarding =>
    if w.guard = none then { w.goto p .reading with guard := some p } else w.finish p false
  | .reading =>
    match w.lock.bind LockFile.content with
    | some old => w.goto p (.testing old)
    | none => w.goto p (.unguarding false)
  | .testing old =>
    if ownerAlive host.hostname w.running (some old) then w.goto p (.unguarding false)
    else w.goto p .unlinking
  | .unlinking =>
    if w.lock = none then w.goto p (.unguarding false)
    else { w.goto p .reopening with lock := none }
  | .reopening =>
    if w.lock = none then
      { w.goto p (.unguarding true) with lock := some ⟨p, process.tx, none⟩ }
    else w.goto p (.unguarding false)
  | .unguarding held =>
    if held then { w.goto p .writing with guard := none }
    else { w.finish p false with guard := none }
  | .writing =>
    -- the handle writes to the file that it has created
    { w.goto p .loading with
      lock := w.lock.map fun file =>
        if file.tx = process.tx then
          { file with content := some ⟨pid p, host.hostname, process.tx⟩ } else file }
  | .loading =>
    if host.valid (w.current host) then w.goto p (.acting (w.current host))
    else w.goto p (.releasing false)
  | .acting state =>
    match w.calls[process.tx]?.bind fun call => call.2 state with
    | some changed => w.goto p (.storing changed)
    | none => w.goto p (.releasing false)
  | .storing state => w.goto p (.publishing state)
  | .publishing state =>
    { w.goto p .published with
      file := some state
      commits := w.commits ++ [(process.tx, state)] }
  | .published => w.goto p (.releasing true)
  | .releasing done =>
    if w.lock = none then w.finish p false else { w.finish p done with lock := none }

/-- The operation fails, and the error takes the transaction to its next `finally`. -/
def fail (w : StoreWorld σ) (p : Nat) : StoreWorld σ :=
  match (w.processes p).phase with
  | .idle => w
  | .opening | .guarding | .unguarding _ | .releasing _ => w.finish p false
  | .reading | .testing _ | .unlinking | .reopening => w.goto p (.unguarding false)
  | .writing | .loading | .acting _ | .storing _ | .publishing _ | .published =>
    w.goto p (.releasing false)

end StoreWorld

/-- A process calls `transaction`, does its next operation, fails at it or dies; a reader reads. -/
inductive StoreEvent (σ : Type)
  | call (p : Nat) (action : σ → Option σ)
  | step (p : Nat)
  | fail (p : Nat)
  | die (p : Nat)
  | snapshot

def StoreWorld.step (host : StoreHost σ) (w : StoreWorld σ) : StoreEvent σ → StoreWorld σ
  | .call p action =>
    if (w.processes p).alive then
      { w with
        calls := w.calls ++ [(p, action)]
        processes := Function.update w.processes p
          { w.processes p with waiting := (w.processes p).waiting ++ [w.calls.length] } }
    else w
  | .step p => if (w.processes p).alive then w.advance host p else w
  | .fail p => if (w.processes p).alive then w.fail p else w
  | .die p =>
    { w with
      processes := Function.update w.processes p { w.processes p with alive := false } }
  | .snapshot =>
    if host.valid (w.current host) then
      { w with snapshots := w.snapshots ++ [w.current host] }
    else w

def runStore (host : StoreHost σ) (w : StoreWorld σ) (events : List (StoreEvent σ)) : StoreWorld σ :=
  events.foldl (StoreWorld.step host) w

end Steps

end Slide.Memory
