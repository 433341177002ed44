import Slide.Library.Guarded
import Slide.Library.Log
import Slide.Memory.RecordStore

/-!
# What the lock file protects

A process that lives and stands between the creation of the lock file and its removal finds the file as
its own, so the state that it has read is the current one until it renames.  This rests on the test of a
reclaimer: whoever it finds dead still has the lock file there.  A process that has given the lock file up
and dies between the reading of a reclaimer and its test breaks it.
-/

namespace Slide.Memory

open Guarded List

variable {σ : Type} {host : StoreHost σ} {w w' : StoreWorld σ} {p q : Nat} {start : σ}
  {phase phase' : Phase σ}

/-- No process dies without the lock file being its own while its guard's holder is about to test it. -/
def StoreEvent.Meets (w : StoreWorld σ) : StoreEvent σ → Prop
  | .die p => ∀ q ∈ w.guard, (w.processes q).alive = true →
    match (w.processes q).phase with
    | .testing old => old.pid = pid p → w.lock.map LockFile.process = some p
    | _ => True
  | _ => True

/-! ## Processes -/

/-- Between the creation of the lock file and its removal. -/
def Phase.Holds : Phase σ → Prop
  | .unguarding held => held = true
  | .writing | .loading | .acting _ | .storing _ | .publishing _ | .published | .releasing _ => True
  | _ => False

/-- The transaction can still rename. -/
def Phase.Open : Phase σ → Prop
  | .idle | .published | .releasing _ => False
  | _ => True

instance : DecidablePred (Phase.Open (σ := σ)) := fun phase => by
  cases phase <;> unfold Phase.Open <;> infer_instance

theorem running_pid : w.running (pid p) = (w.processes p).alive := by
  unfold StoreWorld.running pid
  have positive : (0 : Int) < p + 1 := by omega
  have back : ((p : Int) + 1 - 1).toNat = p := by omega
  rw [decide_eq_true positive, Bool.true_and, back]

theorem dead_of_ownerAlive {old : LockOwner} (of_pid : old.pid = pid p)
    (dead : ownerAlive host.hostname w.running (some old) = false) :
    (w.processes p).alive = false := by
  unfold ownerAlive at dead
  dsimp only at dead
  split at dead
  · cases dead
  · rwa [of_pid, running_pid] at dead

/-- The process has the lock file. -/
def Has (w : StoreWorld σ) (p : Nat) : Prop :=
  ∃ file, w.lock = some file ∧ file.process = p ∧ file.tx = (w.processes p).tx

/-- The state that a transaction is to rename comes from the state that is there. -/
def Follows (host : StoreHost σ) (w : StoreWorld σ) (p : Nat) (state : σ) : Prop :=
  ∃ action, w.calls[(w.processes p).tx]? = some (p, action) ∧ action (w.current host) = some state

/-- What a process that lives knows where it stands. -/
def Knows (host : StoreHost σ) (w : StoreWorld σ) (p : Nat) : Phase σ → Prop
  | .idle | .opening | .guarding => True
  | .reading | .reopening => w.guard = some p
  | .testing old => w.guard = some p ∧ ∃ q, old.pid = pid q ∧
    ((w.processes q).alive = true ∨ ∃ file, w.lock = some file ∧ file.process = q)
  | .unlinking => w.guard = some p ∧
    ∃ file, w.lock = some file ∧ (w.processes file.process).alive = false
  | .unguarding held => w.guard = some p ∧ (held = true → Has w p)
  | .writing | .loading => Has w p
  | .acting state => Has w p ∧ state = w.current host
  | .storing state | .publishing state => Has w p ∧ Follows host w p state
  | .published => Has w p ∧ (w.processes p).tx ∈ w.commits.map Prod.fst
  | .releasing done => Has w p ∧ (done = true → (w.processes p).tx ∈ w.commits.map Prod.fst)

theorem Knows.has (knows : Knows host w p phase) (holds : phase.Holds) : Has w p := by
  cases phase with
  | idle | opening | guarding | reading | testing | unlinking | reopening => exact holds.elim
  | unguarding held => exact knows.2 holds
  | writing | loading => exact knows
  | acting | storing | publishing | published | releasing => exact knows.1

/-- The transactions of a process that can still rename. -/
def Process.pending (process : Process σ) : List Nat :=
  (if process.phase.Open then [process.tx] else []) ++ process.waiting

/-- The state after some transactions. -/
def lastState (start : σ) (commits : List (Nat × σ)) : σ :=
  (commits.getLast?.map Prod.snd).getD start

/-- An entry of the chain: its transaction's action, applied to the state before it. -/
def Applies (calls : List (Nat × (σ → Option σ))) (start : σ) (before : List (Nat × σ))
    (entry : Nat × σ) : Prop :=
  ∃ process action, calls[entry.1]? = some (process, action) ∧
    action (lastState start before) = some entry.2

/-- The lock file, the guard and the processes. -/
structure LockInv (host : StoreHost σ) (w : StoreWorld σ) : Prop where
  knows : ∀ p, (w.processes p).alive = true → Knows host w p (w.processes p).phase
  /-- The owner that a lock file names has created it. -/
  content : ∀ file ∈ w.lock, ∀ old ∈ file.content, old.pid = pid file.process

/-- The file, what was renamed over it, and the transactions. -/
structure ChainInv (host : StoreHost σ) (start : σ) (w : StoreWorld σ) : Prop where
  file : w.current host = lastState start w.commits
  chain : Log.Justified (Applies w.calls start) w.commits
  snapshots : ∀ s ∈ w.snapshots, s = start ∨ s ∈ w.commits.map Prod.snd
  nodup : ∀ p, (w.processes p).pending.Nodup
  pending : ∀ p, ∀ tx ∈ (w.processes p).pending,
    (∃ action, w.calls[tx]? = some (p, action)) ∧ tx ∉ w.commits.map Prod.fst
  once : (w.commits.map Prod.fst).Nodup
  returned : ∀ tx ∈ w.returned, tx ∈ w.commits.map Prod.fst

theorem LockInv.exclusive (inv : LockInv host w) (alive : (w.processes p).alive = true)
    (alive' : (w.processes q).alive = true) (holds : (w.processes p).phase.Holds)
    (holds' : (w.processes q).phase.Holds) : p = q := by
  obtain ⟨file, found, of_p, -⟩ := (inv.knows p alive).has holds
  obtain ⟨file', found', of_q, -⟩ := (inv.knows q alive').has holds'
  cases found.symm.trans found'
  exact of_p.symm.trans of_q

theorem lockInv_start {file : Option σ} : LockInv host (.start file) where
  knows := fun _ _ => trivial
  content := fun _ absurd => (nomatch absurd)

theorem chainInv_start {file : Option σ} :
    ChainInv host (file.getD host.empty) (.start file) where
  file := rfl
  chain := Log.justified_nil
  snapshots := fun _ mem => (nomatch mem)
  nodup := fun _ => nodup_nil
  pending := fun _ _ mem => (nomatch mem)
  once := nodup_nil
  returned := fun _ mem => (nomatch mem)

/-! ## What the others keep -/

/-- What a step leaves of what a process knows. -/
structure Leaves (host : StoreHost σ) (w w' : StoreWorld σ) (p : Nat) : Prop where
  tx : (w'.processes p).tx = (w.processes p).tx
  alive : ∀ q, (w'.processes q).alive = (w.processes q).alive
  guard : w.guard = some p → w'.guard = some p
  own : ∀ file, w.lock = some file → file.process = p →
    ∃ file', w'.lock = some file' ∧ file'.process = p ∧ file'.tx = file.tx
  /-- The lock file of a dead process stays for whoever has the guard. -/
  dead : w.guard = some p → ∀ file, w.lock = some file →
    (w.processes file.process).alive = false →
      ∃ file', w'.lock = some file' ∧ file'.process = file.process
  current : Has w p → w'.current host = w.current host
  commits : ∀ tx, tx ∈ w.commits.map Prod.fst → tx ∈ w'.commits.map Prod.fst
  calls : ∀ (tx : Nat) (call : Nat × (σ → Option σ)), w.calls[tx]? = some call →
    w'.calls[tx]? = some call

theorem Leaves.has (leaves : Leaves host w w' p) (has : Has w p) : Has w' p := by
  obtain ⟨file, found, of_p, of_tx⟩ := has
  obtain ⟨file', found', of_p', of_tx'⟩ := leaves.own file found of_p
  exact ⟨file', found', of_p', by rw [of_tx', of_tx, leaves.tx]⟩

theorem Leaves.follows (leaves : Leaves host w w' p) {state : σ} (has : Has w p)
    (follows : Follows host w p state) : Follows host w' p state := by
  obtain ⟨action, called, applied⟩ := follows
  refine ⟨action, ?_, ?_⟩
  · rw [leaves.tx]
    exact leaves.calls _ _ called
  · rw [leaves.current has]
    exact applied

theorem Leaves.knows (leaves : Leaves host w w' p) (knows : Knows host w p phase) :
    Knows host w' p phase := by
  cases phase with
  | idle | opening | guarding => trivial
  | reading | reopening => exact leaves.guard knows
  | testing old =>
    obtain ⟨guard, q, of_pid, lives | ⟨file, found, of_q⟩⟩ := knows
    · exact ⟨leaves.guard guard, q, of_pid, .inl ((leaves.alive q).trans lives)⟩
    · refine ⟨leaves.guard guard, q, of_pid, ?_⟩
      cases lives : (w.processes q).alive with
      | true => exact .inl ((leaves.alive q).trans lives)
      | false =>
        obtain ⟨file', found', same⟩ := leaves.dead guard file found (of_q ▸ lives)
        exact .inr ⟨file', found', same.trans of_q⟩
  | unlinking =>
    obtain ⟨guard, file, found, dead⟩ := knows
    obtain ⟨file', found', same⟩ := leaves.dead guard file found dead
    exact ⟨leaves.guard guard, file', found', by rw [leaves.alive, same, dead]⟩
  | unguarding held => exact ⟨leaves.guard knows.1, fun holds => leaves.has (knows.2 holds)⟩
  | writing | loading => exact leaves.has knows
  | acting state => exact ⟨leaves.has knows.1, knows.2.trans (leaves.current knows.1).symm⟩
  | storing state | publishing state => exact ⟨leaves.has knows.1, leaves.follows knows.1 knows.2⟩
  | published =>
    refine ⟨leaves.has knows.1, ?_⟩
    rw [leaves.tx]
    exact leaves.commits _ knows.2
  | releasing done =>
    refine ⟨leaves.has knows.1, fun ok => ?_⟩
    rw [leaves.tx]
    exact leaves.commits _ (knows.2 ok)

/-- A process goes on; the file and what was renamed stay. -/
structure Moves (w w' : StoreWorld σ) (p : Nat) (process : Process σ) : Prop where
  processes : w'.processes = Function.update w.processes p process
  alive : process.alive = (w.processes p).alive
  file : w'.file = w.file
  calls : w'.calls = w.calls
  commits : w'.commits = w.commits
  snapshots : w'.snapshots = w.snapshots

section Moves

variable {process : Process σ}

theorem Moves.at_self (moves : Moves w w' p process) : w'.processes p = process := by
  rw [moves.processes, Function.update_self]

theorem Moves.at_other (moves : Moves w w' p process) (ne : q ≠ p) :
    w'.processes q = w.processes q := by
  rw [moves.processes, Function.update_of_ne ne]

theorem Moves.at_alive (moves : Moves w w' p process) (q : Nat) :
    (w'.processes q).alive = (w.processes q).alive := by
  by_cases same : q = p
  · rw [same, moves.at_self, moves.alive]
  · rw [moves.at_other same]

theorem Moves.current (moves : Moves w w' p process) : w'.current host = w.current host :=
  congrArg (·.getD host.empty) moves.file

theorem Moves.leaves (moves : Moves w w' p process) (tx : (w'.processes q).tx = (w.processes q).tx)
    (guard : w.guard = some q → w'.guard = some q)
    (own : ∀ file, w.lock = some file → file.process = q →
      ∃ file', w'.lock = some file' ∧ file'.process = q ∧ file'.tx = file.tx)
    (dead : w.guard = some q → ∀ file, w.lock = some file →
      (w.processes file.process).alive = false →
        ∃ file', w'.lock = some file' ∧ file'.process = file.process) :
    Leaves host w w' q where
  tx := tx
  alive := moves.at_alive
  guard := guard
  own := own
  dead := dead
  current := fun _ => moves.current
  commits := fun _ mem => moves.commits ▸ mem
  calls := fun _ _ found => moves.calls ▸ found

theorem Moves.leaves_of_files (moves : Moves w w' p process)
    (tx : (w'.processes q).tx = (w.processes q).tx) (lock : w'.lock = w.lock)
    (guard : w'.guard = w.guard) : Leaves host w w' q := by
  apply moves.leaves tx
  · exact fun mine => guard.trans mine
  · exact fun file found mine => ⟨file, lock.trans found, mine, rfl⟩
  · exact fun _ file found _ => ⟨file, lock.trans found, rfl⟩

theorem Moves.lockInv (moves : Moves w w' p process) (inv : LockInv host w)
    (mine : process.alive = true → Knows host w' p process.phase)
    (others : ∀ q, q ≠ p → (w.processes q).alive = true → Leaves host w w' q)
    (content : ∀ file ∈ w'.lock, ∀ old ∈ file.content, old.pid = pid file.process) :
    LockInv host w' := by
  refine ⟨fun q lives => ?_, content⟩
  by_cases same : q = p
  · subst same
    rw [moves.at_self] at lives ⊢
    exact mine lives
  · rw [moves.at_other same] at lives ⊢
    exact (others q same lives).knows (inv.knows q lives)

theorem Moves.lockInv_of_files (moves : Moves w w' p process) (inv : LockInv host w)
    (lock : w'.lock = w.lock) (guard : w'.guard = w.guard)
    (mine : process.alive = true → Knows host w' p process.phase) : LockInv host w' := by
  refine moves.lockInv inv mine (fun q ne _ => ?_) (lock ▸ inv.content)
  exact moves.leaves_of_files (congrArg Process.tx (moves.at_other ne)) lock guard

theorem Moves.chainInv (moves : Moves w w' p process) (inv : ChainInv host start w)
    (fewer : process.pending.Sublist (w.processes p).pending)
    (returned : ∀ tx ∈ w'.returned, tx ∈ w.returned ∨ tx ∈ w.commits.map Prod.fst) :
    ChainInv host start w' := by
  have pending (q : Nat) : (w'.processes q).pending.Sublist (w.processes q).pending := by
    by_cases same : q = p
    · rw [same, moves.at_self]
      exact fewer
    · rw [moves.at_other same]
  refine ⟨?_, ?_, ?_, fun q => (inv.nodup q).sublist (pending q), fun q tx mem => ?_, ?_,
    fun tx mem => ?_⟩
  · rw [moves.current, moves.commits, inv.file]
  · rw [moves.calls, moves.commits]
    exact inv.chain
  · rw [moves.snapshots, moves.commits]
    exact inv.snapshots
  · rw [moves.calls, moves.commits]
    exact inv.pending q tx ((pending q).subset mem)
  · rw [moves.commits]
    exact inv.once
  · rw [moves.commits]
    rcases returned tx mem with before | now
    · exact inv.returned tx before
    · exact now

end Moves

theorem moves_goto : Moves w (w.goto p phase) p { w.processes p with phase } :=
  ⟨rfl, rfl, rfl, rfl, rfl, rfl⟩

theorem moves_finish {done : Bool} :
    Moves w (w.finish p done) p { w.processes p with phase := .idle } :=
  ⟨rfl, rfl, rfl, rfl, rfl, rfl⟩

@[simp] theorem goto_self :
    (w.goto p phase).processes p = { w.processes p with phase } :=
  Function.update_self ..

theorem pending_sublist {process : Process σ} (opens : phase.Open → process.phase.Open) :
    ({ process with phase } : Process σ).pending.Sublist process.pending := by
  unfold Process.pending
  apply List.Sublist.append_right
  dsimp only
  split
  next isOpen => rw [if_pos (opens isOpen)]
  next => exact nil_sublist _

theorem tx_mem_pending {process : Process σ} (opens : process.phase.Open) :
    process.tx ∈ process.pending := by
  unfold Process.pending
  rw [if_pos opens]
  exact mem_append_left _ (mem_singleton_self _)

/-! ## The lock file, step by step -/

section Lock

theorem LockInv.goto (inv : LockInv host w) (knows : Knows host w p phase) :
    LockInv host (w.goto p phase) := by
  apply moves_goto.lockInv_of_files inv rfl rfl
  intro _
  have tx : ((w.goto p phase).processes p).tx = (w.processes p).tx := by rw [goto_self]
  exact (moves_goto.leaves_of_files tx rfl rfl).knows knows

theorem LockInv.finish {done : Bool} (inv : LockInv host w) : LockInv host (w.finish p done) :=
  moves_finish.lockInv_of_files inv rfl rfl fun _ => trivial

theorem LockInv.acquire (inv : LockInv host w) (free : w.lock = none)
    (knows : ∀ w' : StoreWorld σ, w'.guard = w.guard → Has w' p → Knows host w' p phase) :
    LockInv host { w.goto p phase with lock := some ⟨p, (w.processes p).tx, none⟩ } := by
  generalize locked : ({ w.goto p phase with lock := some ⟨p, (w.processes p).tx, none⟩ } :
    StoreWorld σ) = w'
  have moves : Moves w w' p { w.processes p with phase } := by
    rw [← locked]
    exact ⟨rfl, rfl, rfl, rfl, rfl, rfl⟩
  apply moves.lockInv inv
  · intro _
    apply knows
    · rw [← locked]
      rfl
    · refine ⟨⟨p, (w.processes p).tx, none⟩, ?_, rfl, ?_⟩
      · rw [← locked]
      · rw [moves.at_self]
  · intro q ne _
    apply moves.leaves (congrArg Process.tx (moves.at_other ne))
    · rw [← locked]
      exact id
    · intro file found
      cases free.symm.trans found
    · intro _ file found
      cases free.symm.trans found
  · rw [← locked]
    rintro file ⟨⟩ old ⟨⟩

theorem LockInv.unguard {process : Process σ} (inv : LockInv host w) (mine : w.guard = some p)
    (moves : Moves w w' p process) (lock : w'.lock = w.lock)
    (knows : process.alive = true → Knows host w' p process.phase) : LockInv host w' := by
  apply moves.lockInv inv knows
  · intro q ne _
    apply moves.leaves (congrArg Process.tx (moves.at_other ne))
    · intro other
      exact absurd (Option.some.inj (other.symm.trans mine)) ne
    · exact fun file found of_q => ⟨file, lock.trans found, of_q, rfl⟩
    · exact fun _ file found _ => ⟨file, lock.trans found, rfl⟩
  · rw [lock]
    exact inv.content

theorem LockInv.unlock {process : Process σ} {file : LockFile} (inv : LockInv host w)
    (found : w.lock = some file)
    (mine : (w.guard = some p ∧ (w.processes file.process).alive = false) ∨
      (file.process = p ∧ (w.processes p).alive = true))
    (moves : Moves w w' p process) (lock : w'.lock = none) (guard : w'.guard = w.guard)
    (knows : process.alive = true → Knows host w' p process.phase) : LockInv host w' := by
  apply moves.lockInv inv knows
  · intro q ne lives
    apply moves.leaves (congrArg Process.tx (moves.at_other ne))
    · exact fun of_q => guard.trans of_q
    · intro file' found' of_q
      cases found'.symm.trans found
      rcases mine with ⟨-, dead⟩ | ⟨of_p, -⟩
      · rw [of_q, lives] at dead
        cases dead
      · exact absurd (of_q.symm.trans of_p) ne
    · intro of_q file' found' dead
      cases found'.symm.trans found
      rcases mine with ⟨of_p, -⟩ | ⟨of_p, alive⟩
      · exact absurd (Option.some.inj (of_q.symm.trans of_p)) ne
      · rw [of_p, alive] at dead
        cases dead
  · rw [lock]
    nofun

theorem LockInv.fill (inv : LockInv host w) (has : Has w p) :
    LockInv host { w.goto p .loading with
      lock := w.lock.map fun file =>
        if file.tx = (w.processes p).tx then
          { file with content := some ⟨pid p, host.hostname, (w.processes p).tx⟩ } else file } := by
  obtain ⟨file, found, of_p, of_tx⟩ := has
  rw [found, Option.map_some, if_pos of_tx]
  generalize filled : ({ w.goto p .loading with
      lock := some { file with content := some ⟨pid p, host.hostname, (w.processes p).tx⟩ } } :
    StoreWorld σ) = w'
  have moves : Moves w w' p { w.processes p with phase := .loading } := by
    rw [← filled]
    exact ⟨rfl, rfl, rfl, rfl, rfl, rfl⟩
  have lock : w'.lock = some
      { file with content := some ⟨pid p, host.hostname, (w.processes p).tx⟩ } := by
    rw [← filled]
  apply moves.lockInv inv
  · intro _
    refine ⟨_, lock, of_p, ?_⟩
    rw [moves.at_self]
    exact of_tx
  · intro q ne _
    apply moves.leaves (congrArg Process.tx (moves.at_other ne))
    · rw [← filled]
      exact id
    · intro file' found' of_q
      cases found'.symm.trans found
      exact ⟨_, lock, of_q, rfl⟩
    · intro _ file' found' _
      cases found'.symm.trans found
      exact ⟨_, lock, rfl⟩
  · rw [lock]
    rintro file' ⟨⟩ old ⟨⟩
    exact congrArg pid of_p.symm

theorem LockInv.publish {state : σ} (inv : LockInv host w) (has : Has w p) :
    LockInv host { w.goto p .published with
      file := some state
      commits := w.commits ++ [((w.processes p).tx, state)] } := by
  have tx : ((w.goto p .published).processes p).tx = (w.processes p).tx := by rw [goto_self]
  refine ⟨fun q lives => ?_, inv.content⟩
  by_cases same : q = p
  · subst same
    rw [show ((w.goto q .published).processes q).phase = .published by rw [goto_self]]
    refine ⟨?_, ?_⟩
    · obtain ⟨file, found, of_p, of_tx⟩ := has
      exact ⟨file, found, of_p, of_tx.trans tx.symm⟩
    · refine mem_map.mpr ⟨((w.processes q).tx, state), ?_, tx.symm⟩
      exact mem_append_right _ (mem_singleton_self _)
  · have other : (w.goto p .published).processes q = w.processes q := moves_goto.at_other same
    rw [show ((w.goto p .published).processes q).phase = (w.processes q).phase from
      congrArg Process.phase other]
    rw [show ((w.goto p .published).processes q).alive = (w.processes q).alive from
      congrArg Process.alive other] at lives
    suffices leaves : Leaves host w _ q from leaves.knows (inv.knows q lives)
    refine ⟨?_, fun r => ?_, id, fun file found mine => ⟨file, found, mine, rfl⟩,
      fun _ file found _ => ⟨file, found, rfl⟩, fun also => ?_, fun tx mem => ?_,
      fun _ _ called => called⟩
    · exact congrArg Process.tx other
    · exact moves_goto.at_alive r
    · obtain ⟨file, found, of_p, -⟩ := has
      obtain ⟨file', found', of_q, -⟩ := also
      cases found.symm.trans found'
      exact absurd (of_q.symm.trans of_p) same
    · rw [map_append]
      exact mem_append_left _ mem

theorem LockInv.take_up {process : Process σ} (inv : LockInv host w)
    (alive : process.alive = (w.processes p).alive) (phase : process.phase = .opening) :
    LockInv host { w with processes := Function.update w.processes p process } := by
  have moves : Moves w { w with processes := Function.update w.processes p process } p process :=
    ⟨rfl, alive, rfl, rfl, rfl, rfl⟩
  apply moves.lockInv_of_files inv rfl rfl
  intro _
  rw [phase]
  trivial

theorem LockInv.advance (inv : LockInv host w) (chain : ChainInv host start w)
    (lives : (w.processes p).alive = true) : LockInv host (w.advance host p) := by
  have knows := inv.knows p lives
  unfold StoreWorld.advance
  dsimp only
  cases at_phase : (w.processes p).phase with
  | idle =>
    dsimp only
    split
    · exact inv.take_up rfl rfl
    · exact inv
  | opening =>
    dsimp only
    split
    next free => exact inv.acquire free fun _ _ has => has
    next => exact inv.goto trivial
  | guarding =>
    dsimp only
    split
    next free =>
      have moves : Moves w { w.goto p .reading with guard := some p } p
          { w.processes p with phase := .reading } := ⟨rfl, rfl, rfl, rfl, rfl, rfl⟩
      apply moves.lockInv inv
      · exact fun _ => rfl
      · intro q ne _
        apply moves.leaves (congrArg Process.tx (moves.at_other ne))
        · intro taken
          cases free.symm.trans taken
        · exact fun file found of_q => ⟨file, found, of_q, rfl⟩
        · exact fun _ file found _ => ⟨file, found, rfl⟩
      · exact inv.content
    next => exact inv.finish
  | reading =>
    rw [at_phase] at knows
    dsimp only
    split
    next old read =>
      obtain ⟨file, found, content⟩ := Option.bind_eq_some_iff.mp read
      apply inv.goto
      exact ⟨knows, file.process, inv.content file found old content, .inr ⟨file, found, rfl⟩⟩
    next => exact inv.goto ⟨knows, nofun⟩
  | testing old =>
    rw [at_phase] at knows
    obtain ⟨guard, q, of_pid, known⟩ := knows
    dsimp only
    split
    next => exact inv.goto ⟨guard, nofun⟩
    next found =>
      have dead := dead_of_ownerAlive of_pid (Bool.eq_false_iff.mpr found)
      rcases known with alive | ⟨file, here, of_q⟩
      · rw [dead] at alive
        cases alive
      · exact inv.goto ⟨guard, file, here, by rw [of_q, dead]⟩
  | unlinking =>
    rw [at_phase] at knows
    obtain ⟨guard, file, found, dead⟩ := knows
    dsimp only
    rw [if_neg (by rw [found]; nofun)]
    have moves : Moves w { w.goto p .reopening with lock := none } p
        { w.processes p with phase := .reopening } := ⟨rfl, rfl, rfl, rfl, rfl, rfl⟩
    exact inv.unlock found (.inl ⟨guard, dead⟩) moves rfl rfl fun _ => guard
  | reopening =>
    rw [at_phase] at knows
    dsimp only
    split
    next free => exact inv.acquire free fun _ guard has => ⟨guard.trans knows, fun _ => has⟩
    next => exact inv.goto ⟨knows, nofun⟩
  | unguarding held =>
    rw [at_phase] at knows
    dsimp only
    split
    next holds =>
      have moves : Moves w { w.goto p .writing with guard := none } p
          { w.processes p with phase := .writing } := ⟨rfl, rfl, rfl, rfl, rfl, rfl⟩
      apply inv.unguard knows.1 moves rfl
      intro _
      obtain ⟨file, found, of_p, of_tx⟩ := knows.2 holds
      refine ⟨file, found, of_p, ?_⟩
      rw [goto_self]
      exact of_tx
    next =>
      have moves : Moves w { w.finish p false with guard := none } p
          { w.processes p with phase := .idle } := ⟨rfl, rfl, rfl, rfl, rfl, rfl⟩
      exact inv.unguard knows.1 moves rfl fun _ => trivial
  | writing =>
    rw [at_phase] at knows
    exact inv.fill knows
  | loading =>
    rw [at_phase] at knows
    dsimp only
    split
    · exact inv.goto ⟨knows, rfl⟩
    · exact inv.goto ⟨knows, nofun⟩
  | acting state =>
    rw [at_phase] at knows
    obtain ⟨has, rfl⟩ := knows
    dsimp only
    split
    next changed applied =>
      obtain ⟨⟨q, action⟩, called, applied⟩ := Option.bind_eq_some_iff.mp applied
      apply inv.goto
      have opens : (w.processes p).phase.Open := by
        rw [at_phase]
        trivial
      obtain ⟨⟨action', called'⟩, -⟩ := chain.pending p _ (tx_mem_pending opens)
      cases called.symm.trans called'
      exact ⟨has, action, called, applied⟩
    next => exact inv.goto ⟨has, nofun⟩
  | storing state =>
    rw [at_phase] at knows
    exact inv.goto knows
  | publishing state =>
    rw [at_phase] at knows
    exact inv.publish knows.1
  | published =>
    rw [at_phase] at knows
    exact inv.goto ⟨knows.1, fun _ => knows.2⟩
  | releasing done =>
    rw [at_phase] at knows
    obtain ⟨⟨file, found, of_p, -⟩, -⟩ := knows
    dsimp only
    rw [if_neg (by rw [found]; nofun)]
    have moves : Moves w { w.finish p done with lock := none } p
        { w.processes p with phase := .idle } := ⟨rfl, rfl, rfl, rfl, rfl, rfl⟩
    exact inv.unlock found (.inr ⟨of_p, lives⟩) moves rfl rfl fun _ => trivial

theorem LockInv.fail (inv : LockInv host w) (lives : (w.processes p).alive = true) :
    LockInv host (w.fail p) := by
  have knows := inv.knows p lives
  unfold StoreWorld.fail
  cases at_phase : (w.processes p).phase with
  | idle => exact inv
  | opening | guarding | unguarding | releasing => exact inv.finish
  | reading | reopening =>
    rw [at_phase] at knows
    exact inv.goto ⟨knows, nofun⟩
  | testing | unlinking =>
    rw [at_phase] at knows
    exact inv.goto ⟨knows.1, nofun⟩
  | writing | loading =>
    rw [at_phase] at knows
    exact inv.goto ⟨knows, nofun⟩
  | acting | storing | publishing | published =>
    rw [at_phase] at knows
    exact inv.goto ⟨knows.1, nofun⟩

theorem LockInv.die (inv : LockInv host w) (meets : (StoreEvent.die p : StoreEvent σ).Meets w) :
    LockInv host (w.step host (.die p)) := by
  have at_self : (w.step host (.die p)).processes p = { w.processes p with alive := false } :=
    Function.update_self ..
  have at_other {q : Nat} (ne : q ≠ p) :
      (w.step host (.die p)).processes q = w.processes q := Function.update_of_ne ne ..
  have tx (q : Nat) : ((w.step host (.die p)).processes q).tx = (w.processes q).tx := by
    by_cases same : q = p
    · rw [same, at_self]
    · rw [at_other same]
  have stays_dead {q : Nat} (dead : (w.processes q).alive = false) :
      ((w.step host (.die p)).processes q).alive = false := by
    by_cases same : q = p
    · rw [same, at_self]
    · rw [at_other same, dead]
  have has {q : Nat} (has : Has w q) : Has (w.step host (.die p)) q := by
    obtain ⟨file, found, of_q, of_tx⟩ := has
    exact ⟨file, found, of_q, of_tx.trans (tx q).symm⟩
  have follows {q : Nat} {state : σ} (follows : Follows host w q state) :
      Follows host (w.step host (.die p)) q state := by
    obtain ⟨action, called, applied⟩ := follows
    exact ⟨action, by rw [tx]; exact called, applied⟩
  refine ⟨fun q lives => ?_, inv.content⟩
  have ne : q ≠ p := by
    rintro rfl
    rw [at_self] at lives
    cases lives
  rw [at_other ne] at lives ⊢
  have knows := inv.knows q lives
  cases at_phase : (w.processes q).phase with
  | idle | opening | guarding => trivial
  | reading | reopening =>
    rw [at_phase] at knows
    exact knows
  | testing old =>
    rw [at_phase] at knows
    obtain ⟨guard, r, of_pid, known⟩ := knows
    refine ⟨guard, r, of_pid, ?_⟩
    by_cases same : r = p
    · right
      have kept := meets q guard lives
      rw [at_phase] at kept
      obtain ⟨file, found, of_p⟩ := Option.map_eq_some_iff.mp (kept (same ▸ of_pid))
      exact ⟨file, found, of_p.trans same.symm⟩
    · rw [at_other same]
      exact known
  | unlinking =>
    rw [at_phase] at knows
    obtain ⟨guard, file, found, dead⟩ := knows
    exact ⟨guard, file, found, stays_dead dead⟩
  | unguarding held =>
    rw [at_phase] at knows
    exact ⟨knows.1, fun holds => has (knows.2 holds)⟩
  | writing | loading =>
    rw [at_phase] at knows
    exact has knows
  | acting state =>
    rw [at_phase] at knows
    exact ⟨has knows.1, knows.2⟩
  | storing state | publishing state =>
    rw [at_phase] at knows
    exact ⟨has knows.1, follows knows.2⟩
  | published =>
    rw [at_phase] at knows
    exact ⟨has knows.1, by rw [tx]; exact knows.2⟩
  | releasing done =>
    rw [at_phase] at knows
    exact ⟨has knows.1, fun ok => by rw [tx]; exact knows.2 ok⟩

theorem LockInv.call {action : σ → Option σ} (inv : LockInv host w) :
    LockInv host (w.step host (.call p action)) := by
  unfold StoreWorld.step
  dsimp only
  split
  next =>
    refine ⟨fun q lives => ?_, inv.content⟩
    dsimp only at lives ⊢
    have same_phase : (Function.update w.processes p { w.processes p with
        waiting := (w.processes p).waiting ++ [w.calls.length] } q).phase =
          (w.processes q).phase := by
      by_cases same : q = p
      · rw [same, Function.update_self]
      · rw [Function.update_of_ne same]
    have same_alive (r : Nat) : (Function.update w.processes p { w.processes p with
        waiting := (w.processes p).waiting ++ [w.calls.length] } r).alive =
          (w.processes r).alive := by
      by_cases same : r = p
      · rw [same, Function.update_self]
      · rw [Function.update_of_ne same]
    rw [same_alive] at lives
    rw [same_phase]
    suffices leaves : Leaves host w _ q from leaves.knows (inv.knows q lives)
    refine ⟨?_, same_alive, id, fun file found mine => ⟨file, found, mine, rfl⟩,
      fun _ file found _ => ⟨file, found, rfl⟩, fun _ => rfl, fun _ mem => mem,
      fun tx call found => ?_⟩
    · dsimp only
      by_cases same : q = p
      · rw [same, Function.update_self]
      · rw [Function.update_of_ne same]
    · exact List.getElem?_append_left (List.getElem?_eq_some_iff.mp found).1 ▸ found
  next => exact inv

end Lock

/-! ## The chain, step by step -/

section Chain

theorem ChainInv.goto (inv : ChainInv host start w)
    (opens : phase.Open → (w.processes p).phase.Open) : ChainInv host start (w.goto p phase) :=
  moves_goto.chainInv inv (pending_sublist opens) fun _ mem => .inl mem

theorem ChainInv.goto_with {lock : Option LockFile} {guard : Option Nat}
    (inv : ChainInv host start w) (opens : phase.Open → (w.processes p).phase.Open) :
    ChainInv host start { w.goto p phase with lock, guard } :=
  Moves.chainInv (p := p) (w := w) ⟨rfl, rfl, rfl, rfl, rfl, rfl⟩ inv (pending_sublist opens)
    fun _ mem => .inl mem

theorem ChainInv.finish_with {lock : Option LockFile} {guard : Option Nat} {done : Bool}
    (inv : ChainInv host start w)
    (committed : done = true → (w.processes p).tx ∈ w.commits.map Prod.fst) :
    ChainInv host start { w.finish p done with lock, guard } := by
  have moves : Moves w { w.finish p done with lock, guard } p { w.processes p with phase := .idle } :=
    ⟨rfl, rfl, rfl, rfl, rfl, rfl⟩
  apply moves.chainInv inv (pending_sublist fun isOpen => isOpen.elim)
  intro tx mem
  unfold StoreWorld.finish at mem
  dsimp only at mem
  split at mem
  next ok =>
    rcases mem_append.mp mem with before | now
    · exact .inl before
    · rw [mem_singleton.mp now]
      exact .inr (committed ok)
  next => exact .inl mem

theorem ChainInv.finish (inv : ChainInv host start w) : ChainInv host start (w.finish p false) :=
  moves_finish.chainInv inv (pending_sublist fun isOpen => isOpen.elim) fun _ mem => .inl mem

theorem lastState_snoc {commits : List (Nat × σ)} {entry : Nat × σ} :
    lastState start (commits ++ [entry]) = entry.2 := by
  unfold lastState
  rw [getLast?_concat]
  rfl

theorem ChainInv.publish {state : σ} (inv : ChainInv host start w)
    (isOpen : (w.processes p).phase.Open) (follows : Follows host w p state) :
    ChainInv host start { w.goto p .published with
      file := some state
      commits := w.commits ++ [((w.processes p).tx, state)] } := by
  obtain ⟨action, called, applied⟩ := follows
  have mine := tx_mem_pending isOpen
  have fresh := (inv.pending p _ mine).2
  have pending_self : ({ w.processes p with phase := .published } : Process σ).pending =
      (w.processes p).waiting := rfl
  have split_pending : (w.processes p).pending = (w.processes p).tx :: (w.processes p).waiting := by
    unfold Process.pending
    rw [if_pos isOpen]
    rfl
  refine ⟨?_, ?_, fun s mem => ?_, fun q => ?_, fun q tx mem => ?_, ?_, fun tx mem => ?_⟩
  · rw [lastState_snoc]
    rfl
  · refine inv.chain.snoc ⟨p, action, called, ?_⟩
    rw [← inv.file]
    exact applied
  · rcases inv.snapshots s mem with first | later
    · exact .inl first
    · rw [map_append]
      exact .inr (mem_append_left _ later)
  · dsimp only
    by_cases same : q = p
    · subst same
      rw [goto_self, pending_self]
      have nodup := inv.nodup q
      rw [split_pending] at nodup
      exact (nodup_cons.mp nodup).2
    · rw [moves_goto.at_other same]
      exact inv.nodup q
  · dsimp only at mem ⊢
    rw [map_append, mem_append, not_or, map_singleton, mem_singleton]
    by_cases same : q = p
    · subst same
      rw [goto_self, pending_self] at mem
      have old : tx ∈ (w.processes q).pending := by
        rw [split_pending]
        exact mem_cons_of_mem _ mem
      obtain ⟨known, new⟩ := inv.pending q tx old
      refine ⟨known, new, fun equal => ?_⟩
      have nodup := inv.nodup q
      rw [split_pending] at nodup
      rw [show tx = (w.processes q).tx from equal] at mem
      exact (nodup_cons.mp nodup).1 mem
    · rw [moves_goto.at_other same] at mem
      obtain ⟨⟨action', called'⟩, new⟩ := inv.pending q tx mem
      refine ⟨⟨action', called'⟩, new, fun equal => ?_⟩
      rw [equal, called] at called'
      exact same (Prod.mk.inj (Option.some.inj called')).1.symm
  · rw [map_append, nodup_append]
    refine ⟨inv.once, nodup_singleton _, fun tx mem tx' now equal => ?_⟩
    obtain rfl := mem_singleton.mp now
    rw [show tx = (w.processes p).tx from equal] at mem
    exact fresh mem
  · rw [map_append]
    exact mem_append_left _ (inv.returned tx mem)

theorem ChainInv.advance (inv : ChainInv host start w) (locks : LockInv host w)
    (lives : (w.processes p).alive = true) : ChainInv host start (w.advance host p) := by
  have knows := locks.knows p lives
  unfold StoreWorld.advance
  dsimp only
  cases at_phase : (w.processes p).phase with
  | idle =>
    dsimp only
    split
    next tx waiting at_waiting =>
      have moves : Moves w { w with
          processes := Function.update w.processes p { w.processes p with phase := .opening, tx, waiting } }
          p { w.processes p with phase := .opening, tx, waiting } := ⟨rfl, rfl, rfl, rfl, rfl, rfl⟩
      apply moves.chainInv inv
      · unfold Process.pending
        rw [at_phase, at_waiting]
        exact List.Sublist.refl _
      · exact fun _ mem => .inl mem
    next => exact inv
  | opening =>
    have isOpen : (w.processes p).phase.Open := by
      rw [at_phase]
      trivial
    dsimp only
    split
    · exact inv.goto_with fun _ => isOpen
    · exact inv.goto fun _ => isOpen
  | guarding =>
    have isOpen : (w.processes p).phase.Open := by
      rw [at_phase]
      trivial
    dsimp only
    split
    · exact inv.goto_with fun _ => isOpen
    · exact inv.finish
  | reading | testing | unlinking | reopening =>
    have isOpen : (w.processes p).phase.Open := by
      rw [at_phase]
      trivial
    dsimp only
    split
    all_goals
      first
        | exact inv.goto fun _ => isOpen
        | exact inv.goto_with fun _ => isOpen
  | unguarding held =>
    have isOpen : (w.processes p).phase.Open := by
      rw [at_phase]
      trivial
    dsimp only
    split
    · exact inv.goto_with fun _ => isOpen
    · exact inv.finish_with nofun
  | writing =>
    have isOpen : (w.processes p).phase.Open := by
      rw [at_phase]
      trivial
    exact inv.goto_with fun _ => isOpen
  | loading | acting =>
    have isOpen : (w.processes p).phase.Open := by
      rw [at_phase]
      trivial
    dsimp only
    split
    · exact inv.goto fun _ => isOpen
    · exact inv.goto fun _ => isOpen
  | storing =>
    apply inv.goto
    intro _
    rw [at_phase]
    trivial
  | publishing state =>
    rw [at_phase] at knows
    apply inv.publish _ knows.2
    rw [at_phase]
    trivial
  | published => exact inv.goto nofun
  | releasing done =>
    rw [at_phase] at knows
    dsimp only
    split
    · exact inv.finish
    · exact inv.finish_with knows.2

theorem ChainInv.fail (inv : ChainInv host start w) : ChainInv host start (w.fail p) := by
  unfold StoreWorld.fail
  cases at_phase : (w.processes p).phase with
  | idle => exact inv
  | opening | guarding | unguarding | releasing => exact inv.finish
  | reading | testing | unlinking | reopening =>
    apply inv.goto
    intro _
    rw [at_phase]
    trivial
  | writing | loading | acting | storing | publishing | published => exact inv.goto nofun

theorem ChainInv.die (inv : ChainInv host start w) :
    ChainInv host start (w.step host (.die p)) := by
  have pending (q : Nat) :
      ((w.step host (.die p)).processes q).pending = (w.processes q).pending := by
    by_cases same : q = p
    · rw [same]
      unfold StoreWorld.step
      dsimp only
      rw [Function.update_self]
      rfl
    · exact congrArg Process.pending (Function.update_of_ne same ..)
  refine ⟨inv.file, inv.chain, inv.snapshots, fun q => ?_, fun q tx mem => ?_, inv.once, inv.returned⟩
  · rw [pending]
    exact inv.nodup q
  · rw [pending] at mem
    exact inv.pending q tx mem

theorem ChainInv.call {action : σ → Option σ} (inv : ChainInv host start w) :
    ChainInv host start (w.step host (.call p action)) := by
  unfold StoreWorld.step
  dsimp only
  split
  next =>
    have grown {tx : Nat} {call : Nat × (σ → Option σ)} (found : w.calls[tx]? = some call) :
        (w.calls ++ [(p, action)])[tx]? = some call :=
      List.getElem?_append_left (List.getElem?_eq_some_iff.mp found).1 ▸ found
    have older {q tx : Nat} (mem : tx ∈ (w.processes q).pending) : tx < w.calls.length := by
      obtain ⟨⟨action', called⟩, -⟩ := inv.pending q tx mem
      exact (List.getElem?_eq_some_iff.mp called).1
    have longer : ({ w.processes p with waiting := (w.processes p).waiting ++ [w.calls.length] } :
        Process σ).pending = (w.processes p).pending ++ [w.calls.length] := by
      unfold Process.pending
      rw [append_assoc]
    have uncommitted : w.calls.length ∉ w.commits.map Prod.fst := by
      intro mem
      obtain ⟨entry, inside, same⟩ := mem_map.mp mem
      obtain ⟨before, -, q, action', called, -⟩ := inv.chain.exists_of_mem inside
      exact absurd same (Nat.ne_of_lt (List.getElem?_eq_some_iff.mp called).1)
    refine ⟨inv.file, ?_, inv.snapshots, fun q => ?_, fun q tx mem => ?_, inv.once, inv.returned⟩
    · refine inv.chain.mono fun before entry ⟨q, action', called, applied⟩ => ?_
      exact ⟨q, action', grown called, applied⟩
    · dsimp only
      by_cases same : q = p
      · subst same
        rw [Function.update_self, longer, nodup_append]
        refine ⟨inv.nodup q, nodup_singleton _, fun tx mem tx' now equal => ?_⟩
        obtain rfl := mem_singleton.mp now
        exact absurd equal (Nat.ne_of_lt (older mem))
      · rw [Function.update_of_ne same]
        exact inv.nodup q
    · dsimp only at mem ⊢
      by_cases same : q = p
      · subst same
        rw [Function.update_self, longer] at mem
        rcases mem_append.mp mem with old | new
        · obtain ⟨⟨action', called⟩, fresh⟩ := inv.pending q tx old
          exact ⟨⟨action', grown called⟩, fresh⟩
        · rw [mem_singleton.mp new]
          exact ⟨⟨action, getElem?_concat_length⟩, uncommitted⟩
      · rw [Function.update_of_ne same] at mem
        obtain ⟨⟨action', called⟩, fresh⟩ := inv.pending q tx mem
        exact ⟨⟨action', grown called⟩, fresh⟩
  next => exact inv

theorem ChainInv.current_mem (inv : ChainInv host start w) :
    w.current host = start ∨ w.current host ∈ w.commits.map Prod.snd := by
  rw [inv.file]
  unfold lastState
  cases last : w.commits.getLast? with
  | none => exact .inl rfl
  | some entry => exact .inr (mem_map_of_mem (mem_of_getLast? last))

theorem ChainInv.snapshot (inv : ChainInv host start w) :
    ChainInv host start (w.step host .snapshot) := by
  unfold StoreWorld.step
  dsimp only
  split
  next =>
    refine ⟨inv.file, inv.chain, fun s mem => ?_, inv.nodup, inv.pending, inv.once, inv.returned⟩
    rcases mem_append.mp mem with old | new
    · exact inv.snapshots s old
    · rw [mem_singleton.mp new]
      exact inv.current_mem
  next => exact inv

end Chain

theorem lockChain_step {event : StoreEvent σ} (inv : LockInv host w ∧ ChainInv host start w)
    (meets : event.Meets w) :
    LockInv host (w.step host event) ∧ ChainInv host start (w.step host event) := by
  obtain ⟨locks, chain⟩ := inv
  cases event with
  | call p action => exact ⟨locks.call, chain.call⟩
  | step p =>
    unfold StoreWorld.step
    dsimp only
    split
    next lives => exact ⟨locks.advance chain lives, chain.advance locks lives⟩
    next => exact ⟨locks, chain⟩
  | fail p =>
    unfold StoreWorld.step
    dsimp only
    split
    next lives => exact ⟨locks.fail lives, chain.fail⟩
    next => exact ⟨locks, chain⟩
  | die p => exact ⟨locks.die meets, chain.die⟩
  | snapshot =>
    refine ⟨?_, chain.snapshot⟩
    unfold StoreWorld.step
    dsimp only
    split
    · exact ⟨locks.knows, locks.content⟩
    · exact locks

end Slide.Memory
