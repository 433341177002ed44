import Slide.Memory.RecordStoreRun

/-!
# Transactions one after another

As long as no process that has given the lock file up dies while a reclaimer that has read its file is
about to test it, the transactions that rename form a chain, and each one that returned is in it once.
-/

namespace Slide.Memory

open Guarded

variable {σ : Type} {host : StoreHost σ} {w : StoreWorld σ} {p : Nat} {file : LockFile}

theorem LockInv.lock_kept (inv : LockInv host w) (lives : (w.processes p).alive = true)
    (found : w.lock = some file) (owner : (w.processes file.process).alive = true)
    (ne : file.process ≠ p) :
    ∃ file', (w.advance host p).lock = some file' ∧ file'.tx = file.tx := by
  have knows := inv.knows p lives
  have kept {phase : Phase σ} :
      ∃ file', (w.goto p phase).lock = some file' ∧ file'.tx = file.tx := ⟨file, found, rfl⟩
  have kept_finish {done : Bool} :
      ∃ file', (w.finish p done).lock = some file' ∧ file'.tx = file.tx := ⟨file, found, rfl⟩
  unfold StoreWorld.advance
  dsimp only
  cases at_phase : (w.processes p).phase with
  | idle =>
    dsimp only
    split <;> exact ⟨file, found, rfl⟩
  | opening | reopening =>
    dsimp only
    rw [if_neg (by rw [found]; nofun)]
    exact kept
  | guarding | reading | testing | loading | acting =>
    dsimp only
    split
    all_goals exact ⟨file, found, rfl⟩
  | unlinking =>
    rw [at_phase] at knows
    obtain ⟨-, file', found', dead⟩ := knows
    cases found'.symm.trans found
    rw [owner] at dead
    cases dead
  | unguarding held =>
    dsimp only
    split
    all_goals exact ⟨file, found, rfl⟩
  | writing =>
    dsimp only
    rw [found, Option.map_some]
    refine ⟨_, rfl, ?_⟩
    split <;> rfl
  | storing | publishing | published => exact ⟨file, found, rfl⟩
  | releasing done =>
    rw [at_phase] at knows
    obtain ⟨⟨file', found', of_p, -⟩, -⟩ := knows
    cases found'.symm.trans found
    exact absurd of_p ne

/-- What a run does to the file and to its lock. -/
structure Serialized (host : StoreHost σ) (file : Option σ) (events : List (StoreEvent σ)) :
    Prop where
  /-- Each state that was renamed is the action of a transaction applied to the one before. -/
  chain : Log.Justified (Applies (runStore host (.start file) events).calls (file.getD host.empty))
    (runStore host (.start file) events).commits
  /-- The file holds the last of them. -/
  last : (runStore host (.start file) events).current host =
    lastState (file.getD host.empty) (runStore host (.start file) events).commits
  /-- A transaction that returned is in the chain, and none is in it twice. -/
  returned : ∀ tx ∈ (runStore host (.start file) events).returned,
    tx ∈ (runStore host (.start file) events).commits.map Prod.fst
  once : ((runStore host (.start file) events).commits.map Prod.fst).Nodup
  /-- One process that lives has the lock file at most. -/
  exclusive : ∀ p q, ((runStore host (.start file) events).processes p).alive = true →
    ((runStore host (.start file) events).processes q).alive = true →
    ((runStore host (.start file) events).processes p).phase.Holds →
    ((runStore host (.start file) events).processes q).phase.Holds → p = q
  /-- The lock file of a process that lives goes by its own operation only. -/
  removed : ∀ earlier event, earlier ++ [event] <+: events → ∀ lock,
    (runStore host (.start file) earlier).lock = some lock →
    ((runStore host (.start file) earlier).processes lock.process).alive = true →
    (∃ lock', (runStore host (.start file) (earlier ++ [event])).lock = some lock' ∧
      lock'.tx = lock.tx) ∨ event = .step lock.process
  /-- Readers get the first state or one that was renamed. -/
  readers : ∀ s ∈ (runStore host (.start file) events).snapshots, s = file.getD host.empty ∨
    s ∈ (runStore host (.start file) events).commits.map Prod.snd

/-- Transactions are serializable. -/
theorem transactions_serializable (host : StoreHost σ) (file : Option σ)
    (events : List (StoreEvent σ))
    (observes : Observes (StoreWorld.step host) (fun w event => event.Meets w) (.start file) events) :
    Serialized host file events := by
  have inv_of {events : List (StoreEvent σ)} (observes : Observes (StoreWorld.step host)
      (fun w event => event.Meets w) (.start file) events) :
      LockInv host (runStore host (.start file) events) ∧
        ChainInv host (file.getD host.empty) (runStore host (.start file) events) :=
    observes.invariant (P := fun w => LockInv host w ∧ ChainInv host (file.getD host.empty) w)
      ⟨lockInv_start, chainInv_start⟩ fun w event inv meets => lockChain_step inv meets
  obtain ⟨locks, chain⟩ := inv_of observes
  refine ⟨chain.chain, chain.file, chain.returned, chain.once,
    fun p q lives lives' holds holds' => locks.exclusive lives lives' holds holds',
    fun earlier event before lock found owner => ?_, chain.snapshots⟩
  obtain ⟨locks, -⟩ := inv_of (observes.of_prefix ((List.prefix_append ..).trans before))
  unfold runStore at found owner locks ⊢
  rw [List.foldl_append]
  change (∃ lock', (StoreWorld.step host _ event).lock = some lock' ∧ _) ∨ _
  generalize List.foldl (StoreWorld.step host) (.start file) earlier = w at found owner locks ⊢
  cases event with
  | call p action =>
    left
    unfold StoreWorld.step
    dsimp only
    split
    all_goals exact ⟨lock, found, rfl⟩
  | step p =>
    by_cases same : lock.process = p
    · exact .inr (same ▸ rfl)
    · left
      unfold StoreWorld.step
      dsimp only
      split
      next lives => exact locks.lock_kept lives found owner same
      next => exact ⟨lock, found, rfl⟩
  | fail p =>
    left
    unfold StoreWorld.step StoreWorld.fail
    dsimp only
    repeat' split
    all_goals exact ⟨lock, found, rfl⟩
  | die p => exact .inl ⟨lock, found, rfl⟩
  | snapshot =>
    left
    unfold StoreWorld.step
    dsimp only
    split
    all_goals exact ⟨lock, found, rfl⟩

/-! ## A lock file taken from its owner -/

section Lost

/-- A store of one number. -/
def countHost : StoreHost Nat where
  hostname := "slide"
  empty := 0
  valid := fun _ => true

def countUp (n : Nat) : Option Nat := some (n + 1)

def steps (p n : Nat) : List (StoreEvent Nat) := List.replicate n (.step p)

/-- Process 2 reads the lock file of process 0, which ends its transaction and dies; process 1 has
created the lock file anew when process 2 tests the owner that it has read. -/
def reclaimedFromOwner : List (StoreEvent Nat) :=
  [.call 0 countUp, .call 1 countUp, .call 2 countUp] ++ steps 0 3 ++ steps 2 4 ++ steps 0 6 ++
    steps 1 4 ++ [.die 0] ++ steps 2 2

/-- The lock file of process 1 is gone while the process lives and has read the state 1; then both
processes rename the state 2, and both transactions return or have renamed. -/
theorem update_lost :
    let w := runStore countHost (.start none) reclaimedFromOwner
    let w' := runStore countHost (.start none) (reclaimedFromOwner ++ steps 2 8 ++ steps 1 5)
    (w.lock = none ∧ (w.processes 1).alive = true ∧ w.current countHost = 1) ∧
      (w'.commits = [(0, 1), (2, 2), (1, 2)] ∧ w'.returned = [0, 1] ∧ countUp 2 = some 3) := by
  decide

/-- Process 0 dies with the lock file, and process 1 takes it over. -/
def reclaimedFromDead : List (StoreEvent Nat) :=
  [.call 0 countUp, .call 1 countUp] ++ steps 0 4 ++ [.die 0] ++ steps 1 15 ++ [.snapshot]

theorem steps_meet (p n : Nat) : ∀ e ∈ steps p n, ∀ w : StoreWorld Nat, e.Meets w := by
  intro e mem w
  rw [List.eq_of_mem_replicate mem]
  trivial

theorem serialized_reclaimed_from_dead :
    (runStore countHost (.start none) reclaimedFromDead).commits = [(1, 1)] ∧
      Serialized countHost none reclaimedFromDead := by
  refine ⟨by rfl, transactions_serializable countHost none reclaimedFromDead ?_⟩
  have called : Observes (StoreWorld.step countHost) (fun w event => event.Meets w) (.start none)
      [.call 0 countUp, .call 1 countUp] :=
    (observes_nil.snoc (e := StoreEvent.call 0 countUp) trivial).snoc (e := StoreEvent.call 1 countUp) trivial
  have unguarded : (runStore countHost (.start none)
      ([.call 0 countUp, .call 1 countUp] ++ steps 0 4)).guard = none := by rfl
  have died : (StoreEvent.die 0).Meets (runStore countHost (.start none)
      ([.call 0 countUp, .call 1 countUp] ++ steps 0 4)) := by
    intro q guarded
    rw [unguarded] at guarded
    cases guarded
  have reclaimed := ((called.append (steps_meet 0 4)).snoc died).append (steps_meet 1 15)
  exact reclaimed.snoc (e := StoreEvent.snapshot) trivial

end Lost

end Slide.Memory
