import Mathlib.Data.List.Basic

/-!
# The lease of the singleton workers

`WorkerLease` of `lifecycle/worker-lease.ts`: the row of one lease name, and any number of owners whose
statements come in any order.  Times are the seconds of `NOW()`; `ttl` is the `ttlSeconds` of an owner.
-/

namespace Slide.Lifecycle

open List

/-- A row of `worker_leases`. -/
structure LeaseRow where
  ownerId : String
  (fencingToken expiresAt : Nat)

structure LeaseTable where
  now : Nat
  row : Option LeaseRow := none

inductive LeaseStatement
  | tick (seconds : Nat)
  /-- The upsert of `acquire`. -/
  | acquire (ownerId : String)
  | renew (ownerId : String)
  | release (ownerId : String)

variable (ttl : String → Nat) (t : LeaseTable)

/-- The row is the owner's with `expires_at > NOW()`: the answer of `acquire` after its upsert, and that
of `renew`. -/
def LeaseTable.held (ownerId : String) : Bool :=
  t.row.any fun row => t.now < row.expiresAt && row.ownerId == ownerId

/-- `ON DUPLICATE KEY UPDATE`: every assignment tests the `expires_at` from before. -/
def LeaseTable.takeOver (ownerId : String) (row : LeaseRow) : LeaseRow :=
  if row.expiresAt < t.now then ⟨ownerId, row.fencingToken + 1, t.now + ttl ownerId⟩ else row

def LeaseTable.step : LeaseStatement → LeaseTable
  | .tick seconds => { t with now := t.now + seconds }
  | .acquire ownerId =>
    { t with row := some (t.row.elim ⟨ownerId, 1, t.now + ttl ownerId⟩ (t.takeOver ttl ownerId)) }
  | .renew ownerId =>
    if t.held ownerId then
      { t with row := t.row.map fun row => { row with expiresAt := t.now + ttl ownerId } }
    else t
  | .release ownerId => { t with row := t.row.filter (·.ownerId ≠ ownerId) }

variable {ttl t} {e : LeaseStatement} {row : LeaseRow}

/-- No row ends later than its owner's time to live from now. -/
def LeaseTable.Limited (ttl : String → Nat) (t : LeaseTable) : Prop :=
  ∀ row, t.row = some row → row.expiresAt ≤ t.now + ttl row.ownerId

/-- The lease is still the owner's, under its token, and does not end earlier. -/
def LeaseRow.Stays (row : LeaseRow) (t : LeaseTable) : Prop :=
  ∃ later, t.row = some later ∧ later.ownerId = row.ownerId ∧ later.fencingToken = row.fencingToken ∧
    row.expiresAt ≤ later.expiresAt

theorem LeaseTable.Limited.step (limited : t.Limited ttl) : (t.step ttl e).Limited ttl := by
  unfold Limited at limited ⊢
  cases e <;> cases found : t.row <;> grind [LeaseTable.step, takeOver, held]

theorem LeaseRow.Stays.step (stays : row.Stays t) (limited : t.Limited ttl)
    (kept : e ≠ .release row.ownerId) (within : t.now ≤ row.expiresAt) : row.Stays (t.step ttl e) := by
  obtain ⟨later, at_, owner, token, more⟩ := stays
  have ends := limited later at_
  unfold Stays
  cases e <;> grind [LeaseTable.step, LeaseTable.takeOver, LeaseTable.held]

theorem LeaseTable.now_le_run (es : List LeaseStatement) : t.now ≤ (es.foldl (step ttl) t).now := by
  refine foldlRecOn (motive := fun s : LeaseTable => t.now ≤ s.now) es _ (Nat.le_refl _) fun s before e _ => ?_
  cases e <;> grind [step]

theorem LeaseRow.Stays.run {es : List LeaseStatement} (stays : row.Stays t) (limited : t.Limited ttl)
    (kept : .release row.ownerId ∉ es) (within : (es.foldl (LeaseTable.step ttl) t).now ≤ row.expiresAt) :
    row.Stays (es.foldl (LeaseTable.step ttl) t) := by
  induction es generalizing t with
  | nil => exact stays
  | cons e es ih =>
    rw [mem_cons, not_or] at kept
    have now := Nat.le_trans (LeaseTable.now_le_run (e :: es)) within
    exact ih (stays.step limited (Ne.symm kept.1) now) limited.step kept.2 within

theorem LeaseTable.held_acquire {p : String} (ended : ∀ row, t.row = some row → row.expiresAt < t.now)
    (positive : 0 < ttl p) : (t.step ttl (.acquire p)).held p = true := by
  cases found : t.row <;> grind [step, takeOver, held]

end Slide.Lifecycle
