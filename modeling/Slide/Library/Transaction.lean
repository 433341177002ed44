import Slide.Library.Fallible

/-!
# Transactions

The body of a transaction reads and writes a state, or fails and leaves it.  Its commit takes effect or
does not, and its caller may not learn that it did.

* `bind_ok` and the lemmas of `ensure`, `need`, `reading` and `write`: a body that is through, step by step.
* `savepoint`: a part that gives up, or whose failure is caught, leaves the state of its start.
* `Keeps`: a body relates the state before it and after it, whenever it is through.
* `perform`: a body with its commit; `perform_cases`, `perform_keeps`: what it can leave.
-/

namespace Transaction

variable {σ ε α β : Type}

/-- A body over the states `σ`, which fails with an `ε`. -/
abbrev Body (σ ε α : Type) := StateT σ (Except ε) α

def ensure (c : Prop) [Decidable c] (e : ε) : Body σ ε Unit := fun s => if c then .ok ((), s) else .error e

def need (value : Option α) (e : ε) : Body σ ε α := fun s =>
  match value with
  | some a => .ok (a, s)
  | none => .error e

def reading (f : σ → α) : Body σ ε α := fun s => .ok (f s, s)

def write (f : σ → σ) : Body σ ε Unit := fun s => .ok ((), f s)

section Steps

variable {s s' : σ} {a : α} {b : β} {e : ε} {f : α → Body σ ε β}

theorem bind_ok {x : Body σ ε α} :
    (x >>= f) s = .ok (b, s') ↔ ∃ a s₁, x s = .ok (a, s₁) ∧ f a s₁ = .ok (b, s') := by
  constructor
  · intro ran
    obtain ⟨⟨a, s₁⟩, first, rest⟩ := bind_eq_ok.mp ran
    exact ⟨a, s₁, first, rest⟩
  · rintro ⟨a, s₁, first, rest⟩
    exact bind_eq_ok.mpr ⟨(a, s₁), first, rest⟩

/-- A body whose first part is through goes on from there. -/
theorem bind_of_ok {x : Body σ ε α} {t : σ} (first : x s = .ok (a, t)) : (x >>= f) s = f a t := by
  change Except.bind (x s) _ = _
  rw [first]
  rfl

theorem pure_ok {a' : α} : (pure a : Body σ ε α) s = .ok (a', s') ↔ a' = a ∧ s' = s := by
  refine ⟨fun same => ?_, ?_⟩
  · cases same
    exact ⟨rfl, rfl⟩
  · rintro ⟨rfl, rfl⟩
    rfl

theorem ensure_ok {c : Prop} [Decidable c] {u : Unit} :
    (ensure c e : Body σ ε Unit) s = .ok (u, s') ↔ c ∧ s' = s := by
  unfold ensure
  constructor
  · intro ran
    split at ran
    · cases ran
      exact ⟨‹c›, rfl⟩
    · cases ran
  · rintro ⟨holds, rfl⟩
    exact if_pos holds

theorem ensure_bind_ok {c : Prop} [Decidable c] {f : Unit → Body σ ε β} :
    (ensure c e >>= f) s = .ok (b, s') ↔ c ∧ f () s = .ok (b, s') := by
  rw [bind_ok]
  constructor
  · rintro ⟨u, s₁, first, rest⟩
    obtain ⟨holds, rfl⟩ := ensure_ok.mp first
    exact ⟨holds, rest⟩
  · rintro ⟨holds, rest⟩
    exact ⟨(), s, ensure_ok.mpr ⟨holds, rfl⟩, rest⟩

theorem need_bind_ok {value : Option α} :
    (need value e >>= f) s = .ok (b, s') ↔ ∃ a, value = some a ∧ f a s = .ok (b, s') := by
  rw [bind_ok]
  constructor
  · rintro ⟨a, s₁, first, rest⟩
    cases value with
    | none => cases first
    | some a =>
      cases first
      exact ⟨a, rfl, rest⟩
  · rintro ⟨a, rfl, rest⟩
    exact ⟨a, s, rfl, rest⟩

theorem reading_bind_ok {g : σ → α} :
    (reading g >>= f) s = .ok (b, s') ↔ f (g s) s = .ok (b, s') := Iff.rfl

theorem write_bind_ok {g : σ → σ} {f : Unit → Body σ ε β} :
    (write g >>= f) s = .ok (b, s') ↔ f () (g s) = .ok (b, s') := Iff.rfl

theorem write_ok {g : σ → σ} {u : Unit} : (write g : Body σ ε Unit) s = .ok (u, s') ↔ s' = g s := by
  refine ⟨fun same => ?_, ?_⟩
  · cases same
    rfl
  · rintro rfl
    rfl

end Steps

/-! ## Savepoints -/

/-- A part of a body under a savepoint: it is kept, or rolled back where it gives up or where its
failure is one that the body catches. -/
def savepoint (caught : ε → Option β) (x : Body σ ε (α ⊕ β)) : Body σ ε (α ⊕ β) := fun s =>
  match x s with
  | .ok (.inl a, s') => .ok (.inl a, s')
  | .ok (.inr b, _) => .ok (.inr b, s)
  | .error e =>
    match caught e with
    | some b => .ok (.inr b, s)
    | none => .error e

section Savepoint

variable {caught : ε → Option β} {x : Body σ ε (α ⊕ β)} {s s' : σ}

theorem savepoint_inl {a : α} (ran : savepoint caught x s = .ok (.inl a, s')) :
    x s = .ok (.inl a, s') := by
  unfold savepoint at ran
  split at ran
  · cases ran
    assumption
  · cases ran
  · split at ran <;> cases ran

/-- A part that is rolled back leaves nothing. -/
theorem savepoint_inr {b : β} (ran : savepoint caught x s = .ok (.inr b, s')) :
    s' = s ∧ ((∃ s₁, x s = .ok (.inr b, s₁)) ∨ ∃ e, x s = .error e ∧ caught e = some b) := by
  unfold savepoint at ran
  split at ran
  · cases ran
  next b' s₁ given =>
    cases ran
    exact ⟨rfl, .inl ⟨s₁, given⟩⟩
  next e failed =>
    split at ran
    next b' catches =>
      cases ran
      exact ⟨rfl, .inr ⟨e, failed, catches⟩⟩
    next => cases ran

end Savepoint

/-! ## What a body keeps -/

/-- A body that is through has gone from a state to a related one. -/
def Keeps (R : σ → σ → Prop) (body : Body σ ε α) : Prop := ∀ s a s', body s = .ok (a, s') → R s s'

section Keeps

variable {R : σ → σ → Prop} [Std.Refl R] [IsTrans σ R] {a : α} {e : ε}

omit [Std.Refl R] in
theorem Keeps.bind {x : Body σ ε α} {f : α → Body σ ε β} (first : Keeps R x) (rest : ∀ a, Keeps R (f a)) :
    Keeps R (x >>= f) := by
  intro s b s' ran
  obtain ⟨a, s₁, ran, after⟩ := Transaction.bind_ok.mp ran
  exact trans_of R (first s a s₁ ran) (rest a s₁ b s' after)

omit [IsTrans σ R]

theorem Keeps.pure : Keeps (ε := ε) R (pure a : Body σ ε α) := by
  intro s b s' ran
  obtain ⟨-, rfl⟩ := pure_ok.mp ran
  exact refl_of R s'

theorem Keeps.ensure {c : Prop} [Decidable c] : Keeps R (ensure c e : Body σ ε Unit) := by
  intro s u s' ran
  obtain ⟨-, rfl⟩ := ensure_ok.mp ran
  exact refl_of R s'

theorem Keeps.need {value : Option α} : Keeps R (need value e : Body σ ε α) := by
  intro s a s' ran
  cases value with
  | none => cases ran
  | some b =>
    cases ran
    exact refl_of R s

theorem Keeps.reading {f : σ → α} : Keeps R (reading f : Body σ ε α) := by
  intro s a s' ran
  cases ran
  exact refl_of R s

omit [Std.Refl R] in
/-- What follows a body that only looks starts where it did. -/
theorem Keeps.bind_ok {x : Body σ ε α} {f : α → Body σ ε β} {s s' : σ} {b : β} (silent : Keeps Eq x)
    (ran : (x >>= f) s = .ok (b, s')) : ∃ a, x s = .ok (a, s) ∧ f a s = .ok (b, s') := by
  obtain ⟨a, s₁, first, rest⟩ := Transaction.bind_ok.mp ran
  obtain rfl := silent s a s₁ first
  exact ⟨a, first, rest⟩

/-- A body that only looks keeps everything. -/
theorem Keeps.of_eq {body : Body σ ε α} (silent : Keeps Eq body) : Keeps R body := by
  intro s a s' ran
  rw [← silent s a s' ran]
  exact refl_of R s

omit [Std.Refl R] in
theorem Keeps.write {f : σ → σ} (each : ∀ s, R s (f s)) : Keeps R (write f : Body σ ε Unit) := by
  intro s u s' ran
  rw [write_ok.mp ran]
  exact each s

end Keeps

/-! ## Commits -/

/-- A commit takes effect, or the transaction is rolled back, or nobody learns that it took effect. -/
inductive Commit
  | done | refused | lost
deriving DecidableEq

/-- What the caller gets of a transaction, and the state after it. -/
def perform (body : Body σ ε α) (commit : Commit) (s : σ) : Option α × σ :=
  match body s with
  | .error _ => (none, s)
  | .ok (a, s') =>
    match commit with
    | .done => (some a, s')
    | .refused => (none, s)
    | .lost => (none, s')

section Commits

variable {body : Body σ ε α} {commit : Commit} {s : σ} {a : α}

/-- A transaction is as if it had not been, or its body was through. -/
theorem perform_cases :
    perform body commit s = (none, s) ∨
      ∃ a s', body s = .ok (a, s') ∧
        (perform body commit s = (some a, s') ∨ perform body commit s = (none, s')) := by
  unfold perform
  split
  · exact .inl rfl
  · rename_i a s' ran
    cases commit with
    | done => exact .inr ⟨a, s', ran, .inl rfl⟩
    | refused => exact .inl rfl
    | lost => exact .inr ⟨a, s', ran, .inr rfl⟩

/-- What the caller gets is what the body has answered. -/
theorem perform_some (got : (perform body commit s).1 = some a) :
    body s = .ok (a, (perform body commit s).2) := by
  rcases @perform_cases _ _ _ body commit s with same | ⟨a', s', ran, same | same⟩
  · rw [same] at got
    cases got
  · rw [same] at got ⊢
    cases got
    exact ran
  · rw [same] at got
    cases got

/-- A property that the state has, and that a body which is through gives it, holds after it. -/
theorem perform_keeps {P : σ → Prop} (before : P s) (through : ∀ a s', body s = .ok (a, s') → P s') :
    P (perform body commit s).2 := by
  rcases @perform_cases _ _ _ body commit s with same | ⟨a, s', ran, same | same⟩
  · exact same ▸ before
  · exact same ▸ through a s' ran
  · exact same ▸ through a s' ran

end Commits

end Transaction
