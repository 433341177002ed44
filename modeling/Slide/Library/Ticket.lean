import Mathlib.Data.List.Nodup

/-!
# Single-use tickets

Each place `k` names at most one ticket, issued for an epoch of that place.  A ticket is drawn
fresh, can be withdrawn, and is spent by redeeming it.  However the operations interleave, a ticket
is redeemed at most once, at its own place and for its own epoch.
-/

namespace Ticket

open List

variable {κ ε τ : Type*}

inductive Op (κ ε τ : Type*)
  | issue (place : κ) (epoch : ε) (ticket : τ)
  | withdraw (place : κ)
  | redeem (place : κ) (epoch : ε) (ticket : τ)

/-- The ticket each place names, and every ticket ever drawn. -/
structure Book (κ ε τ : Type*) where
  named : κ → Option (ε × τ)
  drawn : List τ

def Book.empty : Book κ ε τ := ⟨fun _ => none, []⟩

def Op.issued : Op κ ε τ → Option (κ × ε × τ)
  | .issue k e t => some (k, e, t)
  | _ => none

def Op.redeemed : Op κ ε τ → Option (κ × ε × τ)
  | .redeem k e t => some (k, e, t)
  | _ => none

/-- What a book says about its history: who was issued what, and what is spent. -/
structure Kept (issued redeemed : List (κ × ε × τ)) (b : Book κ ε τ) : Prop where
  drawn : ∀ {k e t}, (k, e, t) ∈ issued → t ∈ b.drawn
  once : (issued.map (·.2.2)).Nodup
  named : ∀ {k e t}, b.named k = some (e, t) →
    (k, e, t) ∈ issued ∧ t ∉ redeemed.map (·.2.2)
  own : ∀ {k e t}, (k, e, t) ∈ redeemed → (k, e, t) ∈ issued
  spent : (redeemed.map (·.2.2)).Nodup

variable {b b' : Book κ ε τ} {op : Op κ ε τ} {ops : List (Op κ ε τ)}
  {issued redeemed : List (κ × ε × τ)} {k k' : κ} {e e' : ε} {t : τ}

theorem Kept.empty : Kept [] [] (Book.empty : Book κ ε τ) where
  drawn := nofun
  once := .nil
  named := nofun
  own := nofun
  spent := .nil

/-- A ticket belongs to one place and one epoch. -/
theorem Kept.unique (kept : Kept issued redeemed b) (left : (k, e, t) ∈ issued)
    (right : (k', e', t) ∈ issued) : k = k' ∧ e = e' := by
  have same := inj_on_of_nodup_map kept.once left right rfl
  simpa using same

section Steps

variable [DecidableEq κ]

def Book.name (b : Book κ ε τ) (k : κ) (t : Option (ε × τ)) : Book κ ε τ :=
  { b with named := Function.update b.named k t }

inductive Step : Book κ ε τ → Op κ ε τ → Book κ ε τ → Prop
  | issue {b : Book κ ε τ} {k : κ} {e : ε} {t : τ} : t ∉ b.drawn →
    Step b (.issue k e t) { b.name k (some (e, t)) with drawn := t :: b.drawn }
  | withdraw {b : Book κ ε τ} {k : κ} : Step b (.withdraw k) (b.name k none)
  | redeem {b : Book κ ε τ} {k : κ} {e : ε} {t : τ} : b.named k = some (e, t) →
    Step b (.redeem k e t) (b.name k none)

theorem Book.named_name {b : Book κ ε τ} {k k' : κ} {t : Option (ε × τ)} :
    (b.name k t).named k' = if k' = k then t else b.named k' := by
  simp only [Book.name, Function.update_apply]

/-- What a place names after a place was cleared, it named before. -/
theorem Book.of_named_clear (named : (b.name k none).named k' = some (e, t)) :
    k' ≠ k ∧ b.named k' = some (e, t) := by
  rw [Book.named_name] at named
  split at named
  next => cases named
  next differ => exact ⟨differ, named⟩

theorem Kept.step (kept : Kept issued redeemed b) (step : Step b op b') :
    Kept (issued ++ op.issued.toList) (redeemed ++ op.redeemed.toList) b' := by
  cases step with
  | @issue k e t fresh =>
    have unissued : ∀ {k e}, (k, e, t) ∉ issued := fun mem => fresh (kept.drawn mem)
    simp only [Op.issued, Op.redeemed, Option.toList_some, Option.toList_none, append_nil]
    refine ⟨?_, ?_, ?_, ?_, kept.spent⟩
    · intro k' e' t' mem
      rcases mem_append.mp mem with earlier | last
      · exact mem_cons_of_mem _ (kept.drawn earlier)
      · cases mem_singleton.mp last
        exact mem_cons_self
    · rw [map_append, nodup_append]
      refine ⟨kept.once, nodup_singleton _, ?_⟩
      intro t' mem t'' last same
      obtain ⟨⟨k', e', t'⟩, earlier, rfl⟩ := mem_map.mp mem
      obtain rfl := mem_singleton.mp last
      subst same
      exact unissued earlier
    · intro k' e' t' named
      change (b.name k (some (e, t))).named k' = some (e', t') at named
      rw [Book.named_name] at named
      split at named
      next same =>
        cases named
        refine ⟨mem_append_right _ (by rw [same]; exact mem_singleton_self _), ?_⟩
        intro mem
        obtain ⟨⟨k₀, e₀, t₀⟩, earlier, rfl⟩ := mem_map.mp mem
        exact unissued (kept.own earlier)
      next =>
        obtain ⟨mem, unspent⟩ := kept.named named
        exact ⟨mem_append_left _ mem, unspent⟩
    · exact fun mem => mem_append_left _ (kept.own mem)
  | @withdraw k =>
    simp only [Op.issued, Op.redeemed, Option.toList_none, append_nil]
    exact ⟨kept.drawn, kept.once, fun named => kept.named (Book.of_named_clear named).2,
      kept.own, kept.spent⟩
  | @redeem k e t held =>
    simp only [Op.issued, Op.redeemed, Option.toList_some, Option.toList_none, append_nil]
    obtain ⟨mine, unspent⟩ := kept.named held
    refine ⟨kept.drawn, kept.once, ?_, ?_, ?_⟩
    · intro k' e' t' named
      obtain ⟨differ, before⟩ := Book.of_named_clear named
      obtain ⟨mem, unspent'⟩ := kept.named before
      refine ⟨mem, ?_⟩
      rw [map_append, mem_append, not_or]
      refine ⟨unspent', fun last => ?_⟩
      obtain rfl := mem_singleton.mp last
      exact differ (kept.unique mem mine).1
    · intro k' e' t' mem
      rcases mem_append.mp mem with earlier | last
      · exact kept.own earlier
      · cases mem_singleton.mp last
        exact mine
    · rw [map_append, nodup_append]
      refine ⟨kept.spent, nodup_singleton _, ?_⟩
      intro t' mem t'' last same
      obtain rfl := mem_singleton.mp last
      exact unspent (same ▸ mem)

end Steps

end Ticket
