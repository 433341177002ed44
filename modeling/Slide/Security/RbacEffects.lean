import Slide.Security.RbacSessions

/-!
# What an operation that succeeds leaves

An assignment leaves the role held exactly when there is a user and a role to grant and a grant that is
there has not run out since the update that would have renewed it.  A replacement leaves exactly the
requested roles when no requested role has a grant that has run out.
-/

namespace Slide.Security.Rbac

open Transaction Guarded

section Effects

variable {c : Circumstances} {t m : Tables} {now later : Int} {userId roleId : Nat} {changed : Bool}

theorem mem_roleIds_of_stored {expiry : Option Int} {k : Nat}
    (stored : m.userRoles.get (userId, k) = some expiry) (role : (m.roles.get k).isSome) :
    k ∈ m.toRights.effectiveRoleIds later userId ↔ active expiry later = true := by
  rw [mem_effectiveRoleIds]
  constructor
  · rintro ⟨⟨other, same, holds⟩, -⟩
    rwa [some.inj (stored.symm.trans same)]
  · intro holds
    obtain ⟨row, found⟩ := Option.isSome_iff_exists.mp role
    exact ⟨⟨expiry, stored, holds⟩, row.name, by rw [Rights.roleName, found]; rfl⟩

theorem notMem_roleIds_of_absent {k : Nat} (absent : m.userRoles.get (userId, k) = none) :
    k ∉ m.toRights.effectiveRoleIds later userId := by
  intro mem
  obtain ⟨⟨expiry, stored, -⟩, -⟩ := mem_effectiveRoleIds.mp mem
  rw [absent] at stored
  cases stored

/-- There is a user and a role to grant, and the grant does not run out between two instants. -/
structure Grantable (userId roleId : Nat) (now later : Int) (t : Tables) : Prop where
  user : (t.users.get userId).isSome
  role : (t.roles.get roleId).isSome
  lasts : ∀ limit, t.userRoles.get (userId, roleId) = some (some limit) →
    ¬(now < limit ∧ limit ≤ later)

theorem Grants.held_iff (consistent : t.Consistent) (grants : Grants userId roleId now t changed m) :
    roleId ∈ m.toRights.effectiveRoleIds later userId ↔ Grantable userId roleId now later t := by
  cases grants with
  | made _ granted lapsed =>
    have role := granted.role consistent
    refine iff_of_true ?_ ⟨granted.user consistent, role, fun limit stored open_ => ?_⟩
    · have stored : m.userRoles.get (userId, roleId) = some none := by rw [granted.userRoles, if_pos rfl]
      exact (mem_roleIds_of_stored stored (granted.roles ▸ role)).mpr rfl
    · exact of_decide_eq_false (lapsed _ stored) open_.1
  | nothing absent missing =>
    refine iff_of_false (notMem_roleIds_of_absent absent) fun grantable => ?_
    rcases missing with missing | missing
    · exact absurd grantable.user (by simp [missing])
    · exact absurd grantable.role (by simp [missing])
  | kept expiry stored holds =>
    obtain ⟨user, role⟩ := (Tables.consistent_iff.mp consistent).1 userId roleId expiry stored
    rw [mem_roleIds_of_stored stored role]
    cases expiry with
    | none =>
      refine iff_of_true rfl ⟨user, role, fun limit same => ?_⟩
      cases stored.symm.trans same
    | some limit =>
      have after : now < limit := of_decide_eq_true holds
      constructor
      · intro still
        refine ⟨user, role, fun other same open_ => ?_⟩
        cases stored.symm.trans same
        have later_ : later < limit := of_decide_eq_true still
        omega
      · intro grantable
        have lasts := grantable.lasts limit stored
        exact decide_eq_true (by omega)

/-- No requested role has a grant that has run out. -/
def Unexpired (userId : Nat) (roleIds : List Nat) (later : Int) (t : Tables) : Prop :=
  ∀ k ∈ roleIds, ∀ expiry, t.userRoles.get (userId, k) = some expiry → active expiry later = true

theorem Replaced.held_iff {roleIds : List Nat} (replaced : Replaced userId roleIds t m) :
    (∀ k, k ∈ m.toRights.effectiveRoleIds later userId ↔ k ∈ roleIds) ↔
      Unexpired userId roleIds later t := by
  have requested {k : Nat} (mem : k ∈ roleIds) : k ∈ m.toRights.effectiveRoleIds later userId ↔
      active ((t.userRoles.get (userId, k)).getD none) later = true := by
    refine mem_roleIds_of_stored ?_ ?_
    · rw [replaced.rewritten.userRoles, Rbac.replaced, if_pos mem]
    · rw [replaced.rewritten.beyond.roles]
      exact replaced.roles k mem
  constructor
  · intro exact_ k mem expiry stored
    have held := (requested mem).mp ((exact_ k).mpr mem)
    rwa [stored] at held
  · intro unexpired k
    by_cases mem : k ∈ roleIds
    · refine iff_of_true ((requested mem).mpr ?_) mem
      cases stored : t.userRoles.get (userId, k) with
      | none => rfl
      | some expiry => exact unexpired k mem expiry stored
    · refine iff_of_false (notMem_roleIds_of_absent ?_) mem
      rw [replaced.rewritten.userRoles, Rbac.replaced, if_neg mem]

/-! ## Operations that are through -/

theorem Outcome.mutated {mutation : Sql Bool} {outcome : Result × Tables}
    (given : Outcome (mutateUserRoleAndRevokeSessions c userId mutation) t outcome)
    (succeeds : outcome.1.success = true) :
    ∃ changed m, mutation ⟨t, 1⟩ = .ok (changed, m) ∧ outcome.2.toRights = m.tables.toRights := by
  cases given with
  | failed result fails =>
    rw [fails] at succeeds
    cases succeeds
  | done result s _ ran =>
    obtain ⟨changed, m, mutated, ended⟩ := mutateUserRole_ok ran
    exact ⟨changed, m, mutated, ended.rights⟩

theorem assignRoleToUser_held_iff (consistent : t.Consistent)
    (succeeds : (assignRoleToUser c userId roleId t).1.success = true) :
    roleId ∈ (assignRoleToUser c userId roleId t).2.toRights.effectiveRoleIds later userId ↔
      Grantable userId roleId (c.clock 2) later t := by
  obtain ⟨changed, m, granted, rights⟩ := answer_outcome.mutated succeeds
  rw [assignRoleToUser, rights]
  exact (grant_ok granted).held_iff consistent

theorem revokeRoleFromUser_not_held (succeeds : (revokeRoleFromUser c userId roleId t).1.success = true) :
    roleId ∉ (revokeRoleFromUser c userId roleId t).2.toRights.effectiveRoleIds later userId := by
  obtain ⟨changed, m, deleted, rights⟩ := answer_outcome.mutated succeeds
  obtain ⟨-, -, rfl⟩ := affectsRows_ok.mp deleted
  rw [revokeRoleFromUser, rights]
  refine notMem_roleIds_of_absent ?_
  rw [get_deleteUserRole, if_pos rfl]

theorem replaceUserRoles_held_iff {roleIds expectedRoleIds : List Nat}
    (succeeds : (replaceUserRoles c userId roleIds expectedRoleIds t).1.success = true) :
    (∀ k, k ∈ (replaceUserRoles c userId roleIds expectedRoleIds t).2.toRights.effectiveRoleIds
      later userId ↔ k ∈ roleIds) ↔ Unexpired userId roleIds later t := by
  obtain ⟨changed, m, ran, rights⟩ := replaceUserRoles_outcome.mutated succeeds
  rw [rights]
  exact (replaceGrants_ok ran).1.held_iff

end Effects

end Slide.Security.Rbac
