import Slide.Security.RbacSteps

/-!
# The mutations of the operations

Each mutation of a role is confined to it, each mutation of a user's roles to the user, and both keep the
foreign keys.  From this `Advances`: the rights of a user do not move without the user's sessions.
-/

namespace Slide.Security.Rbac

open Transaction List

/-! ## Changes of a role -/

def RoleChange (roleId : Nat) (t m : Tables) : Prop :=
  BeyondRole roleId t m ∧ (t.Consistent → m.Consistent)

def UserChange (userId : Nat) (t m : Tables) : Prop :=
  BeyondUser userId t m ∧ (t.Consistent → m.Consistent)

section RoleChanges

variable {t : Tables} {roleId permissionId : Nat}

theorem RoleChange.refl : RoleChange roleId t t :=
  ⟨⟨rfl, rfl, fun _ _ => rfl, fun _ _ _ => rfl, fun _ _ _ => rfl, fun _ _ stored => stored⟩, id⟩

theorem updateRoleRow_change {name : Option String} {description : Option (Option String)} :
    RoleChange roleId t (updateRoleRow roleId name description t).2 := by
  refine ⟨⟨rfl, rfl, fun k other => Table.get_updateWhere_ne other, fun _ _ _ => rfl, fun _ _ _ => rfl,
    fun _ _ stored => stored⟩, fun consistent => ?_⟩
  obtain ⟨userRoles, rolePermissions⟩ := Tables.consistent_iff.mp consistent
  have kept (k : Nat) (found : (t.roles.get k).isSome) :
      ((updateRoleRow roleId name description t).2.roles.get k).isSome := by
    change (Table.get (Table.updateWhere _ _ _ _).1 k).isSome
    rw [Table.get_updateWhere]
    split
    next same => rwa [Option.isSome_map, ← same]
    next => exact found
  refine Tables.consistent_iff.mpr ⟨fun u k expiry stored => ?_, fun k p stored => ?_⟩
  · obtain ⟨user, role⟩ := userRoles u k expiry stored
    exact ⟨user, kept k role⟩
  · obtain ⟨role, permission⟩ := rolePermissions k p stored
    exact ⟨kept k role, permission⟩

theorem insertIgnoreRolePermission_change :
    RoleChange roleId t (insertIgnoreRolePermission roleId permissionId t).2 := by
  unfold insertIgnoreRolePermission
  split
  · exact .refl
  next new =>
    simp only [not_or] at new
    obtain ⟨-, role, permission⟩ := new
    refine ⟨⟨rfl, rfl, fun _ _ => rfl, fun k p other => ?_, fun _ _ _ => rfl, fun _ _ stored => stored⟩,
      fun consistent => ?_⟩
    · exact Table.get_put_ne fun same => other (Prod.mk.inj same).1
    · obtain ⟨userRoles, rolePermissions⟩ := Tables.consistent_iff.mp consistent
      refine Tables.consistent_iff.mpr ⟨userRoles, fun k p stored => ?_⟩
      change Table.get (Table.put _ _ _) _ = _ at stored
      rw [Table.get_put] at stored
      split at stored
      next same =>
        cases same
        exact ⟨Option.isSome_iff_ne_none.mpr role, Option.isSome_iff_ne_none.mpr permission⟩
      next => exact rolePermissions k p stored

theorem of_left {α : Type} {gone : Prop} [Decidable gone] {value : Option α} {a : α}
    (left : (if gone then none else value) = some a) : ¬gone ∧ value = some a := by
  split at left
  next => cases left
  next spared => exact ⟨spared, left⟩

theorem deleteRolePermission_change :
    RoleChange roleId t (deleteRolePermission roleId permissionId t).2 := by
  have granted (k p : Nat) : (deleteRolePermission roleId permissionId t).2.rolePermissions.get (k, p) =
      if (k, p) = (roleId, permissionId) then none else t.rolePermissions.get (k, p) :=
    Table.get_deleteWhere_key (· = (roleId, permissionId))
  refine ⟨⟨rfl, rfl, fun _ _ => rfl, fun k p other => ?_, fun _ _ _ => rfl, fun _ _ stored => stored⟩,
    fun consistent => ?_⟩
  · rw [granted, if_neg fun same => other (Prod.mk.inj same).1]
  · obtain ⟨userRoles, rolePermissions⟩ := Tables.consistent_iff.mp consistent
    refine Tables.consistent_iff.mpr ⟨userRoles, fun k p stored => ?_⟩
    rw [granted] at stored
    exact rolePermissions k p (of_left stored).2

theorem deleteRoleRow_change : RoleChange roleId t (deleteRoleRow roleId t).2 := by
  have roles (k : Nat) : (deleteRoleRow roleId t).2.roles.get k =
      if k = roleId then none else t.roles.get k :=
    Table.get_deleteWhere_key (· = roleId)
  have granted (k p : Nat) : (deleteRoleRow roleId t).2.rolePermissions.get (k, p) =
      if k = roleId then none else t.rolePermissions.get (k, p) :=
    Table.get_deleteWhere_key fun key : Nat × Nat => key.1 = roleId
  have grants (u k : Nat) : (deleteRoleRow roleId t).2.userRoles.get (u, k) =
      if k = roleId then none else t.userRoles.get (u, k) :=
    Table.get_deleteWhere_key fun key : Nat × Nat => key.2 = roleId
  refine ⟨⟨rfl, rfl, fun k other => ?_, fun k p other => ?_, fun u k other => ?_,
    fun u expiry stored => ?_⟩, fun consistent => ?_⟩
  · rw [roles, if_neg other]
  · rw [granted, if_neg other]
  · rw [grants, if_neg other]
  · rw [grants] at stored
    exact (of_left stored).2
  · obtain ⟨userRoles, rolePermissions⟩ := Tables.consistent_iff.mp consistent
    -- A grant that is left is not one of the role.
    refine Tables.consistent_iff.mpr ⟨fun u k expiry stored => ?_, fun k p stored => ?_⟩
    · rw [grants] at stored
      obtain ⟨other, stored⟩ := of_left stored
      rw [roles, if_neg other]
      exact userRoles u k expiry stored
    · rw [granted] at stored
      obtain ⟨other, stored⟩ := of_left stored
      rw [roles, if_neg other]
      exact rolePermissions k p stored

theorem updateRoleRow_idle {name : Option String} {description : Option (Option String)}
    (idle : (updateRoleRow roleId name description t).1 = 0) :
    (updateRoleRow roleId name description t).2 = t := by
  unfold updateRoleRow at idle ⊢
  simp only at idle ⊢
  rw [Table.updateWhere_of_not_affected (by omega)]

theorem insertIgnoreRolePermission_idle
    (idle : (insertIgnoreRolePermission roleId permissionId t).1 = 0) :
    (insertIgnoreRolePermission roleId permissionId t).2 = t := by
  unfold insertIgnoreRolePermission at idle ⊢
  split
  · rfl
  next new =>
    rw [if_neg new] at idle
    cases idle

theorem deleteRolePermission_idle (idle : (deleteRolePermission roleId permissionId t).1 = 0) :
    (deleteRolePermission roleId permissionId t).2 = t := by
  have miss : (t.rolePermissions.deleteWhere fun key _ => key = (roleId, permissionId)).2 = 0 := idle
  unfold deleteRolePermission
  simp only [Table.deleteWhere_of_zero miss]

end RoleChanges

/-! ## Changes of a user's roles -/

section UserChanges

variable {c : Circumstances} {t t' : Tables} {s s' : Session} {userId roleId : Nat} {ids : List Nat}
  {x : Unit}

theorem get_deleteUserRole (u k : Nat) : (deleteUserRole userId roleId t).2.userRoles.get (u, k) =
    if (u, k) = (userId, roleId) then none else t.userRoles.get (u, k) :=
  Table.get_deleteWhere_key (· = (userId, roleId))

theorem deleteUserRole_idle (idle : (deleteUserRole userId roleId t).1 = 0) :
    (deleteUserRole userId roleId t).2 = t := by
  have miss : (t.userRoles.deleteWhere fun key _ => key = (userId, roleId)).2 = 0 := idle
  unfold deleteUserRole
  simp only [Table.deleteWhere_of_zero miss]

theorem deleteUserRole_change : UserChange userId t (deleteUserRole userId roleId t).2 := by
  have beyond : BeyondUser userId t (deleteUserRole userId roleId t).2 := by
    refine ⟨rfl, rfl, rfl, rfl, fun u k other => ?_⟩
    rw [get_deleteUserRole, if_neg fun same => other (Prod.mk.inj same).1]
  refine ⟨beyond, beyond.consistent fun consistent k expiry stored => ?_⟩
  rw [get_deleteUserRole] at stored
  exact (Tables.consistent_iff.mp consistent).1 userId k expiry (of_left stored).2

/-- The roles of a user with one more grant, or one that is renewed. -/
structure Granted (userId roleId : Nat) (t m : Tables) : Prop where
  users : m.users = t.users
  permissions : m.permissions = t.permissions
  roles : m.roles = t.roles
  rolePermissions : m.rolePermissions = t.rolePermissions
  userRoles : ∀ u k, m.userRoles.get (u, k) =
    if (u, k) = (userId, roleId) then some none else t.userRoles.get (u, k)
  user : t.Consistent → (t.users.get userId).isSome
  role : t.Consistent → (t.roles.get roleId).isSome

theorem Granted.change {m : Tables} (granted : Granted userId roleId t m) : UserChange userId t m := by
  have beyond : BeyondUser userId t m := by
    refine ⟨granted.users, granted.permissions, granted.roles, granted.rolePermissions,
      fun u k other => ?_⟩
    rw [granted.userRoles, if_neg fun same => other (Prod.mk.inj same).1]
  refine ⟨beyond, beyond.consistent fun consistent k expiry stored => ?_⟩
  rw [granted.userRoles] at stored
  split at stored
  next same =>
    obtain ⟨-, rfl⟩ := Prod.mk.inj same
    exact ⟨granted.user consistent, granted.role consistent⟩
  next => exact (Tables.consistent_iff.mp consistent).1 userId k expiry stored

/-- A grant is made, or there is nothing that it could be made of, or it is there and has not run out. -/
inductive Grants (userId roleId : Nat) (now : Int) (t : Tables) : Bool → Tables → Prop
  | made (m : Tables) (granted : Granted userId roleId t m)
      (lapsed : ∀ expiry, t.userRoles.get (userId, roleId) = some expiry → active expiry now = false) :
      Grants userId roleId now t true m
  | nothing (absent : t.userRoles.get (userId, roleId) = none)
      (missing : t.users.get userId = none ∨ t.roles.get roleId = none) :
      Grants userId roleId now t false t
  | kept (expiry : Option Int) (stored : t.userRoles.get (userId, roleId) = some expiry)
      (holds : active expiry now = true) : Grants userId roleId now t false t

theorem renewUserRole_grants (now : Int)
    (ignored : (t.userRoles.get (userId, roleId)).isSome ∨ t.users.get userId = none ∨
      t.roles.get roleId = none) :
    Grants userId roleId now t (decide ((renewUserRole userId roleId now t).1 > 0))
      (renewUserRole userId roleId now t).2 := by
  have updated : renewUserRole userId roleId now t =
      ((t.userRoles.updateWhere (userId, roleId) (fun expiry => !active expiry now) fun _ => none).2,
        { t with userRoles := (t.userRoles.updateWhere (userId, roleId)
            (fun expiry => !active expiry now) fun _ => none).1 }) := rfl
  cases stored : t.userRoles.get (userId, roleId) with
  | none =>
    rw [stored] at ignored
    have idle : t.userRoles.updateWhere (userId, roleId) (fun expiry => !active expiry now)
        (fun _ => none) = (t.userRoles, 0) := by simp [Table.updateWhere, stored]
    rw [updated, idle]
    exact .nothing stored (ignored.resolve_left Bool.false_ne_true)
  | some expiry =>
    by_cases holds : active expiry now = true
    · have idle : t.userRoles.updateWhere (userId, roleId) (fun expiry => !active expiry now)
          (fun _ => none) = (t.userRoles, 0) := by simp [Table.updateWhere, stored, holds]
      rw [updated, idle]
      exact .kept expiry stored holds
    · have renewed : t.userRoles.updateWhere (userId, roleId) (fun expiry => !active expiry now)
          (fun _ => none) = (t.userRoles.put (userId, roleId) none, 1) :=
        Table.updateWhere_of_pass stored (by simp [holds])
      rw [updated, renewed]
      refine .made _ ⟨rfl, rfl, rfl, rfl, fun u k => Table.get_put, fun consistent => ?_,
        fun consistent => ?_⟩ fun other same => ?_
      · exact ((Tables.consistent_iff.mp consistent).1 userId roleId expiry stored).1
      · exact ((Tables.consistent_iff.mp consistent).1 userId roleId expiry stored).2
      · rw [← some.inj (stored.symm.trans same)]
        exact Bool.eq_false_iff.mpr holds

theorem grant_ok {changed : Bool} (ran : grant c userId roleId s = .ok (changed, s')) :
    Grants userId roleId (c.clock (s.statements + 1)) s.tables changed s'.tables := by
  obtain ⟨-, ran⟩ := update_bind_ok.mp ran
  unfold insertIgnoreUserRole at ran
  split at ran
  next ignored =>
    rw [if_neg (Nat.lt_irrefl 0)] at ran
    obtain ⟨-, rfl, rfl⟩ := affectsRows_ok.mp ran
    exact renewUserRole_grants _ ignored
  next new =>
    rw [if_pos Nat.zero_lt_one] at ran
    obtain ⟨rfl, rfl⟩ := pure_ok.mp ran
    simp only [not_or] at new
    obtain ⟨absent, user, role⟩ := new
    refine .made _ ⟨rfl, rfl, rfl, rfl, fun u k => Table.get_put,
      fun _ => Option.isSome_iff_ne_none.mpr user, fun _ => Option.isSome_iff_ne_none.mpr role⟩
      fun expiry stored => ?_
    exact absurd (Option.isSome_of_eq_some stored) absent

theorem UserChange.refl : UserChange userId t t := ⟨⟨rfl, rfl, rfl, rfl, fun _ _ _ => rfl⟩, id⟩

theorem Grants.change {now : Int} {changed : Bool} {m : Tables}
    (grants : Grants userId roleId now t changed m) : UserChange userId t m := by
  cases grants with
  | made _ granted _ => exact granted.change
  | nothing | kept => exact .refl

theorem grant_mutates : Mutates (UserChange userId) (grant c userId roleId) := by
  intro s changed s' ran
  have grants := grant_ok ran
  refine ⟨grants.change, fun unchanged => ?_⟩
  rw [unchanged] at grants
  generalize s'.tables = m at grants ⊢
  cases grants <;> rfl

/-! ## Replacing a user's roles -/

theorem mem_storedRoleIds {k : Nat} :
    k ∈ storedRoleIds userId t ↔ (t.userRoles.get (userId, k)).isSome := by
  unfold storedRoleIds
  simp only [mem_map, mem_filter, decide_eq_true_eq, Option.isSome_iff_exists]
  constructor
  · rintro ⟨⟨⟨user, role⟩, expiry⟩, ⟨stored, rfl⟩, rfl⟩
    exact ⟨expiry, Table.mem_entries.mp stored⟩
  · rintro ⟨expiry, stored⟩
    exact ⟨((userId, k), expiry), ⟨Table.mem_entries.mpr stored, rfl⟩, rfl⟩

theorem mem_sorted {k : Nat} : k ∈ sorted ids ↔ k ∈ ids := (perm_insertionSort _ ids).mem_iff

theorem lockRoles_ok (ran : lockRoles c ids s = .ok (x, s')) :
    s'.tables = s.tables ∧ ∀ k ∈ ids, (s.tables.roles.get k).isSome := by
  induction ids generalizing s with
  | nil =>
    obtain ⟨-, rfl⟩ := pure_ok.mp ran
    exact ⟨rfl, nofun⟩
  | cons roleId rest ih =>
    obtain ⟨-, ran⟩ := select_bind_ok.mp ran
    obtain ⟨found, ran⟩ := ensure_bind_ok.mp ran
    obtain ⟨same, others⟩ := ih ran
    exact ⟨same, forall_mem_cons.mpr ⟨found, others⟩⟩

/-- The roles of a user rewritten one by one, and everything else as it was. -/
structure Rewritten (userId : Nat) (f : Nat → Option (Option Int) → Option (Option Int)) (t m : Tables) :
    Prop where
  beyond : BeyondUser userId t m
  userRoles : ∀ k, m.userRoles.get (userId, k) = f k (t.userRoles.get (userId, k))

theorem deleteGrants_ok (ran : deleteGrants c userId ids s = .ok (x, s')) :
    Rewritten userId (fun k stored => if k ∈ ids then none else stored) s.tables s'.tables := by
  induction ids generalizing s with
  | nil =>
    obtain ⟨-, rfl⟩ := pure_ok.mp ran
    exact ⟨UserChange.refl.1, fun k => (if_neg not_mem_nil).symm⟩
  | cons roleId rest ih =>
    obtain ⟨u, s₁, first, ran⟩ := bind_ok.mp ran
    obtain ⟨-, rfl⟩ := modify_ok.mp first
    obtain ⟨beyond, userRoles⟩ := ih ran
    refine ⟨⟨beyond.users, beyond.permissions, beyond.roles, beyond.rolePermissions,
      fun u k other => ?_⟩, fun k => ?_⟩
    · rw [beyond.userRoles u k other, get_deleteUserRole, if_neg fun same => other (Prod.mk.inj same).1]
    · rw [userRoles, get_deleteUserRole]
      by_cases first : k = roleId <;> by_cases later : k ∈ rest <;> simp [first, later]

theorem insertGrants_ok (ran : insertGrants c userId ids s = .ok (x, s')) :
    Rewritten userId (fun k stored => if k ∈ ids then some none else stored) s.tables s'.tables ∧
      ∀ k ∈ ids, (s.tables.users.get userId).isSome ∧ (s.tables.roles.get k).isSome := by
  induction ids generalizing s with
  | nil =>
    obtain ⟨-, rfl⟩ := pure_ok.mp ran
    exact ⟨⟨UserChange.refl.1, fun k => (if_neg not_mem_nil).symm⟩, nofun⟩
  | cons roleId rest ih =>
    obtain ⟨u, s₁, first, ran⟩ := bind_ok.mp ran
    obtain ⟨-, given, -⟩ := execute_ok.mp first
    unfold insertUserRole at given
    split at given
    next => cases given
    next new =>
    split at given
    next => cases given
    next there =>
      obtain ⟨-, inserted⟩ := Prod.mk.inj (Except.ok.inj given)
      simp only [not_or] at there
      obtain ⟨⟨beyond, userRoles⟩, others⟩ := ih ran
      rw [← inserted] at beyond userRoles others
      have put (u k : Nat) : (s.tables.userRoles.put (userId, roleId) none).get (u, k) =
          if (u, k) = (userId, roleId) then some none else s.tables.userRoles.get (u, k) := Table.get_put
      refine ⟨⟨⟨beyond.users, beyond.permissions, beyond.roles, beyond.rolePermissions,
        fun u k other => ?_⟩, fun k => ?_⟩, forall_mem_cons.mpr ⟨?_, others⟩⟩
      · rw [beyond.userRoles u k other, put, if_neg fun same => other (Prod.mk.inj same).1]
      · rw [userRoles, put]
        by_cases first : k = roleId <;> by_cases later : k ∈ rest <;> simp [first, later]
      · exact ⟨Option.isSome_iff_ne_none.mpr there.1, Option.isSome_iff_ne_none.mpr there.2⟩

/-- A requested role keeps its grant or gets one, and no other is left. -/
def replaced (roleIds : List Nat) (k : Nat) (stored : Option (Option Int)) : Option (Option Int) :=
  if k ∈ roleIds then some (stored.getD none) else none

theorem replaced_of_filters {stored roleIds : List Nat} {k : Nat} {value : Option (Option Int)}
    (known : k ∈ stored ↔ value.isSome) :
    (if k ∈ roleIds.filter (fun id => !stored.contains id) then some none
      else if k ∈ stored.filter (fun id => !roleIds.contains id) then none else value) =
      replaced roleIds k value := by
  unfold replaced
  simp only [mem_filter, contains_eq_mem, known]
  by_cases requested : k ∈ roleIds
  · cases value <;> simp [requested]
  · cases value <;> simp [requested]

/-- What a replacement that is through has found and left. -/
structure Replaced (userId : Nat) (roleIds : List Nat) (t m : Tables) : Prop where
  rewritten : Rewritten userId (replaced roleIds) t m
  user : (t.users.get userId).isSome
  roles : ∀ k ∈ roleIds, (t.roles.get k).isSome

theorem Replaced.change {roleIds : List Nat} {m : Tables} (replaced : Replaced userId roleIds t m) :
    UserChange userId t m := by
  refine ⟨replaced.rewritten.beyond, replaced.rewritten.beyond.consistent fun _ k expiry stored => ?_⟩
  rw [replaced.rewritten.userRoles, Rbac.replaced] at stored
  split at stored
  next requested => exact ⟨replaced.user, replaced.roles k requested⟩
  next => cases stored

theorem replaceGrants_ok {roleIds expectedRoleIds : List Nat} {changed : Bool}
    (ran : replaceGrants c userId roleIds expectedRoleIds s = .ok (changed, s')) :
    Replaced userId roleIds s.tables s'.tables ∧ (changed = false → s'.tables = s.tables) := by
  obtain ⟨-, ran⟩ := select_bind_ok.mp ran
  obtain ⟨user, ran⟩ := ensure_bind_ok.mp ran
  obtain ⟨-, ran⟩ := select_bind_ok.mp ran
  obtain ⟨-, ran⟩ := ensure_bind_ok.mp ran
  obtain ⟨_, s₁, locked, ran⟩ := bind_ok.mp ran
  obtain ⟨_, s₂, deleted, ran⟩ := bind_ok.mp ran
  obtain ⟨_, s₃, inserted, ran⟩ := bind_ok.mp ran
  obtain ⟨rfl, rfl⟩ := pure_ok.mp ran
  obtain ⟨same, roles⟩ := lockRoles_ok locked
  have gone := deleteGrants_ok deleted
  obtain ⟨new, -⟩ := insertGrants_ok inserted
  rw [same] at gone
  refine ⟨⟨⟨?_, fun k => ?_⟩, user, fun k requested => roles k (mem_sorted.mpr requested)⟩,
    fun unchanged => ?_⟩
  · refine ⟨new.beyond.users.trans gone.beyond.users, new.beyond.permissions.trans gone.beyond.permissions,
      new.beyond.roles.trans gone.beyond.roles,
      new.beyond.rolePermissions.trans gone.beyond.rolePermissions, fun u k other => ?_⟩
    rw [new.beyond.userRoles u k other, gone.beyond.userRoles u k other]
  · rw [new.userRoles, gone.userRoles]
    exact replaced_of_filters (mem_sorted.trans mem_storedRoleIds)
  · have nothing := Nat.eq_zero_of_not_pos (of_decide_eq_false unchanged)
    rw [eq_nil_of_length_eq_zero (Nat.eq_zero_of_add_eq_zero_right nothing)] at deleted
    rw [eq_nil_of_length_eq_zero (Nat.eq_zero_of_add_eq_zero_left nothing)] at inserted
    obtain ⟨-, rfl⟩ := pure_ok.mp deleted
    obtain ⟨-, rfl⟩ := pure_ok.mp inserted
    exact same

end UserChanges

end Slide.Security.Rbac
