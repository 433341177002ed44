import Slide.Security.Rbac

/-!
# What an operation does to the rights

A statement of a transaction is its read or write at the clock of its place.  An operation that is through
is a mutation of the rights, whose users are known, and then the end of these users' sessions.  A mutation
of a role leaves all that does not pass through the role, and a mutation of a user's roles leaves the other
users.
-/

namespace Slide.Security.Rbac

open Transaction List

/-! ## Effective rights -/

theorem active_of_le {expiry : Option Int} {now later : Int} (le : now ≤ later)
    (holds : active expiry later = true) : active expiry now = true := by
  cases expiry with
  | none => rfl
  | some limit =>
    simp only [active, decide_eq_true_eq] at holds ⊢
    omega

/-- The user has a grant of the role that has not run out. -/
def Rights.Holds (rights : Rights) (now : Int) (userId roleId : Nat) : Prop :=
  ∃ expiry, rights.userRoles.get (userId, roleId) = some expiry ∧ active expiry now = true

section Effective

variable {rights rights' : Rights} {now later : Int} {u k : Nat}

theorem Rights.Holds.earlier (le : now ≤ later) (holds : rights.Holds later u k) :
    rights.Holds now u k := by
  obtain ⟨expiry, stored, open_⟩ := holds
  exact ⟨expiry, stored, active_of_le le open_⟩

theorem mem_effectiveRoles {name : String} : (k, name) ∈ rights.effectiveRoles now u ↔
    rights.Holds now u k ∧ rights.roleName k = some name := by
  unfold Rights.effectiveRoles
  rw [mem_filterMap]
  constructor
  · rintro ⟨⟨⟨user, roleId⟩, expiry⟩, stored, given⟩
    split at given
    next own =>
      obtain ⟨rfl, holds⟩ := own
      obtain ⟨role, found, same⟩ := Option.map_eq_some_iff.mp given
      cases same
      exact ⟨⟨expiry, Table.mem_entries.mp stored, holds⟩, found⟩
    next => cases given
  · rintro ⟨⟨expiry, stored, holds⟩, found⟩
    refine ⟨((u, k), expiry), Table.mem_entries.mpr stored, ?_⟩
    rw [if_pos ⟨rfl, holds⟩, found]
    rfl

theorem mem_effectiveRoleIds : k ∈ rights.effectiveRoleIds now u ↔
    rights.Holds now u k ∧ ∃ name, rights.roleName k = some name := by
  unfold Rights.effectiveRoleIds
  rw [mem_map]
  constructor
  · rintro ⟨⟨roleId, name⟩, mem, rfl⟩
    obtain ⟨holds, found⟩ := mem_effectiveRoles.mp mem
    exact ⟨holds, name, found⟩
  · rintro ⟨holds, name, found⟩
    exact ⟨(k, name), mem_effectiveRoles.mpr ⟨holds, found⟩, rfl⟩

theorem mem_effectivePermissions {code : String} : code ∈ rights.effectivePermissions now u ↔
    ∃ k p, (rights.Holds now u k ∧ ∃ name, rights.roleName k = some name) ∧
      rights.rolePermissions.get (k, p) = some () ∧ rights.permissions.get p = some code := by
  unfold Rights.effectivePermissions
  simp only [mem_flatMap, mem_filterMap, mem_effectiveRoleIds]
  constructor
  · rintro ⟨k, held, ⟨⟨roleId, p⟩, row⟩, stored, given⟩
    split at given
    next own =>
      obtain rfl : roleId = k := own
      exact ⟨roleId, p, held, Table.mem_entries.mp stored, given⟩
    next => cases given
  · rintro ⟨k, p, held, stored, found⟩
    exact ⟨k, held, ((k, p), ()), Table.mem_entries.mpr stored, by rw [if_pos rfl]; exact found⟩

/-- A user has the same effective roles and permissions. -/
structure SameRights (rights rights' : Rights) (now : Int) (userId : Nat) : Prop where
  roles : ∀ role, role ∈ rights'.effectiveRoles now userId ↔ role ∈ rights.effectiveRoles now userId
  permissions : ∀ code,
    code ∈ rights'.effectivePermissions now userId ↔ code ∈ rights.effectivePermissions now userId

theorem SameRights.refl : SameRights rights rights now u := ⟨fun _ => Iff.rfl, fun _ => Iff.rfl⟩

theorem SameRights.of_held (held : ∀ k, rights'.Holds now u k ↔ rights.Holds now u k)
    (role : ∀ k, rights.Holds now u k → rights'.roleName k = rights.roleName k)
    (granted : ∀ k p, rights.Holds now u k →
      rights'.rolePermissions.get (k, p) = rights.rolePermissions.get (k, p))
    (code : ∀ k p, rights.Holds now u k → rights.rolePermissions.get (k, p) = some () →
      rights'.permissions.get p = rights.permissions.get p) : SameRights rights rights' now u := by
  constructor
  · rintro ⟨k, name⟩
    rw [mem_effectiveRoles, mem_effectiveRoles, held k]
    exact and_congr_right fun holds => by rw [role k holds]
  · intro name
    rw [mem_effectivePermissions, mem_effectivePermissions]
    refine exists_congr fun k => exists_congr fun p => ?_
    rw [held k, and_assoc, and_assoc]
    refine and_congr_right fun holds => ?_
    rw [role k holds, granted k p holds]
    refine and_congr_right fun _ => and_congr_right fun stored => ?_
    rw [code k p holds stored]

end Effective

/-! ## Statements -/

section Statements

variable {c : Circumstances} {α β : Type} {s s' : Session} {b : β} {t t' : Tables}

theorem execute_ok {statement : Int → Tables → Except String (β × Tables)} :
    execute c statement s = .ok (b, s') ↔ c.refused s.statements = none ∧
      statement (c.clock s.statements) s.tables = .ok (b, s'.tables) ∧
      s'.statements = s.statements + 1 := by
  unfold execute
  cases c.refused s.statements with
  | some message => simp
  | none =>
    cases statement (c.clock s.statements) s.tables with
    | error message => simp
    | ok given =>
      obtain ⟨a, tables⟩ := given
      obtain ⟨tables', n⟩ := s'
      simp only [Except.ok.injEq, Prod.mk.injEq, Session.mk.injEq, true_and]
      constructor
      · rintro ⟨rfl, rfl, rfl⟩
        exact ⟨⟨rfl, rfl⟩, rfl⟩
      · rintro ⟨⟨rfl, rfl⟩, rfl⟩
        exact ⟨rfl, rfl, rfl⟩

theorem select_bind_ok {read : Int → Tables → α} {f : α → Sql β} :
    (select c read >>= f) s = .ok (b, s') ↔ c.refused s.statements = none ∧
      f (read (c.clock s.statements) s.tables) ⟨s.tables, s.statements + 1⟩ = .ok (b, s') := by
  rw [bind_ok]
  constructor
  · rintro ⟨a, ⟨tables, n⟩, first, rest⟩
    obtain ⟨served, given, rfl⟩ := execute_ok.mp first
    cases given
    exact ⟨served, rest⟩
  · rintro ⟨served, rest⟩
    exact ⟨_, ⟨s.tables, s.statements + 1⟩, execute_ok.mpr ⟨served, rfl, rfl⟩, rest⟩

theorem update_bind_ok {write : Int → Tables → Nat × Tables} {f : Nat → Sql β} :
    (update c write >>= f) s = .ok (b, s') ↔ c.refused s.statements = none ∧
      f (write (c.clock s.statements) s.tables).1
        ⟨(write (c.clock s.statements) s.tables).2, s.statements + 1⟩ = .ok (b, s') := by
  rw [bind_ok]
  constructor
  · rintro ⟨a, ⟨tables, n⟩, first, rest⟩
    obtain ⟨served, given, rfl⟩ := execute_ok.mp first
    rw [Except.ok.inj given]
    exact ⟨served, rest⟩
  · rintro ⟨served, rest⟩
    exact ⟨_, ⟨_, s.statements + 1⟩, execute_ok.mpr ⟨served, rfl, rfl⟩, rest⟩

theorem modify_ok {write : Tables → Tables} {x : Unit} : modify c write s = .ok (x, s') ↔
    c.refused s.statements = none ∧ s' = ⟨write s.tables, s.statements + 1⟩ := by
  refine execute_ok.trans (and_congr_right fun _ => ?_)
  constructor
  · rintro ⟨given, count⟩
    obtain ⟨tables, n⟩ := s'
    cases given
    cases count
    rfl
  · rintro rfl
    exact ⟨rfl, rfl⟩

theorem affectsRows_ok {write : Int → Tables → Nat × Tables} {changed : Bool} :
    affectsRows c write s = .ok (changed, s') ↔ c.refused s.statements = none ∧
      changed = decide ((write (c.clock s.statements) s.tables).1 > 0) ∧
      s' = ⟨(write (c.clock s.statements) s.tables).2, s.statements + 1⟩ := by
  unfold affectsRows
  rw [update_bind_ok, pure_ok]

theorem transaction_cases {body : Sql Unit} :
    (∃ message, transaction c body t = (.error message, t)) ∨
      ∃ s, body ⟨t, 0⟩ = .ok ((), s) ∧ transaction c body t = (.ok (), s.tables) := by
  unfold transaction
  split
  · exact .inl ⟨_, rfl⟩
  · exact .inl ⟨_, rfl⟩
  · exact .inl ⟨_, rfl⟩
  · split
    · exact .inl ⟨_, rfl⟩
    next x s ran =>
      split
      · exact .inl ⟨_, rfl⟩
      · exact .inr ⟨s, ran, rfl⟩

end Statements

/-! ## Ending sessions -/

/-- The sessions of some users have ended, and nothing else has changed. -/
structure Ended (userIds : List Nat) (t t' : Tables) : Prop where
  rights : t'.toRights = t.toRights
  users : ∀ u, t'.users.get u = (t.users.get u).map fun version =>
    if u ∈ userIds then version + 1 else version
  refreshTokens : ∀ id, t'.refreshTokens.get id = (t.refreshTokens.get id).map fun row =>
    if row.userId ∈ userIds then { row with revoked := true } else row

theorem Ended.nil {t : Tables} : Ended [] t t := by
  refine ⟨rfl, fun u => ?_, fun id => ?_⟩
  · cases t.users.get u <;> rfl
  · cases t.refreshTokens.get id <;> rfl

section EndSessions

variable {c : Circumstances} {s s' : Session} {x : Unit} {userIds : List Nat}

theorem endSessions_ok (ran : endSessions c userIds s = .ok (x, s')) :
    Ended userIds s.tables s'.tables := by
  obtain ⟨u, s₁, first, second⟩ := bind_ok.mp ran
  obtain ⟨-, rfl⟩ := modify_ok.mp first
  obtain ⟨-, rfl⟩ := modify_ok.mp second
  refine ⟨rfl, fun u => ?_, fun id => ?_⟩
  · change (Table.updateAll _ _ _).get u = _
    rw [Table.get_updateAll]
    simp only [decide_eq_true_eq]
  · change (Table.updateAll _ _ _).get id = _
    rw [Table.get_updateAll]
    simp only [decide_eq_true_eq]
    rfl

theorem bumpAndRevokeUsers_ok (ran : bumpAndRevokeUsers c userIds s = .ok (x, s')) :
    Ended userIds s.tables s'.tables := by
  unfold bumpAndRevokeUsers at ran
  split at ran
  next none_ =>
    obtain ⟨-, rfl⟩ := pure_ok.mp ran
    rw [none_]
    exact .nil
  next => exact endSessions_ok ran

end EndSessions

/-! ## Mutations -/

/-- A change that is confined to what passes through a role. -/
structure BeyondRole (roleId : Nat) (t m : Tables) : Prop where
  users : m.users = t.users
  permissions : m.permissions = t.permissions
  roles : ∀ k, k ≠ roleId → m.roles.get k = t.roles.get k
  rolePermissions : ∀ k p, k ≠ roleId → m.rolePermissions.get (k, p) = t.rolePermissions.get (k, p)
  userRoles : ∀ u k, k ≠ roleId → m.userRoles.get (u, k) = t.userRoles.get (u, k)
  fewer : ∀ u expiry, m.userRoles.get (u, roleId) = some expiry →
    t.userRoles.get (u, roleId) = some expiry

/-- A change that is confined to the roles of a user. -/
structure BeyondUser (userId : Nat) (t m : Tables) : Prop where
  users : m.users = t.users
  permissions : m.permissions = t.permissions
  roles : m.roles = t.roles
  rolePermissions : m.rolePermissions = t.rolePermissions
  userRoles : ∀ u k, u ≠ userId → m.userRoles.get (u, k) = t.userRoles.get (u, k)

/-- The users whose rights a change can touch at an instant are among these. -/
def Covers (userIds : List Nat) (now : Int) (t m : Tables) : Prop :=
  ∀ u, u ∉ userIds → SameRights t.toRights m.toRights now u

section Covers

variable {t m : Tables} {now later : Int} {roleId userId u : Nat}

theorem mem_activeRoleUserIds :
    u ∈ activeRoleUserIds roleId now t ↔ t.toRights.Holds now u roleId := by
  unfold activeRoleUserIds
  simp only [mem_dedup, mem_map, mem_filter, decide_eq_true_eq]
  constructor
  · rintro ⟨⟨⟨user, role⟩, expiry⟩, ⟨stored, rfl, holds⟩, rfl⟩
    exact ⟨expiry, Table.mem_entries.mp stored, holds⟩
  · rintro ⟨expiry, stored, holds⟩
    exact ⟨((u, roleId), expiry), ⟨Table.mem_entries.mpr stored, rfl, holds⟩, rfl⟩

theorem BeyondRole.covers (beyond : BeyondRole roleId t m) (le : now ≤ later) :
    Covers (activeRoleUserIds roleId now t) later t m := by
  intro u outside
  have without : ¬t.toRights.Holds later u roleId := fun holds =>
    outside (mem_activeRoleUserIds.mpr (holds.earlier le))
  have other {k : Nat} (holds : t.toRights.Holds later u k) : k ≠ roleId := by
    rintro rfl
    exact without holds
  refine .of_held (fun k => ?_) (fun k holds => congrArg _ (beyond.roles k (other holds)))
    (fun k p holds => beyond.rolePermissions k p (other holds)) fun k p _ _ => by rw [beyond.permissions]
  by_cases same : k = roleId
  · subst same
    refine iff_of_false ?_ without
    rintro ⟨expiry, stored, holds⟩
    exact without ⟨expiry, beyond.fewer u expiry stored, holds⟩
  · unfold Rights.Holds
    rw [beyond.userRoles u k same]

theorem BeyondUser.covers (beyond : BeyondUser userId t m) : Covers [userId] now t m := by
  intro u outside
  have other : u ≠ userId := fun same => outside (mem_singleton.mpr same)
  refine .of_held (fun k => ?_) (fun k _ => by unfold Rights.roleName; rw [beyond.roles])
    (fun k p _ => by rw [beyond.rolePermissions]) fun k p _ _ => by rw [beyond.permissions]
  unfold Rights.Holds
  rw [beyond.userRoles u k other]

end Covers

/-- What a mutation does where it is through, and that it does nothing where it answers that it has
changed nothing. -/
def Mutates (R : Tables → Tables → Prop) (mutation : Sql Bool) : Prop :=
  ∀ s changed s', mutation s = .ok (changed, s') →
    R s.tables s'.tables ∧ (changed = false → s'.tables = s.tables)

theorem Mutates.affectsRows {R : Tables → Tables → Prop} {c : Circumstances}
    {write : Int → Tables → Nat × Tables} (each : ∀ now t, R t (write now t).2)
    (idle : ∀ now t, (write now t).1 = 0 → (write now t).2 = t) : Mutates R (affectsRows c write) := by
  intro s changed s' ran
  obtain ⟨-, rfl, rfl⟩ := affectsRows_ok.mp ran
  refine ⟨each _ _, fun unchanged => idle _ _ ?_⟩
  have none_ := of_decide_eq_false unchanged
  omega

/-! ## Foreign keys -/

theorem Tables.consistent_iff {t : Tables} : t.Consistent ↔
    (∀ u k expiry, t.userRoles.get (u, k) = some expiry →
      (t.users.get u).isSome ∧ (t.roles.get k).isSome) ∧
    ∀ k p, t.rolePermissions.get (k, p) = some () →
      (t.roles.get k).isSome ∧ (t.permissions.get p).isSome := by
  constructor
  · intro consistent
    exact ⟨fun u k expiry stored => consistent.userRoles ((u, k), expiry) (Table.mem_entries.mpr stored),
      fun k p stored => consistent.rolePermissions ((k, p), ()) (Table.mem_entries.mpr stored)⟩
  · rintro ⟨userRoles, rolePermissions⟩
    exact ⟨fun e stored => userRoles _ _ _ (Table.mem_entries.mp stored),
      fun e stored => rolePermissions _ _ (Table.mem_entries.mp stored)⟩

theorem Ended.consistent {userIds : List Nat} {t t' : Tables} (ended : Ended userIds t t')
    (consistent : t.Consistent) : t'.Consistent := by
  obtain ⟨userRoles, rolePermissions⟩ := Tables.consistent_iff.mp consistent
  refine Tables.consistent_iff.mpr ⟨fun u k expiry stored => ?_, fun k p stored => ?_⟩
  · rw [ended.rights] at stored ⊢
    obtain ⟨user, role⟩ := userRoles u k expiry stored
    refine ⟨?_, role⟩
    rw [ended.users u, Option.isSome_map]
    exact user
  · rw [ended.rights] at stored ⊢
    exact rolePermissions k p stored

theorem BeyondUser.consistent {userId : Nat} {t m : Tables} (beyond : BeyondUser userId t m)
    (granted : t.Consistent → ∀ k expiry, m.userRoles.get (userId, k) = some expiry →
      (t.users.get userId).isSome ∧ (t.roles.get k).isSome)
    (consistent : t.Consistent) : m.Consistent := by
  obtain ⟨userRoles, rolePermissions⟩ := Tables.consistent_iff.mp consistent
  refine Tables.consistent_iff.mpr ⟨fun u k expiry stored => ?_, fun k p stored => ?_⟩
  · rw [beyond.users, beyond.roles]
    by_cases same : u = userId
    · subst same
      exact granted consistent k expiry stored
    · rw [beyond.userRoles u k same] at stored
      exact userRoles u k expiry stored
  · rw [beyond.roles, beyond.permissions]
    rw [beyond.rolePermissions] at stored
    exact rolePermissions k p stored

end Slide.Security.Rbac
