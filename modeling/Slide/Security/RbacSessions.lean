import Slide.Library.Guarded
import Slide.Security.RbacMutations

/-!
# No session outlives a change of its rights

Any callers run the operations in any order, between changes by others.  Where a committed operation moves
the effective rights of a user at the instant of its commit, it has ended the user's sessions; an operation
that reports a failure has changed nothing.  One that reports success has its effect except where it grants
to or of nothing, where a grant that it keeps has run out.
-/

namespace Slide.Security.Rbac

open Transaction Guarded

/-! ## Rights move with the sessions -/

/-- The step from one state of the tables to another moves the rights of no user whose sessions it does
not end. -/
def Advances (now : Int) (t t' : Tables) : Prop :=
  ∃ userIds m, Covers userIds now t m ∧ m.users = t.users ∧ (t.Consistent → m.Consistent) ∧
    Ended userIds m t'

/-- A user's sessions have ended: a new version, and all refresh tokens revoked. -/
def EndsSessions (t t' : Tables) (userId : Nat) : Prop :=
  (∃ version, t.users.get userId = some version ∧ t'.users.get userId = some (version + 1)) ∧
    ∀ id row, t'.refreshTokens.get id = some row → row.userId = userId → row.revoked = true

section Advances

variable {now : Int} {t t' : Tables} {u : Nat}

theorem Advances.refl : Advances now t t :=
  ⟨[], t, fun _ _ => .refl, rfl, id, .nil⟩

theorem Advances.consistent (advances : Advances now t t') (consistent : t.Consistent) :
    t'.Consistent := by
  obtain ⟨userIds, m, -, -, keeps, ended⟩ := advances
  exact ended.consistent (keeps consistent)

theorem not_holds_of_absent (consistent : t.Consistent) (absent : t.users.get u = none) (k : Nat) :
    ¬t.toRights.Holds now u k := by
  rintro ⟨expiry, stored, -⟩
  have user := ((Tables.consistent_iff.mp consistent).1 u k expiry stored).1
  rw [absent] at user
  cases user

theorem Advances.sessions (advances : Advances now t t') (consistent : t.Consistent)
    (moved : ¬SameRights t.toRights t'.toRights now u) : EndsSessions t t' u := by
  have consistent' := advances.consistent consistent
  obtain ⟨userIds, m, covers, users, -, ended⟩ := advances
  have member : u ∈ userIds := by
    by_contra outside
    refine moved ?_
    rw [ended.rights]
    exact covers u outside
  have bumped : t'.users.get u = (t.users.get u).map (· + 1) := by
    rw [ended.users, users]
    simp only [if_pos member]
  refine ⟨?_, fun id row stored own => ?_⟩
  · cases found : t.users.get u with
    | some version =>
      rw [found] at bumped
      exact ⟨version, rfl, bumped⟩
    | none =>
      -- Without the user there are no grants, neither before nor after.
      rw [found] at bumped
      have before := @not_holds_of_absent now t u consistent found
      have after := @not_holds_of_absent now t' u consistent' bumped
      refine absurd (SameRights.of_held (fun k => iff_of_false (after k) (before k)) ?_ ?_ ?_) moved
      · exact fun k holds => absurd holds (before k)
      · exact fun k p holds => absurd holds (before k)
      · exact fun k p holds => absurd holds (before k)
  · rw [ended.refreshTokens] at stored
    obtain ⟨earlier, -, rfl⟩ := Option.map_eq_some_iff.mp stored
    split at own
    next revoked => rw [if_pos revoked]
    next spared => exact absurd (own ▸ member) spared

end Advances

/-! ## Bodies -/

section Bodies

variable {c : Circumstances} {t : Tables} {s : Session} {x : Unit} {roleId userId : Nat}

theorem advances_of_change {now : Int} {userIds : List Nat} {changed : Bool} {m t' : Tables}
    (covers : Covers userIds now t m) (users : m.users = t.users)
    (keeps : t.Consistent → m.Consistent) (idle : changed = false → m = t)
    (ended : Ended (if changed = true then userIds else []) m t') : Advances now t t' := by
  cases changed with
  | true => exact ⟨userIds, m, covers, users, keeps, ended⟩
  | false =>
    obtain rfl := idle rfl
    exact ⟨[], m, fun _ _ => .refl, rfl, id, ended⟩

theorem lockPermission_ok {permissionId : Option Nat} {s' : Session}
    (ran : lockPermission c permissionId s = .ok (x, s')) : s'.tables = s.tables := by
  cases permissionId with
  | none =>
    obtain ⟨-, rfl⟩ := pure_ok.mp ran
    rfl
  | some permissionId =>
    obtain ⟨-, ran⟩ := select_bind_ok.mp ran
    obtain ⟨-, rfl⟩ := ensure_ok.mp ran
    rfl

theorem mutateRole_advances {mutation : Sql Bool} {permissionId : Option Nat}
    (mutates : Mutates (RoleChange roleId) mutation)
    (ran : mutateRoleAndRevokeSessions c roleId mutation permissionId ⟨t, 0⟩ = .ok (x, s)) :
    Advances c.committedAt t s.tables := by
  obtain ⟨_, s₁, locked, ran⟩ := bind_ok.mp ran
  have same := lockPermission_ok locked
  obtain ⟨-, ran⟩ := select_bind_ok.mp ran
  obtain ⟨changed, s₂, mutated, ran⟩ := bind_ok.mp ran
  obtain ⟨⟨beyond, keeps⟩, idle⟩ := mutates _ _ _ mutated
  rw [same] at beyond keeps idle ran
  exact advances_of_change (beyond.covers (c.clock_le _)) beyond.users keeps idle
    (bumpAndRevokeUsers_ok ran)

theorem mutateUserRole_ok {mutation : Sql Bool}
    (ran : mutateUserRoleAndRevokeSessions c userId mutation ⟨t, 0⟩ = .ok (x, s)) :
    ∃ changed m, mutation ⟨t, 1⟩ = .ok (changed, m) ∧
      Ended (if changed = true then [userId] else []) m.tables s.tables := by
  obtain ⟨-, ran⟩ := select_bind_ok.mp ran
  obtain ⟨changed, m, mutated, ran⟩ := bind_ok.mp ran
  refine ⟨changed, m, mutated, ?_⟩
  cases changed with
  | true => exact endSessions_ok ran
  | false =>
    obtain ⟨-, rfl⟩ := pure_ok.mp ran
    exact .nil

theorem mutateUserRole_advances {mutation : Sql Bool} (mutates : Mutates (UserChange userId) mutation)
    (ran : mutateUserRoleAndRevokeSessions c userId mutation ⟨t, 0⟩ = .ok (x, s)) :
    Advances c.committedAt t s.tables := by
  obtain ⟨changed, m, mutated, ended⟩ := mutateUserRole_ok ran
  obtain ⟨⟨beyond, keeps⟩, idle⟩ := mutates _ _ _ mutated
  exact advances_of_change beyond.covers beyond.users keeps idle ended

theorem deleteRoleBody_advances (ran : deleteRoleBody c roleId ⟨t, 0⟩ = .ok (x, s)) :
    Advances c.committedAt t s.tables := by
  obtain ⟨-, ran⟩ := select_bind_ok.mp ran
  cases found : t.roles.get roleId with
  | none =>
    simp only [found] at ran
    cases ran
  | some role =>
    simp only [found, deleteLockedRole] at ran
    split at ran
    next => cases ran
    next =>
      obtain ⟨-, ran⟩ := select_bind_ok.mp ran
      obtain ⟨-, ran⟩ := update_bind_ok.mp ran
      have deleted : (deleteRoleRow roleId t).1 > 0 := by
        refine Nat.pos_of_ne_zero fun none_ => ?_
        have miss : (t.roles.deleteWhere fun id _ => id = roleId).2 = 0 := none_
        have spared := Table.not_of_deleteWhere_zero miss found
        exact absurd rfl (of_decide_eq_false spared)
      have ended := bumpAndRevokeUsers_ok ran
      rw [if_pos deleted] at ended
      obtain ⟨beyond, keeps⟩ := @deleteRoleRow_change t roleId
      exact ⟨_, _, beyond.covers (c.clock_le _), beyond.users, keeps, ended⟩

theorem deletePermissionBody_advances {permissionId : Nat}
    (ran : deletePermissionBody c permissionId ⟨t, 0⟩ = .ok (x, s)) :
    Advances c.committedAt t s.tables := by
  obtain ⟨-, ran⟩ := select_bind_ok.mp ran
  obtain ⟨-, ran⟩ := select_bind_ok.mp ran
  split at ran
  next => cases ran
  next unreferenced =>
    obtain ⟨-, rfl⟩ := modify_ok.mp ran
    have none_ := List.map_eq_nil_iff.mp (List.eq_nil_of_length_eq_zero (Nat.eq_zero_of_not_pos unreferenced))
    have unused {k p : Nat} (stored : t.rolePermissions.get (k, p) = some ()) : p ≠ permissionId := by
      have other := List.filter_eq_nil_iff.mp none_ ((k, p), ()) (Table.mem_entries.mpr stored)
      exact of_decide_eq_false (Bool.eq_false_iff.mpr other)
    have codes (p : Nat) : (deletePermissionRow permissionId t).permissions.get p =
        if p = permissionId then none else t.permissions.get p :=
      Table.get_deleteWhere_key (· = permissionId)
    have granted (k p : Nat) : (deletePermissionRow permissionId t).rolePermissions.get (k, p) =
        t.rolePermissions.get (k, p) := by
      refine (Table.get_deleteWhere_key fun key : Nat × Nat => key.2 = permissionId).trans ?_
      split
      next same =>
        cases stored : t.rolePermissions.get (k, p) with
        | none => rfl
        | some _ => exact absurd same (unused stored)
      next => rfl
    refine ⟨[], deletePermissionRow permissionId t, fun u _ => ?_, rfl, fun consistent => ?_, .nil⟩
    · refine .of_held (fun k => Iff.rfl) (fun k _ => rfl) (fun k p _ => granted k p) fun k p _ stored => ?_
      exact (codes p).trans (if_neg (unused stored))
    · obtain ⟨userRoles, rolePermissions⟩ := Tables.consistent_iff.mp consistent
      refine Tables.consistent_iff.mpr ⟨userRoles, fun k p stored => ?_⟩
      rw [granted] at stored
      rw [codes, if_neg (unused stored)]
      exact rolePermissions k p stored

end Bodies

/-! ## Operations -/

/-- An operation fails and leaves the tables, or its body is through. -/
inductive Outcome (body : Sql Unit) (t : Tables) : Result × Tables → Prop
  | failed (result : Result) (fails : result.success = false) : Outcome body t (result, t)
  | done (result : Result) (s : Session) (succeeds : result.success = true)
      (ran : body ⟨t, 0⟩ = .ok ((), s)) : Outcome body t (result, s.tables)

section Operations

variable {c : Circumstances} {t : Tables} {op : Operation}

theorem answer_outcome {body : Sql Unit} : Outcome body t (answer (transaction c body t)) := by
  rcases @transaction_cases c t body with ⟨message, failed⟩ | ⟨s, ran, committed⟩
  · rw [failed]
    exact .failed _ rfl
  · rw [committed]
    exact .done _ s rfl ran

theorem replaceUserRoles_outcome {userId : Nat} {roleIds expectedRoleIds : List Nat} :
    Outcome (mutateUserRoleAndRevokeSessions c userId (replaceGrants c userId roleIds expectedRoleIds)) t
      (replaceUserRoles c userId roleIds expectedRoleIds t) := by
  unfold replaceUserRoles
  split
  next => exact .failed _ rfl
  next =>
    dsimp only
    rcases @transaction_cases c t (mutateUserRoleAndRevokeSessions c userId
      (replaceGrants c userId roleIds expectedRoleIds)) with ⟨message, failed⟩ | ⟨s, ran, committed⟩
    · rw [failed]
      exact .failed _ rfl
    · rw [committed]
      exact .done _ s rfl ran

/-- An operation fails and changes nothing, or succeeds and moves no rights without the sessions. -/
def Sound (c : Circumstances) (t : Tables) (outcome : Result × Tables) : Prop :=
  (outcome.1.success = false → outcome.2 = t) ∧ Advances c.committedAt t outcome.2

theorem Outcome.sound {body : Sql Unit} {outcome : Result × Tables} (given : Outcome body t outcome)
    (advances : ∀ s, body ⟨t, 0⟩ = .ok ((), s) → Advances c.committedAt t s.tables) :
    Sound c t outcome := by
  cases given with
  | failed => exact ⟨fun _ => rfl, .refl⟩
  | done result s succeeds ran =>
    refine ⟨fun fails => ?_, advances s ran⟩
    rw [succeeds] at fails
    cases fails

theorem describe_advances {roleId : Nat} {description : Option (Option String)} {s : Session}
    (ran : modify c (fun t => (updateRoleRow roleId none description t).2) ⟨t, 0⟩ = .ok ((), s)) :
    Advances c.committedAt t s.tables := by
  obtain ⟨-, rfl⟩ := modify_ok.mp ran
  obtain ⟨beyond, keeps⟩ := @updateRoleRow_change t roleId none description
  refine ⟨[], (updateRoleRow roleId none description t).2, fun u _ => ?_, rfl, keeps, .nil⟩
  refine .of_held (fun k => Iff.rfl) (fun k _ => ?_) (fun _ _ _ => rfl) fun _ _ _ _ => rfl
  change Option.map _ (Table.get (Table.updateWhere _ _ _ _).1 k) = _
  rw [Table.get_updateWhere]
  split
  next same =>
    subst same
    unfold Rights.roleName
    rw [Option.map_map]
    rfl
  next => rfl

theorem updateRole_sound {roleId : Nat} {name : Option String} {description : Option (Option String)} :
    Sound c t (updateRole c roleId name description t) := by
  have nothing : ∀ message, Sound c t (⟨false, some message, none⟩, t) :=
    fun _ => ⟨fun _ => rfl, .refl⟩
  unfold updateRole
  split
  next => exact nothing _
  next =>
  split
  next => exact nothing _
  next =>
  split
  next =>
    exact answer_outcome.sound fun s => mutateRole_advances
      (.affectsRows (fun _ _ => updateRoleRow_change) fun _ _ => updateRoleRow_idle)
  next unnamed =>
    obtain rfl : name = none := by simpa using unnamed
    dsimp only
    unfold autocommit
    split
    next => exact nothing _
    next => exact nothing _
    next =>
      split
      next => exact nothing _
      next x s ran => exact ⟨nofun, describe_advances ran⟩

theorem run_sound : Sound c t (op.run c t) := by
  cases op with
  | assignPermissionToRole roleId permissionId =>
    exact answer_outcome.sound fun s => mutateRole_advances
      (.affectsRows (fun _ _ => insertIgnoreRolePermission_change) fun _ _ => insertIgnoreRolePermission_idle)
  | revokePermissionFromRole roleId permissionId =>
    exact answer_outcome.sound fun s => mutateRole_advances
      (.affectsRows (fun _ _ => deleteRolePermission_change) fun _ _ => deleteRolePermission_idle)
  | updateRole roleId name description => exact updateRole_sound
  | deleteRole roleId => exact answer_outcome.sound fun s => deleteRoleBody_advances
  | deletePermission permissionId => exact answer_outcome.sound fun s => deletePermissionBody_advances
  | assignRoleToUser userId roleId =>
    exact answer_outcome.sound fun s => mutateUserRole_advances grant_mutates
  | revokeRoleFromUser userId roleId =>
    exact answer_outcome.sound fun s => mutateUserRole_advances
      (.affectsRows (fun _ _ => deleteUserRole_change) fun _ _ => deleteUserRole_idle)
  | replaceUserRoles userId roleIds expectedRoleIds =>
    refine replaceUserRoles_outcome.sound fun s => mutateUserRole_advances fun s changed s' ran => ?_
    obtain ⟨replaced, idle⟩ := replaceGrants_ok ran
    exact ⟨replaced.change, idle⟩

end Operations

end Slide.Security.Rbac
