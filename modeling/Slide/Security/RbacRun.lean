import Slide.Security.RbacEffects

/-!
# Runs of the operations

A run is a sequence of calls and of changes by others, over tables whose foreign keys hold.  `follows` is
what a call owes to the sessions and to its caller; `meets` is when it can give it.
-/

namespace Slide.Security.Rbac

open Transaction Guarded List

/-! ## Calls that nothing refuses -/

/-- The database refuses none of a call's statements. -/
structure Served (c : Circumstances) : Prop where
  pool : c.pool = .ready
  statements : ∀ n, c.refused n = none
  commit : c.commitRefused = none

def Through {α : Type} (body : Sql α) (s : Session) : Prop := ∃ a s', body s = .ok (a, s')

section Through

variable {c : Circumstances} {α β : Type} {s : Session} {ids : List Nat} {userId roleId : Nat}
  {t : Tables}

theorem Through.bind {body : Sql α} {rest : α → Sql β} {a : α} {s₁ : Session}
    (first : body s = .ok (a, s₁)) (after : Through (rest a) s₁) : Through (body >>= rest) s := by
  obtain ⟨b, s', ran⟩ := after
  exact ⟨b, s', bind_ok.mpr ⟨a, s₁, first, ran⟩⟩

theorem Through.execute_bind (served : Served c) {statement : Int → Tables → Except String (α × Tables)}
    {rest : α → Sql β} {a : α} {t' : Tables}
    (given : statement (c.clock s.statements) s.tables = .ok (a, t'))
    (after : Through (rest a) ⟨t', s.statements + 1⟩) : Through (execute c statement >>= rest) s := by
  have first : execute c statement s = .ok (a, ⟨t', s.statements + 1⟩) :=
    execute_ok.mpr ⟨served.statements _, given, rfl⟩
  exact .bind first after

theorem Through.select_bind (served : Served c) {read : Int → Tables → α} {rest : α → Sql β}
    (after : Through (rest (read (c.clock s.statements) s.tables)) ⟨s.tables, s.statements + 1⟩) :
    Through (select c read >>= rest) s :=
  .execute_bind served rfl after

theorem Through.update_bind (served : Served c) {write : Int → Tables → Nat × Tables}
    {rest : Nat → Sql β} (after : Through (rest (write (c.clock s.statements) s.tables).1)
      ⟨(write (c.clock s.statements) s.tables).2, s.statements + 1⟩) :
    Through (update c write >>= rest) s :=
  .execute_bind served rfl after

theorem Through.modify_bind (served : Served c) {write : Tables → Tables} {rest : Unit → Sql β}
    (after : Through (rest ()) ⟨write s.tables, s.statements + 1⟩) :
    Through (modify c write >>= rest) s :=
  .execute_bind served rfl after

theorem Through.ensure_bind {p : Prop} [Decidable p] {message : String} {rest : Unit → Sql β} (holds : p)
    (after : Through (rest ()) s) : Through (ensure p message >>= rest) s :=
  .bind (ensure_ok.mpr ⟨holds, rfl⟩) after

theorem affectsRows_through (served : Served c) {write : Int → Tables → Nat × Tables} :
    Through (affectsRows c write) s := .update_bind served ⟨_, _, rfl⟩

theorem endSessions_through (served : Served c) : Through (endSessions c ids) s :=
  .modify_bind served ⟨(), _, modify_ok.mpr ⟨served.statements _, rfl⟩⟩

theorem grant_through (served : Served c) : Through (grant c userId roleId) s := by
  refine .update_bind served ?_
  split
  · exact ⟨true, _, rfl⟩
  · exact affectsRows_through served

theorem lockRoles_through (served : Served c) (there : ∀ k ∈ ids, (s.tables.roles.get k).isSome) :
    Through (lockRoles c ids) s := by
  induction ids generalizing s with
  | nil => exact ⟨(), s, rfl⟩
  | cons roleId rest ih =>
    obtain ⟨found, others⟩ := forall_mem_cons.mp there
    exact .select_bind served (.ensure_bind found (ih others))

theorem deleteGrants_through (served : Served c) : Through (deleteGrants c userId ids) s := by
  induction ids generalizing s with
  | nil => exact ⟨(), s, rfl⟩
  | cons roleId rest ih => exact .modify_bind served ih

theorem insertGrants_through (served : Served c) (user : (s.tables.users.get userId).isSome)
    (there : ∀ k ∈ ids, (s.tables.roles.get k).isSome) (nodup : ids.Nodup)
    (new : ∀ k ∈ ids, s.tables.userRoles.get (userId, k) = none) :
    Through (insertGrants c userId ids) s := by
  induction ids generalizing s with
  | nil => exact ⟨(), s, rfl⟩
  | cons roleId rest ih =>
    obtain ⟨found, others⟩ := forall_mem_cons.mp there
    obtain ⟨absent, fresh⟩ := forall_mem_cons.mp new
    obtain ⟨once, nodup⟩ := nodup_cons.mp nodup
    have inserted : insertUserRole userId roleId s.tables =
        .ok ((), { s.tables with userRoles := s.tables.userRoles.put (userId, roleId) none }) := by
      have present : ¬(s.tables.users.get userId = none ∨ s.tables.roles.get roleId = none) := by
        rintro (missing | missing)
        · exact absurd user (by simp [missing])
        · exact absurd found (by simp [missing])
      rw [insertUserRole, absent, if_neg (by simp), if_neg present]
    refine .execute_bind served inserted (ih user others nodup fun k mem => ?_)
    have other : k ≠ roleId := fun same => once (same ▸ mem)
    change Table.get (Table.put _ _ _) _ = _
    rw [Table.get_put_ne fun same => other (Prod.mk.inj same).2]
    exact fresh k mem

theorem mutateUserRole_through (served : Served c) {mutation : Sql Bool}
    (through : Through mutation ⟨t, 1⟩) :
    Through (mutateUserRoleAndRevokeSessions c userId mutation) ⟨t, 0⟩ := by
  obtain ⟨changed, m, mutated⟩ := through
  refine .select_bind served (.bind mutated ?_)
  cases changed with
  | true => exact endSessions_through served
  | false => exact ⟨(), m, rfl⟩

theorem transaction_of_through (served : Served c) {body : Sql Unit} (through : Through body ⟨t, 0⟩) :
    ∃ t', transaction c body t = (.ok (), t') := by
  obtain ⟨_, s, ran⟩ := through
  refine ⟨s.tables, ?_⟩
  unfold transaction
  rw [served.pool]
  simp only [ran, served.commit]

end Through

theorem assignRoleToUser_succeeds {c : Circumstances} {t : Tables} {userId roleId : Nat}
    (served : Served c) : (assignRoleToUser c userId roleId t).1.success = true := by
  obtain ⟨t', committed⟩ :=
    transaction_of_through served (mutateUserRole_through (t := t) served (grant_through served))
  rw [assignRoleToUser, committed]
  rfl

/-- The checks of a replacement. -/
structure Replaceable (userId : Nat) (roleIds expectedRoleIds : List Nat) (t : Tables) : Prop where
  user : (t.users.get userId).isSome
  expected : sorted (storedRoleIds userId t) = sorted expectedRoleIds
  roles : ∀ k ∈ roleIds, (t.roles.get k).isSome
  nodup : roleIds.Nodup

theorem replaceUserRoles_succeeds {c : Circumstances} {t : Tables} {userId : Nat}
    {roleIds expectedRoleIds : List Nat} (served : Served c)
    (replaceable : Replaceable userId roleIds expectedRoleIds t) :
    (replaceUserRoles c userId roleIds expectedRoleIds t).1.success = true := by
  have through : Through (replaceGrants c userId roleIds expectedRoleIds) ⟨t, 1⟩ := by
    refine .select_bind served (.ensure_bind replaceable.user (.select_bind served
      (.ensure_bind replaceable.expected ?_)))
    have locks : Through (lockRoles c (sorted roleIds)) ⟨t, 3⟩ :=
      lockRoles_through served fun k mem => replaceable.roles k (mem_sorted.mp mem)
    obtain ⟨_, s₁, locked⟩ := locks
    refine .bind locked ?_
    obtain ⟨_, s₂, deleted⟩ := deleteGrants_through served
    refine .bind deleted ?_
    obtain ⟨beyond, userRoles⟩ := deleteGrants_ok deleted
    rw [(lockRoles_ok locked).1] at beyond userRoles
    have new : ∀ k ∈ roleIds.filter fun id => !(sorted (storedRoleIds userId t)).contains id,
        s₂.tables.userRoles.get (userId, k) = none := by
      intro k mem
      have unknown : (t.userRoles.get (userId, k)) = none := by
        have outside := (mem_filter.mp mem).2
        simp only [contains_eq_mem, mem_sorted, mem_storedRoleIds] at outside
        simpa using outside
      rw [userRoles, unknown]
      exact ite_self none
    have user : (s₂.tables.users.get userId).isSome := by
      rw [beyond.users]
      exact replaceable.user
    have roles : ∀ k ∈ roleIds.filter fun id => !(sorted (storedRoleIds userId t)).contains id,
        (s₂.tables.roles.get k).isSome := by
      intro k mem
      rw [beyond.roles]
      exact replaceable.roles k (mem_filter.mp mem).1
    obtain ⟨_, s₃, inserted⟩ := insertGrants_through served user roles (replaceable.nodup.filter _) new
    exact .bind inserted ⟨_, _, rfl⟩
  have body : Through (mutateUserRoleAndRevokeSessions c userId
      (replaceGrants c userId roleIds expectedRoleIds)) ⟨t, 0⟩ := mutateUserRole_through served through
  obtain ⟨t', committed⟩ := transaction_of_through served body
  unfold replaceUserRoles
  rw [served.pool]
  simp only [committed]

/-! ## Runs -/

/-- Tables whose foreign keys hold. -/
abbrev Database := { t : Tables // t.Consistent }

/-- A call of any caller, or what others do to the tables. -/
inductive Event
  | call (c : Circumstances) (op : Operation)
  | elsewhere (d : Database)

def step (d : Database) : Event → Database
  | .call c op => ⟨(op.run c d.1).2, run_sound.2.consistent d.2⟩
  | .elsewhere d' => d'

/-- What an operation promises about the roles of a user. -/
def Effect (t : Tables) (now : Int) : Operation → Prop
  | .assignRoleToUser userId roleId => roleId ∈ t.toRights.effectiveRoleIds now userId
  | .revokeRoleFromUser userId roleId => roleId ∉ t.toRights.effectiveRoleIds now userId
  | .replaceUserRoles userId roleIds _ =>
    ∀ k, k ∈ t.toRights.effectiveRoleIds now userId ↔ k ∈ roleIds
  | _ => True

/-- What a call owes: sessions end with the rights, a failure is silent, a success has its effect. -/
structure Follows (c : Circumstances) (op : Operation) (t : Tables) : Prop where
  sessions : ∀ userId, ¬SameRights t.toRights (op.run c t).2.toRights c.committedAt userId →
    EndsSessions t (op.run c t).2 userId
  failure : (op.run c t).1.success = false → (op.run c t).2 = t
  effect : (op.run c t).1.success = true → Effect (op.run c t).2 c.committedAt op

/-- An assignment has a user and a role to grant, and a grant that it finds does not run out between its
update and its commit; a replacement finds no requested role with a grant that has run out. -/
def Meets (c : Circumstances) (op : Operation) (t : Tables) : Prop :=
  match op with
  | .assignRoleToUser userId roleId => Grantable userId roleId (c.clock 2) c.committedAt t
  | .replaceUserRoles userId roleIds _ => Unexpired userId roleIds c.committedAt t
  | _ => True

/-- Nothing refuses the call. -/
def Accepted (c : Circumstances) (op : Operation) (t : Tables) : Prop :=
  match op with
  | .replaceUserRoles userId roleIds expectedRoleIds =>
    Served c ∧ Replaceable userId roleIds expectedRoleIds t
  | _ => Served c

section Calls

variable {c : Circumstances} {op : Operation} {t : Tables}

theorem follows_of_meets (consistent : t.Consistent) (meets : Meets c op t) : Follows c op t := by
  have sound := @run_sound c t op
  refine ⟨fun userId => sound.2.sessions consistent, sound.1, fun succeeds => ?_⟩
  cases op with
  | assignRoleToUser userId roleId => exact (assignRoleToUser_held_iff consistent succeeds).mpr meets
  | revokeRoleFromUser userId roleId => exact revokeRoleFromUser_not_held succeeds
  | replaceUserRoles userId roleIds expectedRoleIds => exact (replaceUserRoles_held_iff succeeds).mpr meets
  | _ => trivial

theorem meets_of_follows (consistent : t.Consistent) (accepted : Accepted c op t)
    (follows : Follows c op t) : Meets c op t := by
  cases op with
  | assignRoleToUser userId roleId =>
    have succeeds := @assignRoleToUser_succeeds c t userId roleId accepted
    exact (assignRoleToUser_held_iff consistent succeeds).mp (follows.effect succeeds)
  | replaceUserRoles userId roleIds expectedRoleIds =>
    have succeeds := replaceUserRoles_succeeds accepted.1 accepted.2
    exact (replaceUserRoles_held_iff succeeds).mp (follows.effect succeeds)
  | _ => trivial

end Calls

/-- A property of the calls, at a step of a run. -/
def Event.Call (p : Circumstances → Operation → Tables → Prop) (d : Database) : Event → Prop
  | .call c op => p c op d.1
  | .elsewhere _ => True

/-- In every run whose calls all meet the condition every call gives what it owes; in a run whose calls
nothing refuses the condition is exact. -/
theorem sessions_follow_rights (d : Database) (events : List Event) :
    (Observes step (Event.Call Meets) d events → Observes step (Event.Call Follows) d events) ∧
    (Observes step (Event.Call Accepted) d events →
      (Observes step (Event.Call Follows) d events ↔ Observes step (Event.Call Meets) d events)) := by
  have sufficient (meets : Observes step (Event.Call Meets) d events) :
      Observes step (Event.Call Follows) d events := by
    intro earlier e before
    cases e with
    | call c op => exact follows_of_meets (earlier.foldl step d).2 (meets earlier (.call c op) before)
    | elsewhere d' => trivial
  refine ⟨sufficient, fun accepted => ⟨fun follows => ?_, sufficient⟩⟩
  intro earlier e before
  cases e with
  | call c op =>
    exact meets_of_follows (earlier.foldl step d).2 (accepted earlier (.call c op) before)
      (follows earlier (.call c op) before)
  | elsewhere d' => trivial

/-- A user whose grant of the one role has run out, with an open session. -/
def expiredTables : Tables where
  roles := Table.empty.put 1 ⟨"dba", none, true⟩
  permissions := Table.empty.put 4 "instance:view"
  rolePermissions := Table.empty.put (1, 4) ()
  userRoles := Table.empty.put (7, 1) (some 5)
  users := Table.empty.put 7 1
  refreshTokens := Table.empty.put 30 ⟨7, false⟩

def expiredDatabase : Database := ⟨expiredTables, ⟨by decide, by decide⟩⟩

/-- A call at one instant that nothing refuses. -/
def servedAt (now : Int) : Circumstances where
  pool := .ready
  clock := fun _ => now
  refused := fun _ => none
  rollbackRefused := none
  commitRefused := none
  committedAt := now
  clock_le := fun _ => le_refl now

/-- An assignment renews the grant, and the session ends. -/
theorem sessions_follow_rights_renewal :
    Observes step (Event.Call Follows) expiredDatabase [.call (servedAt 10) (.assignRoleToUser 7 1)] ∧
      (step expiredDatabase (.call (servedAt 10) (.assignRoleToUser 7 1))).1.users.get 7 = some 2 := by
  have start : Observes step (Event.Call Meets) expiredDatabase [] := observes_nil
  refine ⟨(sessions_follow_rights expiredDatabase _).1 (start.snoc ?_), by rfl⟩
  refine ⟨by decide, by decide, fun limit stored open_ => ?_⟩
  have same : some (some 5) = some (some limit) := stored
  cases same
  exact absurd open_.1 (by decide)

/-- A replacement that asks for the role keeps the grant that has run out, and reports success. -/
theorem expired_role_replaced :
    ((Operation.replaceUserRoles 7 [1] [1]).run (servedAt 10) expiredTables).1.success = true ∧
      ((Operation.replaceUserRoles 7 [1] [1]).run (servedAt 10) expiredTables).2.toRights.effectiveRoleIds
        10 7 = [] ∧
      ¬Observes step (Event.Call Follows) expiredDatabase
        [.call (servedAt 10) (.replaceUserRoles 7 [1] [1])] := by
  have succeeds : ((Operation.replaceUserRoles 7 [1] [1]).run (servedAt 10)
      expiredTables).1.success = true := by rfl
  have without : ((Operation.replaceUserRoles 7 [1] [1]).run (servedAt 10)
      expiredTables).2.toRights.effectiveRoleIds 10 7 = [] := by rfl
  refine ⟨succeeds, without, fun follows => ?_⟩
  have call : Follows (servedAt 10) (.replaceUserRoles 7 [1] [1]) expiredTables :=
    follows [] (.call (servedAt 10) (.replaceUserRoles 7 [1] [1])) prefix_rfl
  have held := (call.effect succeeds 1).mpr mem_cons_self
  exact not_mem_nil (without ▸ held)

/-! ## A version stands for the rights -/

def play (d : Database) (calls : List (Circumstances × Operation)) : Database :=
  calls.foldl (fun d call => step d (.call call.1 call.2)) d

theorem version_le_play {d : Database} {calls : List (Circumstances × Operation)} {userId version : Nat}
    (stored : d.1.users.get userId = some version) :
    ∃ later, (play d calls).1.users.get userId = some later ∧ version ≤ later := by
  refine foldlRecOn (motive := fun e : Database => ∃ later, e.1.users.get userId = some later ∧
    version ≤ later) calls _ ⟨version, stored, le_rfl⟩ fun e before call _ => ?_
  obtain ⟨now, at_, more⟩ := before
  obtain ⟨-, userIds, m, -, users, -, ended⟩ := @run_sound call.1 e.1 call.2
  refine ⟨_, (ended.users userId).trans (by rw [users, at_]; rfl), more.trans ?_⟩
  dsimp only
  split <;> omega

/-- Over any calls no session version goes back, and a call after which a user's version is the same at any
later time has left the user's rights as they were. -/
theorem version_stands_for_rights (d : Database) (before after : List (Circumstances × Operation))
    (c : Circumstances) (op : Operation) (userId : Nat) :
    let s := play d before
    let t := play (step s (.call c op)) after
    (∀ version, s.1.users.get userId = some version →
      ∃ later, t.1.users.get userId = some later ∧ version ≤ later) ∧
    (t.1.users.get userId = s.1.users.get userId →
      SameRights s.1.toRights (op.run c s.1).2.toRights c.committedAt userId) := by
  intro s t
  refine ⟨fun version stored => @version_le_play s ((c, op) :: after) _ _ stored, fun same => ?_⟩
  by_contra moved
  obtain ⟨⟨version, stored, bumped⟩, -⟩ := run_sound.2.sessions s.2 moved
  obtain ⟨later, at_, more⟩ := @version_le_play (step s (.call c op)) after userId _ bumped
  rw [show t.1.users.get userId = some later from at_, stored] at same
  cases same
  omega

end Slide.Security.Rbac
