import Mathlib.Data.List.Dedup
import Slide.Library.Table
import Slide.Library.Transaction

/-!
# Roles and permissions

`RbacService`: the tables of roles, permissions and grants, and the operations that change what a user
may do.  An operation is one transaction; where it changes a user's rights it ends the user's sessions,
by a new `session_version` and the revocation of the refresh tokens.

Instants are whole seconds, as `DATETIME` and `NOW()` are.
-/

namespace Slide.Security.Rbac

open Transaction

/-! ## Tables -/

structure RoleRow where
  name : String
  description : Option String
  isSystem : Bool

/-- What grants rights: `permissions` by their codes, `userRoles` with their `grant_expiry`. -/
structure Rights where
  roles : Table Nat RoleRow
  permissions : Table Nat String
  rolePermissions : Table (Nat × Nat) Unit
  userRoles : Table (Nat × Nat) (Option Int)

structure RefreshTokenRow where
  userId : Nat
  revoked : Bool

/-- The rights, and the sessions: `users` by their `session_version`. -/
structure Tables extends Rights where
  users : Table Nat Nat
  refreshTokens : Table Nat RefreshTokenRow

/-- The foreign keys of the grants. -/
structure Tables.Consistent (t : Tables) : Prop where
  userRoles : ∀ e ∈ t.userRoles.entries, (t.users.get e.1.1).isSome ∧ (t.roles.get e.1.2).isSome
  rolePermissions : ∀ e ∈ t.rolePermissions.entries,
    (t.roles.get e.1.1).isSome ∧ (t.permissions.get e.1.2).isSome

/-- `grant_expiry IS NULL OR grant_expiry > NOW()` -/
def active (expiry : Option Int) (now : Int) : Bool :=
  match expiry with
  | none => true
  | some limit => now < limit

/-! ## Effective rights -/

def Rights.roleName (rights : Rights) (roleId : Nat) : Option String :=
  (rights.roles.get roleId).map RoleRow.name

/-- The roles that a user holds by a grant which has not run out, with their names. -/
def Rights.effectiveRoles (rights : Rights) (now : Int) (userId : Nat) : List (Nat × String) :=
  rights.userRoles.entries.filterMap fun e =>
    if e.1.1 = userId ∧ active e.2 now then
      (rights.roleName e.1.2).map fun name => (e.1.2, name)
    else none

def Rights.effectiveRoleIds (rights : Rights) (now : Int) (userId : Nat) : List Nat :=
  (rights.effectiveRoles now userId).map Prod.fst

/-- The codes of the permissions of these roles. -/
def Rights.effectivePermissions (rights : Rights) (now : Int) (userId : Nat) : List String :=
  (rights.effectiveRoleIds now userId).flatMap fun roleId =>
    rights.rolePermissions.entries.filterMap fun e =>
      if e.1.1 = roleId then rights.permissions.get e.1.2 else none

/-! ## Calls -/

inductive Pool
  | missing
  | withoutTransactions
  | refusing (message : String)
  | ready

/-- What a call meets: the pool, `NOW()` of each statement of its transaction, the errors of the
statements, of a rollback and of the commit that the server refuses, and the instant of the commit.  A
statement is refused for a deadlock or a lost connection, and also where it breaks the unique key of the
roles' names. -/
structure Circumstances where
  pool : Pool
  clock : Nat → Int
  refused : Nat → Option String
  (rollbackRefused commitRefused : Option String)
  committedAt : Int
  clock_le : ∀ n, clock n ≤ committedAt

structure Result where
  success : Bool
  error : Option String
  conflict : Option Bool

/-- A transaction between two statements. -/
structure Session where
  tables : Tables
  statements : Nat

abbrev Sql (α : Type) := Body Session String α

section Statements

variable {α : Type} (c : Circumstances)

def execute (statement : Int → Tables → Except String (α × Tables)) : Sql α := fun s =>
  match c.refused s.statements with
  | some message => .error message
  | none =>
    match statement (c.clock s.statements) s.tables with
    | .error message => .error message
    | .ok (a, tables) => .ok (a, ⟨tables, s.statements + 1⟩)

def select (read : Int → Tables → α) : Sql α := execute c fun now t => .ok (read now t, t)

/-- A statement with its `affectedRows`. -/
def update (write : Int → Tables → Nat × Tables) : Sql Nat := execute c fun now t => .ok (write now t)

/-- A mutation by one statement, and whether it affects rows. -/
def affectsRows (write : Int → Tables → Nat × Tables) : Sql Bool := do
  let affectedRows ← update c write
  pure (decide (affectedRows > 0))

def modify (write : Tables → Tables) : Sql Unit := execute c fun _ t => .ok ((), write t)

/-- A rollback by the operation itself, and the error that it then returns. -/
def rollback (error : String) : Sql α := fun _ => .error (c.rollbackRefused.getD error)

/-- A transaction over a connection of the pool, and what its caller returns. -/
def transaction (body : Sql Unit) (t : Tables) : Except String Unit × Tables :=
  match c.pool with
  | .missing => (.error "数据库未连接", t)
  | .withoutTransactions => (.error "数据库事务不可用", t)
  | .refusing message => (.error message, t)
  | .ready =>
    match body ⟨t, 0⟩ with
    | .error message => (.error message, t)
    | .ok (_, s) =>
      match c.commitRefused with
      | some message => (.error message, t)
      | none => (.ok (), s.tables)

/-- A statement of its own, over the pool. -/
def autocommit (statement : Sql Unit) (t : Tables) : Except String Unit × Tables :=
  match c.pool with
  | .missing => (.error "数据库未连接", t)
  | .refusing message => (.error message, t)
  | _ =>
    match statement ⟨t, 0⟩ with
    | .error message => (.error message, t)
    | .ok (_, s) => (.ok (), s.tables)

end Statements

def answer (outcome : Except String Unit × Tables) : Result × Tables :=
  match outcome with
  | (.ok (), t) => (⟨true, none, none⟩, t)
  | (.error message, t) => (⟨false, some message, none⟩, t)

/-! ## Ending sessions -/

def activeRoleUserIds (roleId : Nat) (now : Int) (t : Tables) : List Nat :=
  ((t.userRoles.entries.filter fun e => e.1.2 = roleId ∧ active e.2 now).map fun e => e.1.1).dedup

def bumpSessionVersions (userIds : List Nat) (t : Tables) : Tables :=
  { t with users := t.users.updateAll (fun id _ => id ∈ userIds) (· + 1) }

def revokeRefreshTokens (userIds : List Nat) (t : Tables) : Tables :=
  let refreshTokens := t.refreshTokens.updateAll (fun _ row => row.userId ∈ userIds) fun row =>
    { row with revoked := true }
  { t with refreshTokens }

section Operations

variable (c : Circumstances)

def getActiveRoleUserIds (roleId : Nat) : Sql (List Nat) := select c (activeRoleUserIds roleId)

/-- The two updates that end the sessions of users. -/
def endSessions (userIds : List Nat) : Sql Unit := do
  modify c (bumpSessionVersions userIds)
  modify c (revokeRefreshTokens userIds)

def bumpAndRevokeUsers (userIds : List Nat) : Sql Unit :=
  if userIds = [] then pure () else endSessions c userIds

def lockPermission (permissionId : Option Nat) : Sql Unit :=
  match permissionId with
  | none => pure ()
  | some permissionId => do
    let found ← select c fun _ t => (t.permissions.get permissionId).isSome
    ensure (found = true) "权限不存在"

/-- The body of `mutateRoleAndRevokeSessions`. -/
def mutateRoleAndRevokeSessions (roleId : Nat) (mutation : Sql Bool) (permissionId : Option Nat) :
    Sql Unit := do
  lockPermission c permissionId
  let userIds ← getActiveRoleUserIds c roleId
  let changed ← mutation
  bumpAndRevokeUsers c (if changed then userIds else [])

/-- The body of `mutateUserRoleAndRevokeSessions`. -/
def mutateUserRoleAndRevokeSessions (userId : Nat) (mutation : Sql Bool) : Sql Unit := do
  let _ ← select c fun _ t => t.users.get userId
  let changed ← mutation
  if changed then endSessions c [userId] else pure ()

/-! ## Roles -/

def updateRoleRow (roleId : Nat) (name : Option String) (description : Option (Option String))
    (t : Tables) : Nat × Tables :=
  let updated := t.roles.updateWhere roleId (fun _ => true) fun row =>
    { row with name := name.getD row.name, description := description.getD row.description }
  (updated.2, { t with roles := updated.1 })

/-- `updateRole`, whose `description` may be set to null. -/
def updateRole (roleId : Nat) (name : Option String) (description : Option (Option String))
    (t : Tables) : Result × Tables :=
  match c.pool with
  | .missing => (⟨false, some "数据库未连接", none⟩, t)
  | _ =>
    if name = none ∧ description = none then (⟨false, some "没有要更新的字段", none⟩, t)
    else if name.isSome then
      let mutation := affectsRows c fun _ => updateRoleRow roleId name description
      answer (transaction c (mutateRoleAndRevokeSessions c roleId mutation none) t)
    else
      let statement := modify c fun t => (updateRoleRow roleId name description t).2
      answer (autocommit c statement t)

/-- `DELETE FROM roles`, which removes the grants of the role. -/
def deleteRoleRow (roleId : Nat) (t : Tables) : Nat × Tables :=
  let deleted := t.roles.deleteWhere fun id _ => id = roleId
  (deleted.2, { t with
    roles := deleted.1
    rolePermissions := (t.rolePermissions.deleteWhere fun key _ => key.1 = roleId).1
    userRoles := (t.userRoles.deleteWhere fun key _ => key.2 = roleId).1 })

/-- The body of `deleteRole` once the row is locked. -/
def deleteLockedRole (roleId : Nat) (role : Option RoleRow) : Sql Unit :=
  match role with
  | none => rollback c "角色不存在"
  | some role =>
    if role.isSystem then rollback c "系统角色不可删除"
    else do
      let userIds ← getActiveRoleUserIds c roleId
      let affectedRows ← update c fun _ => deleteRoleRow roleId
      bumpAndRevokeUsers c (if affectedRows > 0 then userIds else [])

def deleteRoleBody (roleId : Nat) : Sql Unit := do
  let role ← select c fun _ t => t.roles.get roleId
  deleteLockedRole c roleId role

def deleteRole (roleId : Nat) (t : Tables) : Result × Tables :=
  answer (transaction c (deleteRoleBody c roleId) t)

/-! ## Permissions -/

/-- `DELETE FROM permissions`, which removes its grants to roles. -/
def deletePermissionRow (permissionId : Nat) (t : Tables) : Tables :=
  { t with
    permissions := (t.permissions.deleteWhere fun id _ => id = permissionId).1
    rolePermissions := (t.rolePermissions.deleteWhere fun key _ => key.2 = permissionId).1 }

def permissionRefs (permissionId : Nat) (t : Tables) : List Nat :=
  (t.rolePermissions.entries.filter fun e => e.1.2 = permissionId).map fun e => e.1.1

def deletePermissionBody (permissionId : Nat) : Sql Unit := do
  let _ ← select c fun _ t => t.permissions.get permissionId
  let refs ← select c fun _ t => permissionRefs permissionId t
  if refs.length > 0 then
    rollback c ("权限被 " ++ toString refs.length ++ " 个角色引用，无法删除")
  else modify c (deletePermissionRow permissionId)

def deletePermission (permissionId : Nat) (t : Tables) : Result × Tables :=
  answer (transaction c (deletePermissionBody c permissionId) t)

/-- `INSERT IGNORE INTO role_permissions`, which also ignores a foreign key that has no row. -/
def insertIgnoreRolePermission (roleId permissionId : Nat) (t : Tables) : Nat × Tables :=
  if (t.rolePermissions.get (roleId, permissionId)).isSome ∨ t.roles.get roleId = none ∨
      t.permissions.get permissionId = none then (0, t)
  else (1, { t with rolePermissions := t.rolePermissions.put (roleId, permissionId) () })

def assignPermissionToRole (roleId permissionId : Nat) (t : Tables) : Result × Tables :=
  let mutation := affectsRows c fun _ => insertIgnoreRolePermission roleId permissionId
  answer (transaction c (mutateRoleAndRevokeSessions c roleId mutation (some permissionId)) t)

def deleteRolePermission (roleId permissionId : Nat) (t : Tables) : Nat × Tables :=
  let deleted := t.rolePermissions.deleteWhere fun key _ => key = (roleId, permissionId)
  (deleted.2, { t with rolePermissions := deleted.1 })

def revokePermissionFromRole (roleId permissionId : Nat) (t : Tables) : Result × Tables :=
  let mutation := affectsRows c fun _ => deleteRolePermission roleId permissionId
  answer (transaction c (mutateRoleAndRevokeSessions c roleId mutation none) t)

/-! ## Roles of users -/

variable (userId roleId : Nat) (t : Tables)

/-- `INSERT IGNORE INTO user_roles`, which also ignores a foreign key that has no row. -/
def insertIgnoreUserRole : Nat × Tables :=
  if (t.userRoles.get (userId, roleId)).isSome ∨ t.users.get userId = none ∨
      t.roles.get roleId = none then (0, t)
  else (1, { t with userRoles := t.userRoles.put (userId, roleId) none })

/-- A plain `INSERT INTO user_roles`. -/
def insertUserRole : Except String (Unit × Tables) :=
  if (t.userRoles.get (userId, roleId)).isSome then .error "Duplicate entry"
  else if t.users.get userId = none ∨ t.roles.get roleId = none then
    .error "Cannot add or update a child row"
  else .ok ((), { t with userRoles := t.userRoles.put (userId, roleId) none })

def renewUserRole (now : Int) (t : Tables) : Nat × Tables :=
  let updated := t.userRoles.updateWhere (userId, roleId) (fun expiry => !active expiry now) fun _ => none
  (updated.2, { t with userRoles := updated.1 })

def deleteUserRole : Nat × Tables :=
  let deleted := t.userRoles.deleteWhere fun key _ => key = (userId, roleId)
  (deleted.2, { t with userRoles := deleted.1 })

/-- A grant without an expiry: a new row, or an expired one renewed. -/
def grant : Sql Bool := do
  let affectedRows ← update c fun _ => insertIgnoreUserRole userId roleId
  if affectedRows > 0 then pure true else affectsRows c (renewUserRole userId roleId)

def assignRoleToUser : Result × Tables :=
  answer (transaction c (mutateUserRoleAndRevokeSessions c userId (grant c userId roleId)) t)

def revokeRoleFromUser : Result × Tables :=
  let mutation := affectsRows c fun _ => deleteUserRole userId roleId
  answer (transaction c (mutateUserRoleAndRevokeSessions c userId mutation) t)

def storedRoleIds (userId : Nat) (t : Tables) : List Nat :=
  (t.userRoles.entries.filter fun e => e.1.1 = userId).map fun e => e.1.2

def conflictMessage : String := "角色已被其他操作修改，请刷新后重试"

def lockRoles : List Nat → Sql Unit
  | [] => pure ()
  | roleId :: rest => do
    let found ← select c fun _ t => (t.roles.get roleId).isSome
    ensure (found = true) "角色不存在"
    lockRoles rest

def deleteGrants (userId : Nat) : List Nat → Sql Unit
  | [] => pure ()
  | roleId :: rest => do
    modify c fun t => (deleteUserRole userId roleId t).2
    deleteGrants userId rest

def insertGrants (userId : Nat) : List Nat → Sql Unit
  | [] => pure ()
  | roleId :: rest => do
    execute c fun _ => insertUserRole userId roleId
    insertGrants userId rest

def sorted (ids : List Nat) : List Nat := ids.insertionSort (· ≤ ·)

/-- The mutation of `replaceUserRoles`. -/
def replaceGrants (userId : Nat) (roleIds expectedRoleIds : List Nat) : Sql Bool := do
  let found ← select c fun _ t => (t.users.get userId).isSome
  ensure (found = true) "用户不存在"
  let stored ← select c fun _ => storedRoleIds userId
  ensure (sorted stored = sorted expectedRoleIds) conflictMessage
  lockRoles c (sorted roleIds)
  let removed := (sorted stored).filter fun id => !roleIds.contains id
  let added := roleIds.filter fun id => !(sorted stored).contains id
  deleteGrants c userId removed
  insertGrants c userId added
  pure (decide (removed.length + added.length > 0))

def replaceUserRoles (userId : Nat) (roleIds expectedRoleIds : List Nat) (t : Tables) :
    Result × Tables :=
  match c.pool with
  | .missing => (⟨false, some "数据库未连接", none⟩, t)
  | _ =>
    let mutation := replaceGrants c userId roleIds expectedRoleIds
    match transaction c (mutateUserRoleAndRevokeSessions c userId mutation) t with
    | (.ok (), t) => (⟨true, none, none⟩, t)
    | (.error message, t) => (⟨false, some message, some (message = conflictMessage)⟩, t)

end Operations

inductive Operation
  | assignPermissionToRole (roleId permissionId : Nat)
  | revokePermissionFromRole (roleId permissionId : Nat)
  | updateRole (roleId : Nat) (name : Option String) (description : Option (Option String))
  | deleteRole (roleId : Nat)
  | deletePermission (permissionId : Nat)
  | assignRoleToUser (userId roleId : Nat)
  | revokeRoleFromUser (userId roleId : Nat)
  | replaceUserRoles (userId : Nat) (roleIds expectedRoleIds : List Nat)

/-- An operation in its circumstances: what its caller gets, and the tables after it. -/
def Operation.run (c : Circumstances) (t : Tables) : Operation → Result × Tables
  | .assignPermissionToRole roleId permissionId => Rbac.assignPermissionToRole c roleId permissionId t
  | .revokePermissionFromRole roleId permissionId => Rbac.revokePermissionFromRole c roleId permissionId t
  | .updateRole roleId name description => Rbac.updateRole c roleId name description t
  | .deleteRole roleId => Rbac.deleteRole c roleId t
  | .deletePermission permissionId => Rbac.deletePermission c permissionId t
  | .assignRoleToUser userId roleId => Rbac.assignRoleToUser c userId roleId t
  | .revokeRoleFromUser userId roleId => Rbac.revokeRoleFromUser c userId roleId t
  | .replaceUserRoles userId roleIds expectedRoleIds =>
    Rbac.replaceUserRoles c userId roleIds expectedRoleIds t

end Slide.Security.Rbac
