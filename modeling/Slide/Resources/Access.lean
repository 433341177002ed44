import Mathlib.Data.List.Basic
import Std.Data.String.ToNat

/-!
# Resources and who may use them

`resources/types.ts` and the two access checks of `resource-service.ts`.
-/

namespace Slide.Resources

inductive ResourceType
  | databaseInstance | server | networkDevice
deriving DecidableEq

def ResourceType.text : ResourceType → String
  | .databaseInstance => "instance"
  | .server => "server"
  | .networkDevice => "network_device"

structure ResourceRef where
  type : ResourceType
  id : Nat
deriving DecidableEq

/-- `resourceKey`. -/
def ResourceRef.key (ref : ResourceRef) : String := ref.type.text ++ ":" ++ Nat.repr ref.id

theorem ResourceRef.key_inj_of_type {type : ResourceType} {m n : Nat}
    (same : (ResourceRef.mk type m).key = (ResourceRef.mk type n).key) : m = n := by
  unfold ResourceRef.key at same
  exact Nat.repr_injective ((String.append_right_inj _).mp same)

theorem ResourceRef.key_injective : Function.Injective ResourceRef.key := by
  rintro ⟨type, m⟩ ⟨type', n⟩ same
  have letters := congrArg (fun text => text.toList.head?) same
  cases type <;> cases type' <;>
    first
    | rw [ResourceRef.key_inj_of_type same]
    | simp [ResourceRef.key, ResourceType.text, String.toList_append] at letters

structure ResourceBoundary where
  (instanceIds serverIds networkDeviceIds : List Nat)

/-- The fields of `ActorContext` that access to a resource depends on. -/
structure ActorContext where
  userId : Nat
  permissions : List String
  /-- `instanceScopes`: the level of an instance, where there is one. -/
  instanceScopes : List (Nat × String)
  resourceBoundary : Option ResourceBoundary := none

/-- `hasPermission`; `resource` is the part of the permission before its colon. -/
def hasPermission (actor : ActorContext) (resource action : String) : Bool :=
  actor.permissions.contains "*" || actor.permissions.contains (resource ++ ":" ++ action) ||
    actor.permissions.contains (resource ++ ":*")

/-- The boundary lets the resource through. -/
def ResourceBoundary.contains (boundary : ResourceBoundary) (ref : ResourceRef) : Bool :=
  match ref.type with
  | .databaseInstance => boundary.instanceIds.contains ref.id
  | .server => boundary.serverIds.contains ref.id
  | .networkDevice => boundary.networkDeviceIds.contains ref.id

/-- `actor.instanceScopes[id]`. -/
def ActorContext.scope (actor : ActorContext) (id : Nat) : Option String :=
  (actor.instanceScopes.find? fun entry => entry.1 = id).map Prod.snd

def canReadResource (actor : ActorContext) (ref : ResourceRef) : Bool :=
  actor.resourceBoundary.all (·.contains ref) &&
    match ref.type with
    | .databaseInstance => actor.permissions.contains "*" || actor.permissions.contains "instance:*" ||
        (actor.scope ref.id).any (· ≠ "")
    | .server => hasPermission actor "servers" "view"
    | .networkDevice => hasPermission actor "network_devices" "view"

def canManageResource (actor : ActorContext) (ref : ResourceRef) : Bool :=
  actor.resourceBoundary.all (·.contains ref) &&
    match ref.type with
    | .databaseInstance => actor.permissions.contains "*" || actor.permissions.contains "instance:*" ||
        hasPermission actor "instance" "manage" &&
          (actor.scope ref.id = some "read-write" || actor.scope ref.id = some "admin")
    | .server => hasPermission actor "servers" "manage"
    | .networkDevice => hasPermission actor "network_devices" "manage"

end Slide.Resources
