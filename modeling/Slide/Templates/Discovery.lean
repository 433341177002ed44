import Slide.Library.Fallible
import Slide.Library.JsString
import Slide.Library.Keyed

/-!
# Discovered instances

`reconcileDiscovery` of `metrics/templates/discovery.ts`, the row that `updateFormalDiscovery` keeps of
one rule, and the stop action of `discovery-routes.ts`.  Both writers lock the row, so they follow one
another.  Dimensions stand for the entries in the order `stable` prints them.
-/

namespace Slide.Templates

abbrev Dimensions := List (String × String)

inductive InstanceState
  | active | waiting | disabled | retired
deriving DecidableEq

structure Transition where
  state : InstanceState
  at_ : Int
deriving DecidableEq

structure DiscoveryInstance where
  (id identity name : String)
  dimensions : Dimensions
  dimensionHistory : List Dimensions
  (firstSeen lastSeen : Int)
  missingSince : Option Int
  state : InstanceState
  manual : Bool
  transitions : List Transition
deriving DecidableEq

/-- A row of an enumeration. -/
structure DiscoveryMember where
  (identity name : String)
  dimensions : Dimensions

/-- What reconciliation reads of a rule besides its id. -/
structure DiscoveryRule where
  maxInstances : Nat
  (lostAfterMs retireAfterMs : Int)
deriving DecidableEq

/-! ## Reconciliation -/

/-- The state of an instance that has been missing for a time. -/
def DiscoveryRule.stateAfter (rule : DiscoveryRule) (elapsed : Int) : InstanceState :=
  if rule.retireAfterMs ≤ elapsed then .retired
  else if rule.lostAfterMs ≤ elapsed then .disabled
  else .waiting

variable (m : DiscoveryInstance)

def DiscoveryInstance.enter (state : InstanceState) (now : Int) :
    DiscoveryInstance :=
  { m with state, transitions := m.transitions ++ [⟨state, now⟩] }

variable (hashOf : String → String → String) (ruleId : String)

/-- `hashOf({ rule, identity })`. -/
def DiscoveryMember.id (row : DiscoveryMember) :
    String :=
  hashOf ruleId row.identity

/-- The instance of a row that is seen for the first time. -/
def fresh (id : String) (row : DiscoveryMember) (now : Int) : DiscoveryInstance where
  id
  identity := row.identity
  name := row.name
  dimensions := row.dimensions
  dimensionHistory := [row.dimensions]
  firstSeen := now
  lastSeen := now
  missingSince := none
  state := .active
  manual := false
  transitions := [⟨.active, now⟩]

/-- The dimensions of a row, with the ones it had before. -/
def DiscoveryInstance.measured (dimensions : Dimensions) : DiscoveryInstance :=
  if m.dimensions = dimensions then m
  else { m with
    dimensions
    dimensionHistory :=
      if dimensions ∈ m.dimensionHistory then m.dimensionHistory
      else m.dimensionHistory ++ [dimensions] }

/-- An instance that a row shows. -/
def DiscoveryInstance.see (row : DiscoveryMember) (now : Int) :
    DiscoveryInstance :=
  let m := { m with name := row.name, lastSeen := now, missingSince := none }.measured row.dimensions
  if !m.manual && m.state ≠ .active then m.enter .active now else m

/-- One row of the first loop. -/
def seeRow (now : Int)
    (next : List DiscoveryInstance) (row : DiscoveryMember) : List DiscoveryInstance :=
  let id := row.id hashOf ruleId
  let member := (next.find? (·.id = id)).getD (fresh id row now)
  Keyed.upsert (·.id) (member.see row now) next

/-- One instance of the second loop. -/
def DiscoveryInstance.lapse (rule : DiscoveryRule) (present : List String)
    (now : Int) : DiscoveryInstance :=
  if m.id ∈ present ∨ m.manual = true then m
  else
    let since := m.missingSince.getD now
    let m := { m with missingSince := some since }
    let state := rule.stateAfter (now - since)
    if state = m.state then m else m.enter state now

/-- `reconcileDiscovery`.  The ids are hexadecimal digests, which `localeCompare` orders as `<` does. -/
def reconcileDiscovery (rule : DiscoveryRule)
    (previous : List DiscoveryInstance) (rows : List DiscoveryMember) (now : Int) (complete : Bool) :
    Except String (List DiscoveryInstance) := do
  if !complete then return previous
  if rule.maxInstances < rows.length then throw "DISCOVERY_BUDGET"
  if ¬ (rows.map (·.identity)).Nodup then throw "DISCOVERY_DUPLICATE"
  if previous.any fun v => now < v.lastSeen || v.transitions.getLast?.any fun t => now < t.at_ then
    throw "DISCOVERY_CLOCK"
  let next := rows.foldl (seeRow hashOf ruleId now) previous
  let present := rows.map (·.id hashOf ruleId)
  pure ((next.map (·.lapse rule present now)).insertionSort fun a b => JsString.le a.id b.id)

/-! ## The row of a rule -/

/-- Where the rule comes from. -/
structure Pin where
  templateVersion : Nat
  contentHash : String
  configRevision : Nat
deriving DecidableEq

/-- A row of `metric_discovery_states`; the items and triggers of the payload belong to its pin. -/
structure DiscoveryRow where
  revision : Nat
  pin : Pin
  rule : DiscoveryRule
  members : List DiscoveryInstance

/-- The members of the row, of which there are none before it is written. -/
def membersOf (row : Option DiscoveryRow) : List DiscoveryInstance :=
  (row.map (·.members)).getD []

structure EnumerationInput where
  pin : Pin
  rule : DiscoveryRule
  rows : List DiscoveryMember
  now : Int
  complete : Bool

/-- What `updateFormalDiscovery` does with the row of one rule; an equal state is not written. -/
def updateFormalDiscovery (row : Option DiscoveryRow) (input : EnumerationInput) : Except String (Option DiscoveryRow) := do
  let members ← reconcileDiscovery hashOf ruleId input.rule (membersOf row) input.rows input.now
    input.complete
  match row with
  | none => pure (some ⟨1, input.pin, input.rule, members⟩)
  | some old =>
    if old.pin = input.pin ∧ old.rule = input.rule ∧ old.members = members then pure (some old)
    else pure (some ⟨old.revision + 1, input.pin, input.rule, members⟩)

inductive StopAction
  | disabled | retired

def StopAction.state : StopAction → InstanceState
  | .disabled => .disabled
  | .retired => .retired

structure StopInput where
  expectedRevision : Nat
  instanceId : String
  action : StopAction

/-- What a stop makes of its instance. -/
def DiscoveryInstance.stop (m : DiscoveryInstance) (action : StopAction) (now : Int) :
    DiscoveryInstance :=
  { m with manual := true }.enter action.state now

/-- The stop action; `now` is `Date.now()`.  A repeated action is answered without a write. -/
def stopInstance (row : Option DiscoveryRow) (input : StopInput) (now : Int) :
    Except String (Option DiscoveryRow) :=
  match row with
  | none => .error "DISCOVERY_INSTANCE_NOT_FOUND"
  | some old =>
    match old.members.find? (·.id = input.instanceId) with
    | none => .error "DISCOVERY_INSTANCE_NOT_FOUND"
    | some member =>
      if member.manual = true ∧ member.state = input.action.state then .ok (some old)
      else if old.revision ≠ input.expectedRevision then .error "DISCOVERY_REVISION_CONFLICT"
      else .ok (some { old with
        revision := old.revision + 1
        members := old.members.map fun m =>
          if m.id = input.instanceId then m.stop input.action now else m })

/-! ## Runs -/

inductive Step
  | enumerate (input : EnumerationInput)
  | stop (input : StopInput) (now : Int)

def Step.time : Step → Int
  | .enumerate input => input.now
  | .stop _ now => now

/-- The row with, newest first, the complete enumerations it was reconciled with. -/
structure World where
  row : Option DiscoveryRow
  log : List EnumerationInput

/-- A step that throws changes nothing. -/
def World.after (w : World) : Step → World
  | .enumerate input =>
    match updateFormalDiscovery hashOf ruleId w.row input with
    | .error _ => w
    | .ok row => ⟨row, if input.complete then input :: w.log else w.log⟩
  | .stop input now =>
    match stopInstance w.row input now with
    | .error _ => w
    | .ok row => ⟨row, w.log⟩

def reached (steps : List Step) : World :=
  steps.foldl (World.after hashOf ruleId) ⟨none, []⟩

end Slide.Templates
