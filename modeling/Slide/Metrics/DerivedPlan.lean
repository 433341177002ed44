import Slide.Library.Dag
import Slide.Library.Keyed
import Slide.Metrics.Evidence

/-!
# Derived metrics

A derived metric is one node of a plan: an operation over metrics that are inputs of the plan or
outputs of other nodes.  `validateCatalog` and `validateDerived` of `contracts/metrics/validation.ts`
check the definitions and the nodes.  `validateDerived_iff` says what they accept: a `Plan`, which
does not depend on the order of the nodes and whose dependencies are acyclic.
-/

namespace Slide.Metrics

open List

inductive DerivedOperation
  | difference | rate | ratio | sum | scale
deriving DecidableEq

/-- `DerivedMetricSchema`, without its literal members. -/
structure DerivedMetric where
  id : String
  output : MetricRef
  transformVersion : Version
  inputs : List MetricRef
  someInput : inputs ≠ []
  operation : DerivedOperation
  factor : Option FiniteNumber
  maxSkewMs : Nat

/-! ## `validateCatalog` -/

/-- Equal `semanticSignature`s; the text of a number is the same for both zeros. -/
def sameSemantics (a b : MetricDefinition) : Prop :=
  a.meaning = b.meaning ∧ a.unit = b.unit ∧ a.resourceType = b.resourceType ∧ a.scope = b.scope ∧
    a.kind = b.kind ∧ a.temporality = b.temporality ∧ a.monotonic = b.monotonic ∧
    a.valueType = b.valueType ∧ a.dimensions = b.dimensions ∧
    a.aggregation.time = b.aggregation.time ∧ a.aggregation.space = b.aggregation.space ∧
    (a.aggregation.minCoverage.val == b.aggregation.minCoverage.val) = true ∧
    a.aggregation.quantiles = b.aggregation.quantiles

instance : DecidableRel sameSemantics := fun _ _ =>
  inferInstanceAs (Decidable (_ ∧ _ ∧ _ ∧ _ ∧ _ ∧ _ ∧ _ ∧ _ ∧ _ ∧ _ ∧ _ ∧ _ ∧ _))

/-- The loop over the definitions; `seen` holds the last one first. -/
def validateIdentities : (seen : List MetricDefinition) → List MetricDefinition →
    Except String PUnit
  | _, [] => pure ()
  | seen, d :: rest => do
    let previous : Option MetricDefinition := seen.find? (·.id = d.id)
    requireRule (∀ p ∈ previous, sameSemantics p d) "IDENTITY_SEMANTIC_CONFLICT"
    requireRule (d.ref ∉ seen.map MetricDefinition.ref) "DUPLICATE_DEFINITION"
    validateIdentities (d :: seen) rest

/-- `validateCatalog`, without aliases. -/
def validateCatalog (definitions : List MetricDefinition) : Except String PUnit := do
  definitions.forM validateDefinition
  validateIdentities [] definitions
  definitions.forM fun d =>
    requireRule (∀ id ∈ d.replacementId, id ∈ definitions.map MetricDefinition.id)
      "REPLACEMENT_NOT_FOUND"

def lookup (ref : MetricRef) (definitions : List MetricDefinition) :
    Except String MetricDefinition :=
  match definitions.find? (·.ref = ref) with
  | some d => .ok d
  | none => .error "UNKNOWN_METRIC"

theorem lookup_ref {ref : MetricRef} {definitions : List MetricDefinition} {d : MetricDefinition}
    (found : lookup ref definitions = .ok d) : d.ref = ref := by
  unfold lookup at found
  split at found
  next present =>
    obtain rfl := Except.ok.inj found
    have holds := List.find?_some present
    exact of_decide_eq_true holds
  next => cases found

/-! ## `validateDerived` -/

/-- The units a rate of a counter can have. -/
def rateUnits : MetricUnit → List MetricUnit
  | .bytes => [.bytesPerSecond, .bitsPerSecond]
  | .count => [.countPerSecond]
  | _ => []

/-- The rules of each operation. -/
def DerivedMetric.operationRules (n : DerivedMetric) (output : MetricDefinition)
    (args : List MetricDefinition) : Except String PUnit :=
  match n.operation with
  | .sum => requireRule (∀ d ∈ args, d.unit = output.unit) "DERIVED_UNIT"
  | .difference =>
    requireRule ((∀ d ∈ args, d.unit = output.unit) ∧ args.length = 2) "DERIVED_UNIT"
  | .ratio =>
    match args with
    | [a, b] => requireRule (a.unit = b.unit ∧ output.unit ∈ [.one, .percent]) "DERIVED_UNIT"
    | _ => .error "DERIVED_UNIT"
  | .scale =>
    match args with
    | [a] => requireRule (a.unit = output.unit ∧ n.factor ≠ none) "DERIVED_UNIT"
    | _ => .error "DERIVED_UNIT"
  | .rate =>
    match args with
    | [a] => requireRule (a.kind = .counter ∧ a.temporality = .cumulative ∧ a.monotonic = true ∧
        output.unit ∈ rateUnits a.unit) "DERIVED_RATE"
    | _ => .error "DERIVED_RATE"

/-- The rules of the loop over the nodes that look at one node. -/
def DerivedMetric.rules (n : DerivedMetric) (output : MetricDefinition)
    (args : List MetricDefinition) : Except String PUnit := do
  requireRule (output.kind = .gauge ∧ output.valueType.isScalar = true) "DERIVED_OUTPUT"
  requireRule (∀ d ∈ args, d.resourceType = output.resourceType ∧ d.dimensions = output.dimensions)
    "DERIVED_JOIN"
  n.operationRules output args
  requireRule (n.operation = .scale ∨ n.factor = none) "UNEXPECTED_FACTOR"

/-- The loop over the nodes; `seen` holds the ids of the outputs so far. -/
def validateNodes (definitions : List MetricDefinition) : (seen : List String) →
    List DerivedMetric → Except String PUnit
  | _, [] => pure ()
  | seen, n :: rest => do
    let output ← lookup n.output definitions
    let args ← n.inputs.mapM fun ref => lookup ref definitions
    requireRule (output.id ∉ seen) "DUPLICATE_SOURCE"
    n.rules output args
    validateNodes definitions (output.id :: seen) rest

def DerivedMetric.outputId (n : DerivedMetric) : String := n.output.id

/-- The metric ids of the outputs, each with those among the inputs of its node. -/
def idGraph (nodes : List DerivedMetric) : Dag.Graph String String where
  name := id
  deps metric := match nodes.find? (·.outputId = metric) with
    | some n => (n.inputs.map MetricRef.id).filter (· ∈ nodes.map DerivedMetric.outputId)
    | none => []

def validateDerived (nodes : List DerivedMetric) (definitions : List MetricDefinition) :
    Except (Halt String) PUnit := do
  requireRule (nodes.map DerivedMetric.id).Nodup "DERIVED_ID_CONFLICT"
  validateNodes definitions [] nodes
  -- `visiting` holds the ids of the calls under way, which are the path
  let _ ← Dag.walk (idGraph nodes) (Dag.refusing "DERIVED_CYCLE") (nodes.length + 1)
    (nodes.map DerivedMetric.outputId) ()

/-! ## Plans -/

/-- A node that passes the rules that look at it alone. -/
def DerivedMetric.Admitted (definitions : List MetricDefinition) (n : DerivedMetric) : Prop :=
  ∃ output args, lookup n.output definitions = .ok output ∧
    n.inputs.mapM (fun ref => lookup ref definitions) = .ok args ∧ n.rules output args = .ok ()

/-- What `validateDerived` accepts. -/
structure Plan (definitions : List MetricDefinition) (nodes : List DerivedMetric) : Prop where
  ids : (nodes.map DerivedMetric.id).Nodup
  outputs : (nodes.map DerivedMetric.outputId).Nodup
  admitted : ∀ n ∈ nodes, n.Admitted definitions
  acyclic : ∃ rank : String → Nat, ∀ n ∈ nodes, ∀ ref ∈ n.inputs,
    ref.id ∈ nodes.map DerivedMetric.outputId → rank ref.id < rank n.outputId

section Plans

variable {definitions : List MetricDefinition} {nodes nodes' : List DerivedMetric}

theorem validateNodes_iff {seen : List String} : validateNodes definitions seen nodes = .ok () ↔
    (∀ n ∈ nodes, n.Admitted definitions) ∧ (nodes.map DerivedMetric.outputId).Nodup ∧
      ∀ n ∈ nodes, n.outputId ∉ seen := by
  induction nodes generalizing seen with
  | nil => exact ⟨fun _ => ⟨nofun, nodup_nil, nofun⟩, fun _ => rfl⟩
  | cons n rest ih =>
    unfold validateNodes
    simp only [bind_eq_ok, requireRule_ok, ih, map_cons, nodup_cons,
      forall_mem_cons, DerivedMetric.Admitted]
    constructor
    · rintro ⟨output, found, args, founds, _, fresh, _, rules, admitted, nodup, away⟩
      have same : n.outputId = output.id := (congrArg MetricRef.id (lookup_ref found)).symm
      rw [← same] at fresh away
      refine ⟨⟨⟨output, args, found, founds, rules⟩, admitted⟩, ⟨?_, nodup⟩, fresh,
        fun m mem => ?_⟩
      · rintro twice
        obtain ⟨m, mem, same⟩ := mem_map.mp twice
        exact away m mem (same ▸ mem_cons_self)
      · exact fun before => away m mem (mem_cons_of_mem _ before)
    · rintro ⟨⟨⟨output, args, found, founds, rules⟩, admitted⟩, ⟨once, nodup⟩, fresh, away⟩
      have same : n.outputId = output.id := (congrArg MetricRef.id (lookup_ref found)).symm
      refine ⟨output, found, args, founds, ⟨⟩, same ▸ fresh, ⟨⟩, rules, admitted, nodup,
        fun m mem => ?_⟩
      rw [← same, mem_cons, not_or]
      exact ⟨fun equal => once (equal ▸ mem_map_of_mem mem), away m mem⟩

theorem idGraph_named : (idGraph nodes).Named (nodes.map DerivedMetric.outputId) where
  closed metric _ d dep := by
    unfold idGraph at dep
    dsimp only at dep
    split at dep
    · exact of_decide_eq_true (mem_filter.mp dep).2
    · cases dep
  inj _ _ _ _ same := same

theorem idGraph_deps (outputs : (nodes.map DerivedMetric.outputId).Nodup) {n : DerivedMetric}
    (mem : n ∈ nodes) : (idGraph nodes).deps n.outputId =
      (n.inputs.map MetricRef.id).filter (· ∈ nodes.map DerivedMetric.outputId) := by
  unfold idGraph
  dsimp only
  rw [Keyed.find?_of_mem outputs mem]

theorem idGraph_acyclic_iff (outputs : (nodes.map DerivedMetric.outputId).Nodup) :
    Dag.Acyclic (idGraph nodes) (nodes.map DerivedMetric.outputId) ↔
      ∃ rank : String → Nat, ∀ n ∈ nodes, ∀ ref ∈ n.inputs,
        ref.id ∈ nodes.map DerivedMetric.outputId → rank ref.id < rank n.outputId := by
  refine exists_congr fun rank => ⟨fun ranked n mem ref dep inside => ?_, fun ranked => ?_⟩
  · refine ranked n.outputId (mem_map_of_mem mem) ref.id ?_
    rw [idGraph_deps outputs mem]
    exact mem_filter.mpr ⟨mem_map_of_mem dep, decide_eq_true inside⟩
  · intro metric known d dep
    obtain ⟨n, mem, rfl⟩ := mem_map.mp known
    rw [idGraph_deps outputs mem] at dep
    obtain ⟨among, inside⟩ := mem_filter.mp dep
    obtain ⟨ref, input, rfl⟩ := mem_map.mp among
    exact ranked n mem ref input (of_decide_eq_true inside)

theorem validateDerived_iff : validateDerived nodes definitions = .ok () ↔
    Plan definitions nodes := by
  have enough : (nodes.map DerivedMetric.outputId).length < nodes.length + 1 := by simp
  have cycles : (∃ q, Dag.walk (idGraph nodes) (Dag.refusing "DERIVED_CYCLE") (nodes.length + 1)
      (nodes.map DerivedMetric.outputId) () = .ok q) ↔
        Dag.Acyclic (idGraph nodes) (nodes.map DerivedMetric.outputId) :=
    Dag.walk_refusing_iff idGraph_named enough
  unfold validateDerived
  simp only [bind_eq_ok, Halt.lift_eq_ok, requireRule_ok]
  constructor
  · rintro ⟨_, ids, _, valid, q, walked, -⟩
    obtain ⟨admitted, outputs, -⟩ := validateNodes_iff.mp valid
    exact ⟨ids, outputs, admitted, (idGraph_acyclic_iff outputs).mp (cycles.mp ⟨q, walked⟩)⟩
  · rintro ⟨ids, outputs, admitted, acyclic⟩
    obtain ⟨q, walked⟩ := cycles.mpr ((idGraph_acyclic_iff outputs).mpr acyclic)
    have valid : validateNodes definitions [] nodes = .ok () :=
      validateNodes_iff.mpr ⟨admitted, outputs, fun _ _ => not_mem_nil⟩
    exact ⟨⟨⟩, ids, ⟨⟩, valid, q, walked, rfl⟩

theorem validateDerived_ends : validateDerived nodes definitions ≠ .error .outOfFuel := by
  have enough : (nodes.map DerivedMetric.outputId).length < nodes.length + 1 := by simp
  have cycles : Dag.walk (idGraph nodes) (Dag.refusing "DERIVED_CYCLE") (nodes.length + 1)
      (nodes.map DerivedMetric.outputId) () ≠ .error .outOfFuel :=
    Dag.walk_refusing_ends idGraph_named enough
  unfold validateDerived
  refine Halt.lift_bind_ne fun _ => Halt.lift_bind_ne fun _ => ?_
  exact Halt.bind_ne cycles fun _ _ => nofun

theorem Plan.perm (plan : Plan definitions nodes) (permuted : nodes.Perm nodes') :
    Plan definitions nodes' where
  ids := (permuted.map _).nodup_iff.mp plan.ids
  outputs := (permuted.map _).nodup_iff.mp plan.outputs
  admitted n mem := plan.admitted n (permuted.mem_iff.mpr mem)
  acyclic := by
    obtain ⟨rank, ranked⟩ := plan.acyclic
    exact ⟨rank, fun n mem ref input inside => ranked n (permuted.mem_iff.mpr mem) ref input
      ((permuted.map _).mem_iff.mpr inside)⟩

end Plans

end Slide.Metrics
