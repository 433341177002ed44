import Slide.Metrics.CounterRun
import Slide.Metrics.Derived

/-!
# Runs of derived metrics

What one visit does and what a whole execution leaves.  A visit reads the inputs of its node only
(`evaluateNode_congr`), and the order of the plan does not reach it (`evaluateNode_of_perm`): the
consumers of a counter enter its fingerprint sorted.  An execution is a run of visits;
`Settled` is kept by each and says that the value of every visited node is the one its visit would
compute from the final values.
-/

namespace Slide.Metrics

open Transition List

/-! ## One visit -/

section Visit

variable {digest : IdentityPreimage → String} {nodes nodes' : List DerivedMetric}
  {definitions : List MetricDefinition} {execution : DerivedExecution} {node : DerivedMetric}
  {values values' : MetricRef → Option Computation} {result own : NodeResult}
  {d : MetricDefinition} {target : DerivedTarget} {input : Observation} {revision : String}

theorem DerivedMetric.first_mem (n : DerivedMetric) : n.first ∈ n.inputs := head_mem _

theorem evaluateNode_congr (agree : ∀ ref ∈ node.inputs, values ref = values' ref) :
    evaluateNode digest nodes definitions execution node values =
      evaluateNode digest nodes definitions execution node values' := by
  have args : node.inputs.map values = node.inputs.map values' := map_congr_left agree
  unfold evaluateNode nodeResult
  rw [args, agree _ node.first_mem]

theorem planRevision_of_perm (permuted : nodes.Perm nodes')
    (ok : execution.planRevision nodes node = .ok revision) :
    execution.planRevision nodes' node = .ok revision := by
  unfold DerivedExecution.planRevision at ok ⊢
  obtain ⟨texts, each, ok⟩ := bind_eq_ok.mp ok
  have among : (consumers nodes node).Perm (consumers nodes' node) := permuted.filter _
  obtain ⟨texts', each', same⟩ := Except.mapM_ok_of_perm among each
  refine bind_eq_ok.mpr ⟨texts', each', ?_⟩
  rw [← JsString.sort_eq_of_perm same]
  exact ok

theorem nodeResult_of_perm (permuted : nodes.Perm nodes')
    (ok : nodeResult digest nodes definitions execution node d target values = .ok own) :
    nodeResult digest nodes' definitions execution node d target values = .ok own := by
  unfold nodeResult at ok ⊢
  split at ok
  next rate input =>
    obtain ⟨transition, moved, ok⟩ := bind_eq_ok.mp ok
    refine bind_eq_ok.mpr ⟨transition, ?_, ok⟩
    obtain ⟨revision, planned, moved⟩ := bind_eq_ok.mp moved
    exact bind_eq_ok.mpr ⟨revision, planRevision_of_perm permuted planned, moved⟩
  next => exact ok

theorem evaluateNode_of_perm (permuted : nodes.Perm nodes')
    (ok : evaluateNode digest nodes definitions execution node values = .ok result) :
    evaluateNode digest nodes' definitions execution node values = .ok result := by
  obtain ⟨target, found, ok⟩ := bind_eq_ok.mp ok
  obtain ⟨d, output, ok⟩ := bind_eq_ok.mp ok
  obtain ⟨u, scalars, ok⟩ := bind_eq_ok.mp ok
  obtain ⟨own, branch, ok⟩ := bind_eq_ok.mp ok
  exact bind_eq_ok.mpr ⟨target, found, bind_eq_ok.mpr ⟨d, output,
    bind_eq_ok.mpr ⟨u, scalars,
      bind_eq_ok.mpr ⟨own, nodeResult_of_perm permuted branch, ok⟩⟩⟩⟩

/-- What a successful visit computed. -/
structure Evaluated (digest : IdentityPreimage → String) (nodes : List DerivedMetric)
    (definitions : List MetricDefinition) (execution : DerivedExecution) (node : DerivedMetric)
    (values : MetricRef → Option Computation) (result : NodeResult) (target : DerivedTarget)
    (d : MetricDefinition) (own : NodeResult) : Prop where
  output : lookup node.output definitions = .ok d
  branch : nodeResult digest nodes definitions execution node d target values = .ok own
  inherited : result.output =
    own.output.inherit execution.context (node.inputs.map values).reduceOption
  state : result.state = own.state

theorem evaluateNode_spec
    (ok : evaluateNode digest nodes definitions execution node values = .ok result) :
    ∃ target d own,
      Evaluated digest nodes definitions execution node values result target d own := by
  obtain ⟨target, -, ok⟩ := bind_eq_ok.mp ok
  obtain ⟨d, output, ok⟩ := bind_eq_ok.mp ok
  obtain ⟨u, -, ok⟩ := bind_eq_ok.mp ok
  obtain ⟨own, branch, ok⟩ := bind_eq_ok.mp ok
  obtain rfl := Except.ok.inj ok
  exact ⟨target, d, own, output, branch, rfl, rfl⟩

theorem nodeResult_cases
    (ok : nodeResult digest nodes definitions execution node d target values = .ok own) :
    (∃ c, node.operation = .rate ∧ values node.first = some c ∧
      rateResult digest nodes definitions execution node d target c.observation = .ok own) ∨
    ¬ (node.operation = .rate ∧ values node.first ≠ none) ∧
      arithmeticResult digest execution node d target (node.inputs.map values) = .ok own := by
  unfold nodeResult at ok
  split at ok
  next c rate found => exact .inl ⟨c, rate, found, ok⟩
  next other =>
    refine .inr ⟨fun ⟨rate, present⟩ => ?_, ok⟩
    obtain ⟨c, found⟩ := Option.ne_none_iff_exists'.mp present
    exact other c rate found

theorem nodeResult_valid
    (ok : nodeResult digest nodes definitions execution node d target values = .ok own) :
    validateObservation digest own.output.observation d = .ok () := by
  rcases nodeResult_cases ok with ⟨c, -, -, ok⟩ | ⟨-, ok⟩
  · obtain ⟨transition, -, ok⟩ := bind_eq_ok.mp ok
    obtain ⟨_, valid, ok⟩ := bind_eq_ok.mp ok
    obtain rfl := Except.ok.inj ok
    exact valid
  · obtain ⟨_, -, ok⟩ := bind_eq_ok.mp ok
    obtain ⟨window, -, ok⟩ := bind_eq_ok.mp ok
    obtain ⟨output, built, ok⟩ := bind_eq_ok.mp ok
    obtain rfl := Except.ok.inj ok
    obtain ⟨encoded, -, valid, rfl⟩ := buildOutput_spec built
    exact valid

theorem evaluateNode_valid
    (ok : evaluateNode digest nodes definitions execution node values = .ok result) :
    result.output.observation.metric = node.output ∧
      (result.output.observation.quality.status.withholds ↔
        result.output.observation.value = none) := by
  obtain ⟨target, d, own, evaluated⟩ := evaluateNode_spec ok
  have valid := nodeResult_valid evaluated.branch
  rw [evaluated.inherited]
  exact ⟨(metric_of_valid valid).trans (lookup_ref evaluated.output),
    withholds_iff_of_valid valid⟩

theorem evaluateNode_state {key : SeriesKey} {state : CounterState}
    (ok : evaluateNode digest nodes definitions execution node values = .ok result)
    (stores : result.state = some (key, state)) :
    ∃ c d transition, node.operation = .rate ∧ values node.first = some c ∧
      lookup node.output definitions = .ok d ∧ c.observation.series = key ∧
      rateTransition digest nodes definitions execution node d c.observation = .ok transition ∧
      transition.state = some state := by
  obtain ⟨target, d, own, evaluated⟩ := evaluateNode_spec ok
  rw [evaluated.state] at stores
  rcases nodeResult_cases evaluated.branch with ⟨c, rate, found, ok⟩ | ⟨-, ok⟩
  · obtain ⟨transition, moved, ok⟩ := bind_eq_ok.mp ok
    obtain ⟨_, -, ok⟩ := bind_eq_ok.mp ok
    obtain rfl := Except.ok.inj ok
    obtain ⟨next, after, same⟩ := Option.map_eq_some_iff.mp stores
    obtain ⟨rfl, rfl⟩ := Prod.mk.inj same
    exact ⟨c, d, transition, rate, found, evaluated.output, rfl, moved, after⟩
  · obtain ⟨_, -, ok⟩ := bind_eq_ok.mp ok
    obtain ⟨window, -, ok⟩ := bind_eq_ok.mp ok
    obtain ⟨output, built, ok⟩ := bind_eq_ok.mp ok
    obtain rfl := Except.ok.inj ok
    cases stores

theorem evaluateNode_rate {c : Computation}
    (ok : evaluateNode digest nodes definitions execution node values = .ok result)
    (rate : node.operation = .rate) (found : values node.first = some c) :
    ∃ d transition, lookup node.output definitions = .ok d ∧
      rateTransition digest nodes definitions execution node d c.observation = .ok transition ∧
      result.state = transition.state.map (fun s => (c.observation.series, s)) ∧
      result.output.observation.value = transition.output.observation.value := by
  obtain ⟨target, d, own, evaluated⟩ := evaluateNode_spec ok
  rw [evaluated.state, evaluated.inherited]
  rcases nodeResult_cases evaluated.branch with ⟨c', -, found', ok⟩ | ⟨absent, -⟩
  · obtain rfl := some.inj (found.symm.trans found')
    obtain ⟨transition, moved, ok⟩ := bind_eq_ok.mp ok
    obtain ⟨_, -, ok⟩ := bind_eq_ok.mp ok
    obtain rfl := Except.ok.inj ok
    exact ⟨d, transition, evaluated.output, moved, rfl, rfl⟩
  · exact absurd ⟨rate, found ▸ nofun⟩ absent

theorem planRevision_congr {other : DerivedMetric} (same : node.first = other.first) :
    execution.planRevision nodes node = execution.planRevision nodes other := by
  unfold DerivedExecution.planRevision consumers
  rw [same]

theorem rateTransition_state_eq {other : DerivedMetric} {d' : MetricDefinition}
    {transition transition' : CounterTransition} (same : node.first = other.first)
    (ok : rateTransition digest nodes definitions execution node d input = .ok transition)
    (ok' : rateTransition digest nodes definitions execution other d' input = .ok transition') :
    transition.state = transition'.state := by
  unfold rateTransition at ok ok'
  rw [← same, ← planRevision_congr same] at ok'
  obtain ⟨revision, planned, ok⟩ := bind_eq_ok.mp ok
  obtain ⟨revision', planned', ok'⟩ := bind_eq_ok.mp ok'
  obtain rfl := Except.ok.inj (planned.symm.trans planned')
  obtain ⟨counter, found, ok⟩ := bind_eq_ok.mp ok
  obtain ⟨counter', found', ok'⟩ := bind_eq_ok.mp ok'
  obtain rfl := Except.ok.inj (found.symm.trans found')
  exact processCounter_state_eq ok ok'

end Visit

/-! ## Preparation -/

section Preparation

variable {digest : IdentityPreimage → String} {nodes nodes' : List DerivedMetric}
  {definitions : List MetricDefinition} {execution : DerivedExecution}
  {inputs inputs' : List Computation} {values : Table MetricRef Computation}

def Computation.metric (c : Computation) : MetricRef := c.observation.metric

/-- An input that passes the checks that look at it alone. -/
structure Loadable (digest : IdentityPreimage → String) (definitions : List MetricDefinition)
    (execution : DerivedExecution) (c : Computation) : Prop where
  valid : ∃ d, lookup c.metric definitions = .ok d ∧
    validateObservation digest c.observation d = .ok ()
  scope : sameScope c.observation execution.anchor
  window : c.windowValid

/-- What `executeDerived` accepts before the first visit. -/
structure Prepared (digest : IdentityPreimage → String) (nodes : List DerivedMetric)
    (definitions : List MetricDefinition) (execution : DerivedExecution)
    (inputs : List Computation) : Prop where
  limit : nodes.length ≤ 256 ∧ (nodes.map fun n => n.inputs.length).sum ≤ 1024
  catalog : validateCatalog definitions = .ok ()
  plan : Plan definitions nodes
  once : ∀ n ∈ nodes, n.inputs.Nodup
  anchor : ∃ d, lookup execution.anchor.metric definitions = .ok d ∧
    validateObservation digest execution.anchor d = .ok ()
  loadable : ∀ c ∈ inputs, Loadable digest definitions execution c
  distinct : (inputs.map Computation.metric).Nodup
  apart : ∀ c ∈ inputs, c.metric ∉ nodes.map DerivedMetric.output

/-- The values before the first visit. -/
def loaded (values : Table MetricRef Computation) (inputs : List Computation) :
    Table MetricRef Computation :=
  inputs.foldl (fun values c => values.put c.metric c) values

theorem loadInput_iff {start : Table MetricRef Computation} {c : Computation} :
    loadInput digest nodes definitions execution start c = .ok values ↔
      Loadable digest definitions execution c ∧
        (start.get c.metric = none ∧ c.metric ∉ nodes.map DerivedMetric.output) ∧
        start.put c.metric c = values := by
  unfold loadInput
  simp only [bind_eq_ok, requireRule_ok]
  constructor
  · rintro ⟨d, found, u, valid, _, scope, _, fresh, _, window, same⟩
    exact ⟨⟨⟨d, found, valid⟩, scope, window⟩, fresh, Except.ok.inj same⟩
  · rintro ⟨⟨⟨d, found, valid⟩, scope, window⟩, fresh, rfl⟩
    exact ⟨d, found, ⟨⟩, valid, ⟨⟩, scope, ⟨⟩, fresh, ⟨⟩, window, rfl⟩

theorem loadInputs_iff {start : Table MetricRef Computation} :
    inputs.foldlM (loadInput digest nodes definitions execution) start = .ok values ↔
      (∀ c ∈ inputs, Loadable digest definitions execution c) ∧
        (inputs.map Computation.metric).Nodup ∧
        (∀ c ∈ inputs, start.get c.metric = none ∧ c.metric ∉ nodes.map DerivedMetric.output) ∧
        loaded start inputs = values := by
  induction inputs generalizing start with
  | nil =>
    have empty : foldlM (loadInput digest nodes definitions execution) start [] = .ok values ↔
        start = values := Except.ok.injEq start values ▸ Iff.rfl
    rw [empty]
    simp [loaded]
  | cons c rest ih =>
    rw [foldlM_cons, bind_eq_ok]
    simp only [loadInput_iff, ih, forall_mem_cons, map_cons, nodup_cons]
    constructor
    · rintro ⟨_, ⟨able, fresh, rfl⟩, rest_able, nodup, rest_fresh, same⟩
      have new : c.metric ∉ rest.map Computation.metric := fun twice => by
        obtain ⟨c', mem, equal⟩ := mem_map.mp twice
        have absent := (rest_fresh c' mem).1
        rw [equal, Table.get_put_self] at absent
        cases absent
      refine ⟨⟨able, rest_able⟩, ⟨new, nodup⟩, ⟨fresh, fun c' mem => ?_⟩, same⟩
      have differs : c'.metric ≠ c.metric := fun equal => new (equal ▸ mem_map_of_mem mem)
      have absent := rest_fresh c' mem
      rwa [Table.get_put_ne differs] at absent
    · rintro ⟨⟨able, rest_able⟩, ⟨new, nodup⟩, ⟨fresh, rest_fresh⟩, same⟩
      refine ⟨_, ⟨able, fresh, rfl⟩, rest_able, nodup, fun c' mem => ?_, same⟩
      have differs : c'.metric ≠ c.metric := fun equal => new (equal ▸ mem_map_of_mem mem)
      rw [Table.get_put_ne differs]
      exact rest_fresh c' mem

theorem get_loaded (distinct : (inputs.map Computation.metric).Nodup) {ref : MetricRef} :
    (loaded Table.empty inputs).get ref = inputs.find? fun c => decide (c.metric = ref) := by
  unfold loaded
  rw [Table.get_foldl_put distinct, Table.get_empty, Option.or_none]

theorem prepareDerived_iff :
    prepareDerived digest nodes definitions execution inputs = .ok values ↔
      Prepared digest nodes definitions execution inputs ∧ loaded Table.empty inputs = values := by
  unfold prepareDerived loadInputs
  simp only [bind_eq_ok, Halt.lift_eq_ok, requireRule_ok, loadInputs_iff,
    Table.get_empty, true_and]
  constructor
  · rintro ⟨_, limit, _, catalog, _, planned, _, once, d, found, _, valid, loadable, distinct,
      apart, same⟩
    exact ⟨⟨limit, catalog, validateDerived_iff.mp planned, once, ⟨d, found, valid⟩, loadable,
      distinct, apart⟩, same⟩
  · rintro ⟨⟨limit, catalog, plan, once, ⟨d, found, valid⟩, loadable, distinct, apart⟩, same⟩
    exact ⟨⟨⟩, limit, ⟨⟩, catalog, ⟨⟩, validateDerived_iff.mpr plan, ⟨⟩, once, d, found, ⟨⟩, valid,
      loadable, distinct, apart, same⟩

theorem prepareDerived_ends :
    prepareDerived digest nodes definitions execution inputs ≠ .error .outOfFuel := by
  unfold prepareDerived
  refine Halt.lift_bind_ne fun _ => Halt.lift_bind_ne fun _ =>
    Halt.bind_ne validateDerived_ends fun _ _ => Halt.lift_bind_ne fun _ =>
      Halt.lift_bind_ne fun _ => Halt.lift_bind_ne fun _ => Halt.lift_ne _

theorem Prepared.perm (prepared : Prepared digest nodes definitions execution inputs)
    (sameNodes : nodes.Perm nodes') (sameInputs : inputs.Perm inputs') :
    Prepared digest nodes' definitions execution inputs' where
  limit := by
    rw [← sameNodes.length_eq, ← (sameNodes.map _).sum_eq]
    exact prepared.limit
  catalog := prepared.catalog
  plan := prepared.plan.perm sameNodes
  once n mem := prepared.once n (sameNodes.mem_iff.mpr mem)
  anchor := prepared.anchor
  loadable c mem := prepared.loadable c (sameInputs.mem_iff.mpr mem)
  distinct := (sameInputs.map _).nodup_iff.mp prepared.distinct
  apart c mem known := prepared.apart c (sameInputs.mem_iff.mpr mem)
    ((sameNodes.map _).mem_iff.mpr known)

end Preparation

/-! ## The graph of a plan -/

section Graph

variable {definitions : List MetricDefinition} {nodes : List DerivedMetric} {n m : DerivedMetric}

theorem Plan.outputs_nodup (plan : Plan definitions nodes) :
    (nodes.map DerivedMetric.output).Nodup := by
  have ids : ((nodes.map DerivedMetric.output).map MetricRef.id).Nodup := by
    rw [map_map]
    exact plan.outputs
  exact ids.of_map _

theorem Plan.output_inj (plan : Plan definitions nodes) (mem : n ∈ nodes) (mem' : m ∈ nodes)
    (same : n.output = m.output) : n = m :=
  inj_on_of_nodup_map plan.outputs_nodup mem mem' same

theorem Plan.mem_deps (plan : Plan definitions nodes) :
    m ∈ (nodeGraph nodes).deps n ↔ m ∈ nodes ∧ m.output ∈ n.inputs := by
  change m ∈ n.inputs.filterMap (fun ref => nodes.find? fun m => decide (m.output = ref)) ↔ _
  simp only [mem_filterMap, Keyed.find?_eq_some_iff plan.outputs_nodup]
  exact ⟨fun ⟨_, input, mem, same⟩ => ⟨mem, same ▸ input⟩, fun ⟨mem, input⟩ => ⟨_, input, mem, rfl⟩⟩

theorem Plan.named (plan : Plan definitions nodes) : (nodeGraph nodes).Named nodes where
  closed _ _ _ dep := (plan.mem_deps.mp dep).1
  inj _ mem _ mem' same := inj_on_of_nodup_map plan.ids mem mem' same

theorem Plan.ranked (plan : Plan definitions nodes) : Dag.Acyclic (nodeGraph nodes) nodes := by
  obtain ⟨rank, ranked⟩ := plan.acyclic
  refine ⟨fun n => rank n.outputId, fun n mem m dep => ?_⟩
  obtain ⟨known, input⟩ := plan.mem_deps.mp dep
  exact ranked n mem m.output input (mem_map_of_mem known)

end Graph

/-! ## The run of the visits -/

section Visits

variable {digest : IdentityPreimage → String} {nodes nodes' : List DerivedMetric}
  {definitions : List MetricDefinition} {execution : DerivedExecution}
  {start : MetricRef → Option Computation} {n : DerivedMetric}
  {order : List DerivedMetric} {first p : Dag.Progress DerivedMetric DerivedProgress}

/-- One visit that evaluates its node. -/
abbrev VisitStep (digest : IdentityPreimage → String) (nodes : List DerivedMetric)
    (definitions : List MetricDefinition) (execution : DerivedExecution) :=
  Dag.Step (nodeGraph nodes) (derivedVisitor digest nodes definitions execution) nodes

/-- What holds during the visits: the values of the visited nodes are what their visits compute
from the values now, and the states are those that the visited rates leave. -/
structure Settled (digest : IdentityPreimage → String) (nodes : List DerivedMetric)
    (definitions : List MetricDefinition) (execution : DerivedExecution)
    (start : MetricRef → Option Computation)
    (p : Dag.Progress DerivedMetric DerivedProgress) : Prop where
  inside : p.done ⊆ nodes
  ordered : Dag.Ordered (nodeGraph nodes) p.done
  nodup : p.done.Nodup
  each : ∀ n ∈ p.done, ∃ r,
    evaluateNode digest nodes definitions execution n p.state.values.get = .ok r ∧
      p.state.values.get n.output = some r.output ∧
      ∀ key state, r.state = some (key, state) → p.state.states.get key = some state
  others : ∀ ref, (∀ n ∈ p.done, n.output ≠ ref) → p.state.values.get ref = start ref
  metric : ∀ ref c, p.state.values.get ref = some c → c.metric = ref
  results : p.state.results.map some =
    p.done.reverse.map fun n => p.state.values.get n.output
  untouched : ∀ key, (∀ n ∈ p.done, ∀ r,
    evaluateNode digest nodes definitions execution n p.state.values.get = .ok r →
      ∀ state, r.state ≠ some (key, state)) → p.state.states.get key = execution.states.get key

theorem stored_eq {values : MetricRef → Option Computation} {m : DerivedMetric}
    {r r' : NodeResult} {key : SeriesKey} {state state' : CounterState}
    (metric : ∀ ref c, values ref = some c → c.metric = ref)
    (ok : evaluateNode digest nodes definitions execution n values = .ok r)
    (ok' : evaluateNode digest nodes definitions execution m values = .ok r')
    (stores : r.state = some (key, state)) (stores' : r'.state = some (key, state')) :
    state = state' := by
  obtain ⟨c, d, transition, -, found, -, series, moved, after⟩ := evaluateNode_state ok stores
  obtain ⟨c', d', transition', -, found', -, series', moved', after'⟩ :=
    evaluateNode_state ok' stores'
  have same : n.first = m.first := by
    rw [← metric _ c found, ← metric _ c' found']
    exact congrArg SeriesKey.metric (series.trans series'.symm)
  obtain rfl : c = c' := some.inj (found.symm.trans (same ▸ found'))
  have equal := rateTransition_state_eq same moved moved'
  exact some.inj (after.symm.trans (equal.trans after'))

theorem DerivedProgress.states_of_stores {p : DerivedProgress} {r : NodeResult} {key : SeriesKey}
    {state : CounterState} (stores : r.state = some (key, state)) :
    (p.add n r).states.get key = some state := by
  unfold add
  rw [stores]
  exact Table.get_put_self

theorem DerivedProgress.states_of_keeps {p : DerivedProgress} {r : NodeResult} {key : SeriesKey}
    (keeps : ∀ state, r.state ≠ some (key, state)) :
    (p.add n r).states.get key = p.states.get key := by
  unfold add
  dsimp only
  split
  next key' state stores => exact Table.get_put_ne fun same => keeps state (same ▸ stores)
  next => rfl

theorem Settled.step (plan : Plan definitions nodes)
    (settled : Settled digest nodes definitions execution start p)
    {q : Dag.Progress DerivedMetric DerivedProgress}
    (step : VisitStep digest nodes definitions execution p n q) :
    Settled digest nodes definitions execution start q := by
  obtain ⟨mem, new, deps, after, acted, rfl⟩ := step
  obtain ⟨r, evaluated, same⟩ := bind_eq_ok.mp acted
  obtain rfl := Except.ok.inj same
  -- no visited node and not the node itself reads the new output
  have unread : ∀ m ∈ n :: p.done, n.output ∉ m.inputs := by
    intro m visited reads
    have dep : n ∈ (nodeGraph nodes).deps m := plan.mem_deps.mpr ⟨mem, reads⟩
    rcases mem_cons.mp visited with rfl | visited
    · exact new (deps m dep)
    · exact new (settled.ordered.dep_mem visited dep)
  have kept : ∀ m ∈ n :: p.done, ∀ ref ∈ m.inputs,
      (p.state.values.put n.output r.output).get ref = p.state.values.get ref :=
    fun m visited ref reads => Table.get_put_ne fun same => unread m visited (same ▸ reads)
  have again : ∀ m ∈ n :: p.done,
      evaluateNode digest nodes definitions execution m
          (p.state.values.put n.output r.output).get =
        evaluateNode digest nodes definitions execution m p.state.values.get :=
    fun m visited => evaluateNode_congr (kept m visited)
  have apart : ∀ m ∈ p.done, m.output ≠ n.output := fun m visited same =>
    new (plan.output_inj (settled.inside visited) mem same ▸ visited)
  have own : (p.state.values.put n.output r.output).get n.output = some r.output :=
    Table.get_put_self
  refine ⟨cons_subset.mpr ⟨mem, settled.inside⟩, ⟨deps, settled.ordered⟩,
    nodup_cons.mpr ⟨new, settled.nodup⟩, fun m visited => ?_, fun ref free => ?_,
    fun ref c found => ?_, ?_, fun key silent => ?_⟩
  · change ∃ r', evaluateNode digest nodes definitions execution m
      (p.state.values.put n.output r.output).get = .ok r' ∧ _
    rw [again m visited]
    rcases mem_cons.mp visited with rfl | visited
    · exact ⟨r, evaluated, own, fun key state => DerivedProgress.states_of_stores⟩
    · obtain ⟨r', evaluated', value, stored⟩ := settled.each m visited
      refine ⟨r', evaluated', (Table.get_put_ne (apart m visited)).trans value,
        fun key state stores => ?_⟩
      by_cases rewritten : ∃ state', r.state = some (key, state')
      · obtain ⟨state', stores'⟩ := rewritten
        rw [stored_eq settled.metric evaluated' evaluated stores stores']
        exact DerivedProgress.states_of_stores stores'
      · rw [DerivedProgress.states_of_keeps fun s stores' => rewritten ⟨s, stores'⟩]
        exact stored key state stores
  · obtain ⟨differs, free⟩ := forall_mem_cons.mp free
    exact (Table.get_put_ne (Ne.symm differs)).trans (settled.others ref free)
  · change (p.state.values.put n.output r.output).get ref = some c at found
    rw [Table.get_put] at found
    split at found
    next same =>
      obtain rfl := some.inj found
      exact same ▸ (evaluateNode_valid evaluated).1
    next => exact settled.metric ref c found
  · change (p.state.results ++ [r.output]).map some = _
    rw [map_append, settled.results, reverse_cons, map_append]
    refine congrArg₂ (· ++ ·) (map_congr_left fun m visited => ?_) ?_
    · exact (Table.get_put_ne (apart m (mem_reverse.mp visited))).symm
    · exact congrArg (fun value => [value]) own.symm
  · have quiet : ∀ state, r.state ≠ some (key, state) :=
      silent n mem_cons_self r ((again n mem_cons_self).trans evaluated)
    rw [DerivedProgress.states_of_keeps quiet]
    refine settled.untouched key fun m visited r' evaluated' => ?_
    have visited' := mem_cons_of_mem n visited
    exact silent m visited' r' ((again m visited').trans evaluated')

theorem Settled.of_run (plan : Plan definitions nodes)
    (run : Run (VisitStep digest nodes definitions execution) first order p)
    (settled : Settled digest nodes definitions execution start first) :
    Settled digest nodes definitions execution start p :=
  run.invariant settled fun _ _ _ settled step => settled.step plan step

end Visits

/-! ## Executions -/

section Executions

variable {digest : IdentityPreimage → String} {nodes nodes' : List DerivedMetric}
  {definitions : List MetricDefinition} {execution : DerivedExecution}
  {inputs inputs' : List Computation} {p q : Dag.Progress DerivedMetric DerivedProgress}

/-- The progress before the first visit. -/
def startOf (execution : DerivedExecution) (inputs : List Computation) :
    Dag.Progress DerivedMetric DerivedProgress :=
  ⟨[], ⟨loaded Table.empty inputs, [], execution.states⟩⟩

/-- A finished execution: a settled run that visited every node. -/
structure Finished (digest : IdentityPreimage → String) (nodes : List DerivedMetric)
    (definitions : List MetricDefinition) (execution : DerivedExecution)
    (inputs : List Computation) (p : Dag.Progress DerivedMetric DerivedProgress) : Prop where
  prepared : Prepared digest nodes definitions execution inputs
  run : Run (VisitStep digest nodes definitions execution) (startOf execution inputs)
    p.done.reverse p
  settled : Settled digest nodes definitions execution (loaded Table.empty inputs).get p
  complete : ∀ n ∈ nodes, n ∈ p.done

theorem Prepared.settled (prepared : Prepared digest nodes definitions execution inputs) :
    Settled digest nodes definitions execution (loaded Table.empty inputs).get
      (startOf execution inputs) where
  inside := nil_subset _
  ordered := trivial
  nodup := nodup_nil
  each := forall_mem_nil _
  others _ _ := rfl
  metric ref c found := by
    change (loaded Table.empty inputs).get ref = some c at found
    rw [get_loaded prepared.distinct] at found
    exact ((Keyed.find?_eq_some_iff prepared.distinct).mp found).2
  results := rfl
  untouched _ _ := rfl

theorem visitDerived_eq (prepared : Prepared digest nodes definitions execution inputs) :
    visitDerived digest nodes definitions execution inputs =
      Dag.walk (nodeGraph nodes) (derivedVisitor digest nodes definitions execution)
        (nodes.length + 1) nodes (startOf execution inputs).state := by
  unfold visitDerived
  rw [prepareDerived_iff.mpr ⟨prepared, rfl⟩]
  rfl

theorem visitDerived_ends :
    visitDerived digest nodes definitions execution inputs ≠ .error .outOfFuel := by
  refine Halt.bind_ne prepareDerived_ends fun values ok => ?_
  obtain ⟨rank, ranked⟩ := (prepareDerived_iff.mp ok).1.plan.ranked
  exact Dag.walk_ends (prepareDerived_iff.mp ok).1.plan.named (Dag.Descends.discipline ranked)
    (Nat.lt_succ_self _) (Subset.refl _) fun _ _ => forall_mem_nil _

theorem Finished.of_ok (ok : visitDerived digest nodes definitions execution inputs = .ok p) :
    Finished digest nodes definitions execution inputs p := by
  have prepared : Prepared digest nodes definitions execution inputs := by
    obtain ⟨values, ok, -⟩ := bind_eq_ok.mp ok
    exact (prepareDerived_iff.mp ok).1
  rw [visitDerived_eq prepared] at ok
  obtain ⟨rank, ranked⟩ := prepared.plan.ranked
  obtain ⟨order, run, complete⟩ := Dag.run_of_walk prepared.plan.named
    (Dag.Descends.discipline ranked) (Nat.lt_succ_self _) (Subset.refl _)
    (fun _ _ => forall_mem_nil _) ok
  have visits : p.done.reverse = order := by
    rw [Dag.done_eq_of_run run, append_nil, reverse_reverse]
  exact ⟨prepared, visits.symm ▸ run, prepared.settled.of_run prepared.plan run, complete⟩

theorem Finished.done_perm (finished : Finished digest nodes definitions execution inputs p) :
    p.done.Perm nodes := by
  have nodup : nodes.Nodup := finished.prepared.plan.ids.of_map _
  exact (perm_ext_iff_of_nodup finished.settled.nodup nodup).mpr fun n =>
    ⟨fun visited => finished.settled.inside visited, finished.complete n⟩

theorem Finished.reorder (finished : Finished digest nodes definitions execution inputs p)
    (sameNodes : nodes.Perm nodes') (sameInputs : inputs.Perm inputs') :
    ∃ q, visitDerived digest nodes' definitions execution inputs' = .ok q ∧
      ∀ ref, q.state.values.get ref = p.state.values.get ref := by
  have prepared' : Prepared digest nodes' definitions execution inputs' :=
    finished.prepared.perm sameNodes sameInputs
  obtain ⟨rank, ranked⟩ := prepared'.plan.ranked
  have sameStart (ref : MetricRef) : (loaded Table.empty inputs').get ref =
      (loaded Table.empty inputs).get ref := by
    rw [get_loaded prepared'.distinct, get_loaded finished.prepared.distinct]
    exact Keyed.find?_eq_of_perm finished.prepared.distinct sameInputs
  -- a value that is there is the final one
  let Agrees (q : Dag.Progress DerivedMetric DerivedProgress) : Prop :=
    ∀ ref, (∀ n ∈ nodes', n.output = ref → n ∈ q.done) →
      q.state.values.get ref = p.state.values.get ref
  have total : ∃ q, Dag.walk (nodeGraph nodes') (derivedVisitor digest nodes' definitions execution)
      (nodes'.length + 1) nodes' (startOf execution inputs').state = .ok q ∧ Agrees q := by
    refine Dag.walk_total (P := Agrees) prepared'.plan.named (Dag.Descends.discipline ranked)
      (Nat.lt_succ_self _) (Subset.refl _) (fun _ _ => forall_mem_nil _)
      (fun _ _ _ => rfl) ?_ ?_
    · intro ref unset
      have free : ∀ n ∈ p.done, n.output ≠ ref := fun n visited same =>
        absurd (unset n (sameNodes.mem_iff.mp (finished.settled.inside visited)) same)
          not_mem_nil
      exact (sameStart ref).trans (finished.settled.others ref free).symm
    · intro q n mem agrees new deps
      have mem' : n ∈ nodes := sameNodes.mem_iff.mpr mem
      obtain ⟨r, evaluated, value, -⟩ := finished.settled.each n (finished.complete n mem')
      have reads : ∀ ref ∈ n.inputs, p.state.values.get ref = q.state.values.get ref :=
        fun ref input => (agrees ref fun m known same =>
          deps m (prepared'.plan.mem_deps.mpr ⟨known, same ▸ input⟩)).symm
      have evaluated' : evaluateNode digest nodes' definitions execution n q.state.values.get =
          .ok r := evaluateNode_congr reads ▸ evaluateNode_of_perm sameNodes evaluated
      refine ⟨q.state.add n r, bind_eq_ok.mpr ⟨r, evaluated', rfl⟩, fun ref set => ?_⟩
      change (q.state.values.put n.output r.output).get ref = _
      rw [Table.get_put]
      split
      next same => exact same ▸ value.symm
      next differs =>
        refine agrees ref fun m known same => ?_
        exact (mem_cons.mp (set m known same)).resolve_left
          fun equal => differs (same ▸ congrArg DerivedMetric.output equal)
  obtain ⟨q, ok, agrees⟩ := total
  rw [← visitDerived_eq prepared'] at ok
  exact ⟨q, ok, fun ref => agrees ref fun n mem _ => (Finished.of_ok ok).complete n mem⟩

theorem Finished.states_eq (finished : Finished digest nodes definitions execution inputs p)
    (finished' : Finished digest nodes' definitions execution inputs' q)
    (sameNodes : nodes.Perm nodes')
    (same : ∀ ref, q.state.values.get ref = p.state.values.get ref) (key : SeriesKey) :
    q.state.states.get key = p.state.states.get key := by
  have equal : q.state.values.get = p.state.values.get := funext same
  by_cases stored : ∃ n ∈ p.done, ∃ r state,
      evaluateNode digest nodes definitions execution n p.state.values.get = .ok r ∧
        r.state = some (key, state)
  · obtain ⟨n, visited, r, state, evaluated, stores⟩ := stored
    obtain ⟨r₁, evaluated₁, -, left⟩ := finished.settled.each n visited
    obtain ⟨r₂, evaluated₂, -, right⟩ := finished'.settled.each n
      (finished'.complete n (sameNodes.mem_iff.mp (finished.settled.inside visited)))
    obtain rfl := Except.ok.inj (evaluated.symm.trans evaluated₁)
    have evaluated' := evaluateNode_of_perm sameNodes evaluated
    rw [← equal] at evaluated'
    obtain rfl := Except.ok.inj (evaluated'.symm.trans evaluated₂)
    rw [left key state stores, right key state stores]
  · rw [finished.settled.untouched key fun n visited r evaluated state stores =>
      stored ⟨n, visited, r, state, evaluated, stores⟩]
    refine finished'.settled.untouched key fun n visited r evaluated state stores => ?_
    rw [equal] at evaluated
    exact stored ⟨n, finished.complete n (sameNodes.mem_iff.mpr (finished'.settled.inside visited)),
      r, state, evaluateNode_of_perm sameNodes.symm evaluated, stores⟩

theorem Finished.evaluated (finished : Finished digest nodes definitions execution inputs p)
    {n : DerivedMetric} (mem : n ∈ nodes) : ∃ r,
      evaluateNode digest nodes definitions execution n p.state.values.get = .ok r ∧
        p.state.values.get n.output = some r.output ∧
        ∀ key state, r.state = some (key, state) → p.state.states.get key = some state :=
  finished.settled.each n (finished.complete n mem)

theorem Finished.value_of_input (finished : Finished digest nodes definitions execution inputs p)
    {c : Computation} (mem : c ∈ inputs) : p.state.values.get c.metric = some c := by
  have free : ∀ n ∈ p.done, n.output ≠ c.metric := fun n visited same =>
    finished.prepared.apart c mem
      (same ▸ mem_map_of_mem (finished.settled.inside visited))
  rw [finished.settled.others _ free, get_loaded finished.prepared.distinct]
  exact Keyed.find?_of_mem finished.prepared.distinct mem

end Executions

/-! ## A filesystem

A plan to try the results on: the size of a filesystem and what is spare of it. -/

def bytesGauge (name : String) : MetricDefinition where
  id := "host.filesystem." ++ name
  semanticVersion := ⟨1, 0, 0⟩
  meaning := name
  unit := .bytes
  resourceType := .server
  scope := .filesystem
  kind := .gauge
  temporality := .instant
  monotonic := false
  valueType := .int64
  dimensions := ⟨[], 1, 64⟩
  aggregation := ⟨[.last], [.none], ⟨Binary64.ofInt 0, zero_inside⟩, .notApplicable⟩
  lifecycle := .active
  replacementId := none
  category := .canonical

def metricDigest (preimage : IdentityPreimage) : String :=
  preimage.series.metric.id ++ "@" ++ toString preimage.observedAt

/-- A gauge ten seconds after the epoch, as an input. -/
def bytesNow (name : String) (value : Int) : Computation where
  observation :=
    { id := "host.filesystem." ++ name ++ "@10000"
      resourceType := .server
      resourceId := "7"
      metric := (bytesGauge name).ref
      dimensions := ⟨[], nodup_nil⟩
      observedAt := .ofMs 10000
      collectedAt := .ofMs 10000
      storedAt := none
      quality := ⟨.good, .none⟩
      accuracy := .exact
      production := .measured
      source := ⟨"binding", "metric", "collector", "attempt"⟩
      versions := ⟨⟨1, 0, 0⟩, "linux", ⟨1, 0, 0⟩, ⟨1, 0, 0⟩, 1⟩
      counter := none
      unit := .bytes
      value := some (.scalar (.int64 value))
      origin := .normalized [] }
  window := ⟨(Timestamp.ofMs 10000).toDateText, (Timestamp.ofMs 10000).toDateText⟩
  freshness := .fresh
  inputProvenance := []

def bytesNode (name : String) (operation : DerivedOperation) (inputs : List MetricRef)
    (someInput : inputs ≠ []) : DerivedMetric where
  id := name
  output := (bytesGauge name).ref
  transformVersion := ⟨1, 0, 0⟩
  inputs
  someInput
  operation
  factor := none
  maxSkewMs := 1000

def sizeNode : DerivedMetric :=
  bytesNode "size" .sum [(bytesGauge "used").ref, (bytesGauge "free").ref] nofun

/-- It depends on the size, which may be declared after it. -/
def spareNode : DerivedMetric :=
  bytesNode "spare" .difference [(bytesGauge "size").ref, (bytesGauge "used").ref] nofun

def filesystem : List MetricDefinition := ["used", "free", "size", "spare"].map bytesGauge

def bytesTarget : DerivedTarget :=
  ⟨⟨"derived", "metric", "derived", "attempt"⟩, ⟨⟨1, 0, 0⟩, "linux", ⟨1, 0, 0⟩, ⟨1, 0, 0⟩, 1⟩⟩

def filesystemExecution : DerivedExecution where
  anchor := (bytesNow "used" 30).observation
  context := ⟨⟨"1970-01-01T00:00:20Z", some 20000⟩, 60000⟩
  targets := (Table.empty.put "size" bytesTarget).put "spare" bytesTarget
  counter := ⟨60000, none, none⟩
  counterBounds := Table.empty
  states := Table.empty

end Slide.Metrics
