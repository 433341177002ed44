import Slide.Metrics.DerivedRun

/-!
# Derived metrics in any order

`executeDerived` always ends, and the order in which the nodes and the inputs are declared does not
matter: each node is visited once, after the nodes it depends on, and gets the same value, and the
counters are left in the same states.
-/

namespace Slide.Metrics

open Transition

section Order

variable {digest : IdentityPreimage → String} {nodes nodes' : List DerivedMetric}
  {definitions : List MetricDefinition} {execution : DerivedExecution}
  {inputs inputs' : List Computation} {result : DerivedResult}
  {p q : Dag.Progress DerivedMetric DerivedProgress}

/-- The execution is a run of visits, one for each node and after those of the nodes it depends on,
whose outputs are the `values` of the nodes. -/
def Visits (digest : IdentityPreimage → String) (nodes : List DerivedMetric)
    (definitions : List MetricDefinition) (execution : DerivedExecution) (inputs : List Computation)
    (values : MetricRef → Option Computation) (result : DerivedResult) : Prop :=
  ∃ order p, visitDerived digest nodes definitions execution inputs = .ok p ∧
    Run (VisitStep digest nodes definitions execution) (startOf execution inputs) order p ∧
    order.Perm nodes ∧
    (∀ before n after, order = before ++ n :: after →
      ∀ m ∈ nodes, m.output ∈ n.inputs → m ∈ before) ∧
    result = ⟨p.state.results, p.state.states⟩ ∧
    result.outputs.map some = order.map fun n => values n.output

/-- Every rate over a counter computes from the state before the execution, under options that all
of them share, and the state it computes is the one that is left. -/
def SharesBaselines (digest : IdentityPreimage → String) (nodes : List DerivedMetric)
    (definitions : List MetricDefinition) (execution : DerivedExecution) (inputs : List Computation)
    (values : MetricRef → Option Computation) (states : Table SeriesKey CounterState) : Prop :=
  ∀ c ∈ inputs, ∃ counter options, ∀ n ∈ nodes, n.operation = .rate → n.first = c.metric →
    ∃ d transition, lookup n.output definitions = .ok d ∧
      processCounter digest c.observation counter d .rate
        (execution.states.get c.observation.series) options = .ok transition ∧
      transition.state = states.get c.observation.series ∧
      ∃ output, values n.output = some output ∧
        output.observation.value = transition.output.observation.value

theorem Finished.visits (finished : Finished digest nodes definitions execution inputs p)
    (ok : visitDerived digest nodes definitions execution inputs = .ok p) :
    Visits digest nodes definitions execution inputs p.state.values.get
      ⟨p.state.results, p.state.states⟩ := by
  refine ⟨p.done.reverse, p, ok, finished.run, ?_, ?_, rfl, finished.settled.results⟩
  · exact p.done.reverse_perm.trans finished.done_perm
  · intro before n after split m known input
    have ordered := finished.settled.ordered
    have placed : p.done = after.reverse ++ n :: before.reverse := by
      rw [← p.done.reverse_reverse, split]
      simp
    rw [placed] at ordered
    have dep : m ∈ (nodeGraph nodes).deps n :=
      finished.prepared.plan.mem_deps.mpr ⟨known, input⟩
    exact List.mem_reverse.mp (ordered.dep_follows dep)

theorem Finished.sharesBaselines
    (finished : Finished digest nodes definitions execution inputs p) :
    SharesBaselines digest nodes definitions execution inputs p.state.values.get
      p.state.states := by
  intro c mem
  have found := finished.value_of_input mem
  by_cases used : ∃ n ∈ nodes, n.operation = .rate ∧ n.first = c.metric
  · obtain ⟨n, known, rate, first⟩ := used
    obtain ⟨r, evaluated, -⟩ := finished.evaluated known
    obtain ⟨_, _, -, moved, -⟩ := evaluateNode_rate evaluated rate (first ▸ found)
    obtain ⟨revision, planned, moved⟩ := bind_eq_ok.mp moved
    obtain ⟨counter, counted, -⟩ := bind_eq_ok.mp moved
    refine ⟨counter, execution.counterOptions c.observation.series revision,
      fun m known' rate' first' => ?_⟩
    obtain ⟨r', evaluated', value, stored⟩ := finished.evaluated known'
    obtain ⟨d, transition, output, moved', state, same⟩ :=
      evaluateNode_rate evaluated' rate' (first' ▸ found)
    have whole := moved'
    obtain ⟨revision', planned', moved'⟩ := bind_eq_ok.mp moved'
    obtain ⟨counter', counted', processed⟩ := bind_eq_ok.mp moved'
    rw [planRevision_congr (first'.trans first.symm)] at planned'
    obtain rfl := Except.ok.inj (planned.symm.trans planned')
    rw [first'.trans first.symm] at counted'
    obtain rfl := Except.ok.inj (counted.symm.trans counted')
    refine ⟨d, transition, output, processed, ?_, r'.output, value, same⟩
    cases next : transition.state with
    | some s =>
      rw [next] at state
      exact (stored _ s state).symm
    | none =>
      -- no rate of this series stores a state, and there was none before
      have initial := processCounter_state_none processed next
      rw [← initial]
      refine (finished.settled.untouched _ fun k visited r₂ evaluated₂ s stores => ?_).symm
      obtain ⟨c₂, d₂, t₂, -, found₂, -, series, moved₂, after⟩ :=
        evaluateNode_state evaluated₂ stores
      have first₂ : m.first = k.first := by
        rw [first', ← finished.settled.metric _ _ found₂]
        exact (congrArg SeriesKey.metric series).symm
      have again : p.state.values.get k.first = some c := (first₂.symm.trans first') ▸ found
      obtain rfl := some.inj (found₂.symm.trans again)
      have equal := rateTransition_state_eq first₂ whole moved₂
      rw [next, after] at equal
      cases equal
  · obtain ⟨d, -, -⟩ := (finished.prepared.loadable c mem).valid
    exact ⟨d, execution.counterOptions c.observation.series "",
      fun n known rate first => absurd ⟨n, known, rate, first⟩ used⟩

/-- `executeDerived` ends on all arguments.  Where it succeeds it succeeds for every order of the
nodes and of the inputs, with one value for each node and the same counter states. -/
theorem executeDerived_order_free (digest : IdentityPreimage → String)
    (definitions : List MetricDefinition) (execution : DerivedExecution) :
    (∀ nodes inputs,
      executeDerived digest nodes definitions execution inputs ≠ .error .outOfFuel) ∧
    ∀ nodes nodes' inputs inputs' result, nodes.Perm nodes' → inputs.Perm inputs' →
      executeDerived digest nodes definitions execution inputs = .ok result →
      ∃ result' values,
        executeDerived digest nodes' definitions execution inputs' = .ok result' ∧
        Visits digest nodes definitions execution inputs values result ∧
        Visits digest nodes' definitions execution inputs' values result' ∧
        (∀ key, result'.states.get key = result.states.get key) ∧
        SharesBaselines digest nodes definitions execution inputs values result.states := by
  constructor
  · intro nodes inputs
    exact Halt.bind_ne visitDerived_ends fun _ _ => nofun
  · intro nodes nodes' inputs inputs' result sameNodes sameInputs ok
    obtain ⟨p, visited, ok⟩ := bind_eq_ok.mp ok
    obtain rfl := Except.ok.inj ok
    have finished := Finished.of_ok visited
    obtain ⟨q, visited', same⟩ := finished.reorder sameNodes sameInputs
    have finished' := Finished.of_ok visited'
    have values : q.state.values.get = p.state.values.get := funext same
    have again := finished'.visits visited'
    rw [values] at again
    exact ⟨⟨q.state.results, q.state.states⟩, p.state.values.get,
      bind_eq_ok.mpr ⟨q, visited', rfl⟩, finished.visits visited, again,
      finished.states_eq finished' sameNodes same, finished.sharesBaselines⟩

end Order

/-! ## A filesystem -/

private def filesystemResult : Except (Halt String) DerivedResult :=
  executeDerived metricDigest [spareNode, sizeNode] filesystem filesystemExecution
    [bytesNow "used" 30, bytesNow "free" 70]

example : filesystemResult.toOption.map (fun r => r.outputs.map fun c => c.observation.value) =
    some [some (.scalar (.int64 100)), some (.scalar (.int64 70))] := by decide +kernel

private theorem filesystem_ok : filesystemResult.toOption.isSome = true := by decide +kernel

/-- The size and what is spare of it, declared in either order. -/
theorem executeDerived_order_free_filesystem : ∃ result' values,
    executeDerived metricDigest [sizeNode, spareNode] filesystem filesystemExecution
      [bytesNow "free" 70, bytesNow "used" 30] = .ok result' ∧
    Visits metricDigest [spareNode, sizeNode] filesystem filesystemExecution
      [bytesNow "used" 30, bytesNow "free" 70] values (filesystemResult.toOption.get filesystem_ok) ∧
    Visits metricDigest [sizeNode, spareNode] filesystem filesystemExecution
      [bytesNow "free" 70, bytesNow "used" 30] values result' ∧
    (∀ key, result'.states.get key =
      (filesystemResult.toOption.get filesystem_ok).states.get key) ∧
    SharesBaselines metricDigest [spareNode, sizeNode] filesystem filesystemExecution
      [bytesNow "used" 30, bytesNow "free" 70] values
      (filesystemResult.toOption.get filesystem_ok).states :=
  (executeDerived_order_free metricDigest filesystem filesystemExecution).2 _ _ _ _ _
    (.swap _ _ _) (.swap _ _ _) (Except.eq_ok_get filesystem_ok)

end Slide.Metrics
