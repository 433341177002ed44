import Mathlib.Data.List.ReduceOption
import Slide.Metrics.DerivedRun

/-!
# Evidence through derived metrics

No output of `executeDerived` is of better quality, more certain or fresher than what it was
computed from, directly or through other nodes, and where an input is missing, a denominator is
zero or the times or windows of the inputs do not fit, neither the node nor any node after it has a
value.
-/

namespace Slide.Metrics

open List

/-! ## What reaches a node -/

/-- A computation is an input of the node, or reaches one of its inputs. -/
inductive Feeds (nodes : List DerivedMetric) (all : List Computation) :
    DerivedMetric → Computation → Prop
  | direct {n : DerivedMetric} {c : Computation} :
    c ∈ all → c.metric ∈ n.inputs → Feeds nodes all n c
  | through {n m : DerivedMetric} {c : Computation} :
    m ∈ nodes → m.output ∈ n.inputs → Feeds nodes all m c → Feeds nodes all n c

/-- The node lacks something its operation needs, or one of its inputs comes from such a node. -/
inductive Starved (nodes : List DerivedMetric) (all : List Computation) : DerivedMetric → Prop
  | missing {n : DerivedMetric} {ref : MetricRef} :
    ref ∈ n.inputs → (∀ c ∈ all, c.metric ≠ ref) → Starved nodes all n
  | zero {n : DerivedMetric} {a b : MetricRef} {c : Computation} {value : MetricValue} :
    n.operation = .ratio → n.inputs = [a, b] → c ∈ all → c.metric = b →
      c.observation.value = some value → value.decode = .ok 0 → Starved nodes all n
  | skew {n : DerivedMetric} {c c' : Computation} :
    c ∈ all → c.metric ∈ n.inputs → c' ∈ all → c'.metric ∈ n.inputs →
      (n.maxSkewMs : Int) < c.observation.observedAt.ms - c'.observation.observedAt.ms →
      Starved nodes all n
  | window {n : DerivedMetric} {c c' : Computation} :
    c ∈ all → c.metric ∈ n.inputs → c' ∈ all → c'.metric ∈ n.inputs →
      c.window.start.instant ≠ c.window.stop.instant →
      c'.window.start.instant ≠ c.window.start.instant ∨
        c'.window.stop.instant ≠ c.window.stop.instant → Starved nodes all n
  | downstream {n m : DerivedMetric} :
    m ∈ nodes → m.output ∈ n.inputs → Starved nodes all m → Starved nodes all n

/-- Quality, accuracy and freshness of an output are no better than those of a source. -/
structure NoBetter (output source : Computation) : Prop where
  quality : source.observation.quality.status.rank ≤ output.observation.quality.status.rank
  accuracy : source.observation.accuracy.rank ≤ output.observation.accuracy.rank
  freshness : source.freshness.rank ≤ output.freshness.rank

theorem NoBetter.trans {a b c : Computation} (left : NoBetter a b) (right : NoBetter b c) :
    NoBetter a c :=
  ⟨right.quality.trans left.quality, right.accuracy.trans left.accuracy,
    right.freshness.trans left.freshness⟩

/-! ## One node -/

section Node

variable {digest : IdentityPreimage → String} {nodes : List DerivedMetric}
  {definitions : List MetricDefinition} {execution : DerivedExecution} {node : DerivedMetric}
  {values : MetricRef → Option Computation} {result own : NodeResult} {c : Computation}
  {d : MetricDefinition} {target : DerivedTarget} {args : List (Option Computation)}

theorem rank_le_inheritFreshness {own age : Freshness} {ages : List Freshness} (mem : age ∈ ages) :
    age.rank ≤ (inheritFreshness own ages).rank := by
  unfold inheritFreshness
  split_ifs with unknown stale
  · cases age <;> simp [Freshness.rank]
  · cases age with
    | unknown => exact absurd mem unknown
    | fresh | stale => simp [Freshness.rank]
  · cases age with
    | unknown => exact absurd mem unknown
    | fresh => simp [Freshness.rank]
    | stale =>
      have lost : own = .unknown := not_not.mp fun known => stale ⟨known, mem⟩
      rw [lost]
      simp [Freshness.rank]

theorem DerivedMetric.Admitted.rate_inputs (admitted : node.Admitted definitions)
    (rate : node.operation = .rate) : node.inputs = [node.first] := by
  obtain ⟨output, args, -, founds, rules⟩ := admitted
  unfold DerivedMetric.rules at rules
  simp only [requireRule_bind] at rules
  obtain ⟨_, ruled, -⟩ := bind_eq_ok.mp rules.2.2
  unfold DerivedMetric.operationRules at ruled
  rw [rate] at ruled
  dsimp only at ruled
  split at ruled
  next a =>
    have length := (Except.mapM_eq_ok.mp founds).length_eq
    obtain ⟨only, single⟩ := length_eq_one_iff.mp length
    have first : node.first ∈ node.inputs := node.first_mem
    rw [single, mem_singleton] at first
    rw [single, first]
  next => cases ruled

theorem mem_present : c ∈ (node.inputs.map values).reduceOption ↔
    ∃ ref ∈ node.inputs, values ref = some c := by
  rw [reduceOption_mem_iff, mem_map]

theorem evaluateNode_noBetter (admitted : node.Admitted definitions)
    (ok : evaluateNode digest nodes definitions execution node values = .ok result)
    {ref : MetricRef} (input : ref ∈ node.inputs) (found : values ref = some c) :
    NoBetter result.output c := by
  obtain ⟨target, d, own, evaluated⟩ := evaluateNode_spec ok
  have present : c ∈ (node.inputs.map values).reduceOption := mem_present.mpr ⟨ref, input, found⟩
  have bounds : c.observation.quality.status.rank ≤ own.output.observation.quality.status.rank ∧
      c.observation.accuracy.rank ≤ own.output.observation.accuracy.rank := by
    rcases nodeResult_cases evaluated.branch with ⟨c', rate, found', ok⟩ | ⟨-, ok⟩
    · rw [admitted.rate_inputs rate, mem_singleton] at input
      obtain rfl : c = c' := some.inj (found.symm.trans (input ▸ found'))
      obtain ⟨transition, moved, ok⟩ := bind_eq_ok.mp ok
      obtain ⟨_, -, ok⟩ := bind_eq_ok.mp ok
      obtain rfl := Except.ok.inj ok
      obtain ⟨revision, -, moved⟩ := bind_eq_ok.mp moved
      obtain ⟨counter, -, moved⟩ := bind_eq_ok.mp moved
      obtain ⟨_, _, _, exit, processed⟩ := processCounter_spec moved
      have among : c.observation ∈ (exit.args c.observation ((execution.states.get
          c.observation.series).map CounterState.baseline) d execution.context).inputs :=
        mem_append_right _ (mem_singleton_self _)
      have bounds := buildOutput_evidence processed.output among
      exact bounds
    · obtain ⟨⟨quality, value⟩, -, ok⟩ := bind_eq_ok.mp ok
      obtain ⟨window, -, ok⟩ := bind_eq_ok.mp ok
      obtain ⟨output, built, ok⟩ := bind_eq_ok.mp ok
      obtain rfl := Except.ok.inj ok
      have among : c.observation ∈
          (node.inputs.map values).reduceOption.map Computation.observation :=
        mem_map_of_mem present
      refine buildOutput_evidence built ?_
      change c.observation ∈ if _ = [] then _ else _
      rw [if_neg (ne_nil_of_mem among)]
      exact among
  rw [evaluated.inherited]
  exact ⟨bounds.1, bounds.2, rank_le_inheritFreshness
    (mem_flatMap.mpr ⟨c, present, mem_cons_self⟩)⟩

theorem evaluateNode_combines
    (ok : evaluateNode digest nodes definitions execution node values = .ok result) :
    (∃ c, node.operation = .rate ∧ values node.first = some c) ∨
    ∃ d explicit value, node.combine d (node.inputs.map values) = .ok (explicit, value) ∧
      ∀ quality, explicit = some quality →
        quality.status.rank ≤ result.output.observation.quality.status.rank := by
  obtain ⟨target, d, own, evaluated⟩ := evaluateNode_spec ok
  rcases nodeResult_cases evaluated.branch with ⟨c, rate, found, -⟩ | ⟨-, ok⟩
  · exact .inl ⟨c, rate, found⟩
  · obtain ⟨⟨explicit, value⟩, combined, ok⟩ := bind_eq_ok.mp ok
    obtain ⟨window, -, ok⟩ := bind_eq_ok.mp ok
    obtain ⟨output, built, ok⟩ := bind_eq_ok.mp ok
    obtain rfl := Except.ok.inj ok
    refine .inr ⟨d, explicit, value, combined, fun quality given => ?_⟩
    rw [evaluated.inherited]
    have bound := buildOutput_explicit built given
    exact bound

end Node

/-! ## What withholds the value -/

section Lacks

variable {node : DerivedMetric} {d : MetricDefinition} {args : List (Option Computation)}
  {explicit : Option Quality} {value : Option Rational} {c c' : Computation}
  {present : List Computation}

theorem sub_le_skew {times : List Int} {a b : Int} (mem : a ∈ times) (mem' : b ∈ times) :
    a - b ≤ skew times := by
  have high : a ≤ times.max?.getD 0 := by
    cases most : times.max? with
    | none => exact absurd mem (max?_eq_none_iff.mp most ▸ not_mem_nil)
    | some top => exact (max?_eq_some_iff.mp most).2 a mem
  have low : times.min?.getD 0 ≤ b := by
    cases least : times.min? with
    | none => exact absurd mem' (min?_eq_none_iff.mp least ▸ not_mem_nil)
    | some bottom => exact (min?_eq_some_iff.mp least).2 b mem'
  unfold skew
  omega

theorem DateText.same.instant_eq {a b : DateText} (same : a.same b) : a.instant = b.instant := by
  obtain ⟨ms, left, right⟩ := same
  exact (Option.mem_def.mp left).trans right.symm

theorem windowsDiffer_of (mem : c ∈ present) (mem' : c' ∈ present)
    (spans : c.window.start.instant ≠ c.window.stop.instant)
    (differ : c'.window.start.instant ≠ c.window.start.instant ∨
      c'.window.stop.instant ≠ c.window.stop.instant) : windowsDiffer present := by
  have interval : c.spans := fun same => spans same.instant_eq
  have found : (present.find? fun c => c.spans).isSome = true :=
    find?_isSome.mpr ⟨c, mem, decide_eq_true interval⟩
  obtain ⟨first, found⟩ := Option.isSome_iff_exists.mp found
  by_cases off : ¬ c.window.start.same first.window.start ∨ ¬ c.window.stop.same first.window.stop
  · exact ⟨first, found, c, mem, off⟩
  · push Not at off
    refine ⟨first, found, c', mem', ?_⟩
    by_contra fits
    push Not at fits
    exact differ.elim
      (fun ne => ne (fits.1.instant_eq.trans off.1.instant_eq.symm))
      fun ne => ne (fits.2.instant_eq.trans off.2.instant_eq.symm)

theorem combine_unknown (ok : node.combine d args = .ok (explicit, value))
    (lacks : none ∈ args ∨
      (node.maxSkewMs : Int) < skew (args.reduceOption.map fun c => c.observation.observedAt.ms) ∨
      windowsDiffer args.reduceOption) : ∃ reason, explicit = some ⟨.unknown, reason⟩ := by
  unfold DerivedMetric.combine at ok
  dsimp only at ok
  split at ok
  next => exact ⟨_, (congrArg Prod.fst (Except.ok.inj ok)).symm⟩
  next given =>
    split at ok
    next => exact ⟨_, (congrArg Prod.fst (Except.ok.inj ok)).symm⟩
    next near =>
      split at ok
      next => exact ⟨_, (congrArg Prod.fst (Except.ok.inj ok)).symm⟩
      next fits => exact absurd lacks (not_or.mpr ⟨given, not_or.mpr ⟨near, fits⟩⟩)

theorem combine_zero {numerator : Option Computation} {zero : MetricValue}
    (ratio : node.operation = .ratio)
    (ok : node.combine d [numerator, some c] = .ok (explicit, value))
    (denominator : c.observation.value = some zero) (decodes : zero.decode = .ok 0) :
    (∃ reason, explicit = some ⟨.unknown, reason⟩) ∨
      ∃ above, numerator = some above ∧ above.observation.value = none := by
  cases numerator with
  | none => exact .inl (combine_unknown ok (.inl mem_cons_self))
  | some above =>
    cases below : above.observation.value with
    | none => exact .inr ⟨above, rfl, below⟩
    | some top =>
      unfold DerivedMetric.combine at ok
      dsimp only at ok
      split at ok
      next => exact .inl ⟨_, (congrArg Prod.fst (Except.ok.inj ok)).symm⟩
      next =>
        split at ok
        next => exact .inl ⟨_, (congrArg Prod.fst (Except.ok.inj ok)).symm⟩
        next =>
          split at ok
          next => exact .inl ⟨_, (congrArg Prod.fst (Except.ok.inj ok)).symm⟩
          next =>
            have numbers : [some above, some c].reduceOption.mapM
                (fun c => c.observation.value) = some [top, zero] := by
              simp [below, denominator]
            rw [numbers] at ok
            obtain ⟨decoded, each, ok⟩ := bind_eq_ok.mp ok
            obtain ⟨x, rest, -, more, rfl⟩ :=
              forall₂_cons_left_iff.mp (Except.mapM_eq_ok.mp each)
            obtain ⟨y, _, zeroed, empty, rfl⟩ := forall₂_cons_left_iff.mp more
            obtain rfl := forall₂_nil_left_iff.mp empty
            obtain rfl : 0 = y := Except.ok.inj (decodes.symm.trans zeroed)
            unfold DerivedMetric.calculate at ok
            rw [ratio] at ok
            exact .inl ⟨_, (congrArg Prod.fst (Except.ok.inj ok)).symm⟩

end Lacks

/-! ## Executions -/

section Executions

variable {digest : IdentityPreimage → String} {nodes : List DerivedMetric}
  {definitions : List MetricDefinition} {execution : DerivedExecution}
  {inputs : List Computation} {p : Dag.Progress DerivedMetric DerivedProgress}
  {n : DerivedMetric} {c : Computation}

theorem Finished.value_iff (finished : Finished digest nodes definitions execution inputs p)
    {ref : MetricRef} : p.state.values.get ref = some c ↔
      c ∈ inputs ++ p.state.results ∧ c.metric = ref := by
  have results (output : Computation) : output ∈ p.state.results ↔
      ∃ n ∈ p.done, p.state.values.get n.output = some output := by
    have member : some output ∈ p.state.results.map some ↔ output ∈ p.state.results := by
      simp
    rw [← member, finished.settled.results, mem_map]
    exact exists_congr fun n => and_congr_left' mem_reverse
  rw [mem_append]
  constructor
  · intro found
    refine ⟨?_, finished.settled.metric ref c found⟩
    by_cases computed : ∃ n ∈ p.done, n.output = ref
    · obtain ⟨n, visited, rfl⟩ := computed
      exact .inr ((results c).mpr ⟨n, visited, found⟩)
    · have free : ∀ n ∈ p.done, n.output ≠ ref := fun n visited same =>
        computed ⟨n, visited, same⟩
      rw [finished.settled.others ref free, get_loaded finished.prepared.distinct] at found
      exact .inl (mem_of_find?_eq_some found)
  · rintro ⟨given | computed, rfl⟩
    · exact finished.value_of_input given
    · obtain ⟨n, -, found⟩ := (results c).mp computed
      rw [finished.settled.metric _ _ found]
      exact found

theorem Finished.withholds_iff (finished : Finished digest nodes definitions execution inputs p)
    {ref : MetricRef} (found : p.state.values.get ref = some c) :
    c.observation.quality.status.withholds ↔ c.observation.value = none := by
  by_cases computed : ∃ n ∈ p.done, n.output = ref
  · obtain ⟨n, visited, rfl⟩ := computed
    obtain ⟨r, evaluated, value, -⟩ := finished.settled.each n visited
    obtain rfl := some.inj (value.symm.trans found)
    exact (evaluateNode_valid evaluated).2
  · have free : ∀ n ∈ p.done, n.output ≠ ref := fun n visited same => computed ⟨n, visited, same⟩
    rw [finished.settled.others ref free, get_loaded finished.prepared.distinct] at found
    obtain ⟨d, -, valid⟩ :=
      (finished.prepared.loadable c (mem_of_find?_eq_some found)).valid
    exact withholds_iff_of_valid valid

theorem Finished.noBetter (finished : Finished digest nodes definitions execution inputs p)
    (feeds : Feeds nodes (inputs ++ p.state.results) n c) (mem : n ∈ nodes) :
    ∀ output, p.state.values.get n.output = some output → NoBetter output c := by
  induction feeds with
  | direct given input =>
    intro output found
    obtain ⟨r, evaluated, value, -⟩ := finished.evaluated mem
    obtain rfl := some.inj (value.symm.trans found)
    exact evaluateNode_noBetter (finished.prepared.plan.admitted _ mem) evaluated input
      (finished.value_iff.mpr ⟨given, rfl⟩)
  | through known input _ ih =>
    intro output found
    obtain ⟨r, evaluated, value, -⟩ := finished.evaluated mem
    obtain rfl := some.inj (value.symm.trans found)
    obtain ⟨r', -, between, -⟩ := finished.evaluated known
    have last := evaluateNode_noBetter (finished.prepared.plan.admitted _ mem) evaluated input
      between
    exact last.trans (ih known _ between)

theorem Finished.value_unique (finished : Finished digest nodes definitions execution inputs p)
    {c' : Computation} (mem : c ∈ inputs ++ p.state.results)
    (mem' : c' ∈ inputs ++ p.state.results) (same : c.metric = c'.metric) : c = c' := by
  have left := finished.value_iff.mpr ⟨mem, same⟩
  have right := finished.value_iff.mpr ⟨mem', rfl⟩
  exact some.inj (left.symm.trans right)

theorem unknown_of_lacks {values : MetricRef → Option Computation} {r : NodeResult}
    (ok : evaluateNode digest nodes definitions execution n values = .ok r)
    (other : ∀ c, n.operation = .rate → values n.first ≠ some c)
    (lacks : none ∈ n.inputs.map values ∨
      (n.maxSkewMs : Int) < skew ((n.inputs.map values).reduceOption.map fun c =>
        c.observation.observedAt.ms) ∨
      windowsDiffer (n.inputs.map values).reduceOption) :
    2 ≤ r.output.observation.quality.status.rank := by
  rcases evaluateNode_combines ok with ⟨c, rate, found⟩ | ⟨d, explicit, value, combined, bound⟩
  · exact absurd found (other c rate)
  · obtain ⟨reason, given⟩ := combine_unknown combined lacks
    exact bound _ given

theorem Finished.starved (finished : Finished digest nodes definitions execution inputs p)
    (starved : Starved nodes (inputs ++ p.state.results) n) (mem : n ∈ nodes) :
    ∀ output, p.state.values.get n.output = some output →
      2 ≤ output.observation.quality.status.rank := by
  induction starved with
  | @missing n ref input absent =>
    intro output found
    obtain ⟨r, evaluated, value, -⟩ := finished.evaluated mem
    obtain rfl := some.inj (value.symm.trans found)
    have none_ : p.state.values.get ref = none := by
      refine Option.eq_none_iff_forall_ne_some.mpr fun c found => ?_
      obtain ⟨given, same⟩ := finished.value_iff.mp found
      exact absent c given same
    refine unknown_of_lacks evaluated (fun c rate found => ?_)
      (.inl (none_ ▸ mem_map_of_mem input))
    rw [(finished.prepared.plan.admitted n mem).rate_inputs rate, mem_singleton] at input
    rw [← input, none_] at found
    cases found
  | @zero n a b c zero ratio both given same zeroed decodes =>
    intro output found
    obtain ⟨r, evaluated, value, -⟩ := finished.evaluated mem
    obtain rfl := some.inj (value.symm.trans found)
    have below : p.state.values.get b = some c := finished.value_iff.mpr ⟨given, same⟩
    rcases evaluateNode_combines evaluated with ⟨_, rate, -⟩ | ⟨d, explicit, v, combined, bound⟩
    · rw [ratio] at rate
      cases rate
    · rw [both, map_cons, map_cons, map_nil, below] at combined
      rcases combine_zero ratio combined zeroed decodes with ⟨reason, unknown⟩ | ⟨top, above, null⟩
      · exact bound _ unknown
      · -- the numerator has no value, so it is unknown or invalid itself
        have numerator : a ∈ n.inputs := both ▸ mem_cons_self
        have last := evaluateNode_noBetter (finished.prepared.plan.admitted n mem) evaluated
          numerator above
        have withheld := (finished.withholds_iff above).mpr null
        rw [QualityStatus.withholds_iff] at withheld
        exact withheld.trans last.quality
  | @skew n c c' given input given' input' far =>
    intro output found
    obtain ⟨r, evaluated, value, -⟩ := finished.evaluated mem
    obtain rfl := some.inj (value.symm.trans found)
    have present := mem_present.mpr ⟨_, input, finished.value_iff.mpr ⟨given, rfl⟩⟩
    have present' := mem_present.mpr ⟨_, input', finished.value_iff.mpr ⟨given', rfl⟩⟩
    refine unknown_of_lacks evaluated (fun _ rate _ => ?_) (.inr (.inl (far.trans_le ?_)))
    · have one := (finished.prepared.plan.admitted n mem).rate_inputs rate
      rw [one, mem_singleton] at input input'
      obtain rfl := finished.value_unique given given' (input.trans input'.symm)
      omega
    · exact sub_le_skew (mem_map_of_mem present) (mem_map_of_mem present')
  | @window n c c' given input given' input' spans differ =>
    intro output found
    obtain ⟨r, evaluated, value, -⟩ := finished.evaluated mem
    obtain rfl := some.inj (value.symm.trans found)
    have present := mem_present.mpr ⟨_, input, finished.value_iff.mpr ⟨given, rfl⟩⟩
    have present' := mem_present.mpr ⟨_, input', finished.value_iff.mpr ⟨given', rfl⟩⟩
    refine unknown_of_lacks evaluated (fun _ rate _ => ?_)
      (.inr (.inr (windowsDiffer_of present present' spans differ)))
    have one := (finished.prepared.plan.admitted n mem).rate_inputs rate
    rw [one, mem_singleton] at input input'
    obtain rfl := finished.value_unique given given' (input.trans input'.symm)
    exact differ.elim (fun ne => ne rfl) fun ne => ne rfl
  | downstream known input _ ih =>
    intro output found
    obtain ⟨r, evaluated, value, -⟩ := finished.evaluated mem
    obtain rfl := some.inj (value.symm.trans found)
    obtain ⟨r', -, between, -⟩ := finished.evaluated known
    have last := evaluateNode_noBetter (finished.prepared.plan.admitted _ mem) evaluated input
      between
    exact (ih known _ between).trans last.quality

/-- In a successful execution each node has one output.  It is no better than anything that reaches
the node, has no value exactly when its quality is unknown or invalid, and has none when the node is
starved. -/
theorem evidence_never_upgraded (digest : IdentityPreimage → String) (nodes : List DerivedMetric)
    (definitions : List MetricDefinition) (execution : DerivedExecution)
    (inputs : List Computation) (result : DerivedResult)
    (ok : executeDerived digest nodes definitions execution inputs = .ok result) :
    ∀ n ∈ nodes, ∃ output ∈ result.outputs, output.metric = n.output ∧
      (∀ other ∈ result.outputs, other.metric = n.output → other = output) ∧
      (∀ c, Feeds nodes (inputs ++ result.outputs) n c → NoBetter output c) ∧
      (output.observation.value = none ↔
        output.observation.quality.status = .unknown ∨
          output.observation.quality.status = .invalid) ∧
      (Starved nodes (inputs ++ result.outputs) n → output.observation.value = none) := by
  obtain ⟨p, visited, ok⟩ := bind_eq_ok.mp ok
  obtain rfl := Except.ok.inj ok
  have finished := Finished.of_ok visited
  intro n mem
  obtain ⟨r, evaluated, value, -⟩ := finished.evaluated mem
  obtain ⟨metric, withheld⟩ := evaluateNode_valid evaluated
  have output : r.output ∈ p.state.results := by
    have visits := finished.settled.results
    have among : some r.output ∈ p.state.results.map some := by
      rw [visits, ← value]
      exact mem_map_of_mem (mem_reverse.mpr (finished.complete n mem))
    simpa using among
  refine ⟨r.output, output, metric, fun other computed same => ?_, fun c feeds => ?_, ?_,
    fun starved => ?_⟩
  · exact finished.value_unique (mem_append_right _ computed)
      (mem_append_right _ output) (same.trans metric.symm)
  · exact finished.noBetter feeds mem _ value
  · rw [← withheld]
    cases r.output.observation.quality.status <;> simp [QualityStatus.withholds]
  · rw [← withheld, QualityStatus.withholds_iff]
    exact finished.starved starved mem _ value

end Executions

/-- The execution without the free bytes, which the size needs. -/
private def shortResult : Except (Halt String) DerivedResult :=
  executeDerived metricDigest [spareNode, sizeNode] filesystem filesystemExecution
    [bytesNow "used" 30]

private theorem short_ok : shortResult.toOption.isSome = true := by rfl

private theorem short_free : ∀ c ∈ [bytesNow "used" 30] ++ (shortResult.toOption.get short_ok).outputs,
    c.metric ≠ (bytesGauge "free").ref := by decide

/-- What is spare starves with the size. -/
theorem evidence_never_upgraded_filesystem :
    ∃ output ∈ (shortResult.toOption.get short_ok).outputs,
      output.metric = spareNode.output ∧ output.observation.value = none := by
  obtain ⟨output, mem, metric, -, -, -, starved⟩ := evidence_never_upgraded metricDigest
    [spareNode, sizeNode] filesystem filesystemExecution [bytesNow "used" 30]
    (shortResult.toOption.get short_ok) (Except.eq_ok_get short_ok) spareNode mem_cons_self
  have size : sizeNode ∈ [spareNode, sizeNode] := mem_cons_of_mem _ mem_cons_self
  have missing : Starved [spareNode, sizeNode]
      ([bytesNow "used" 30] ++ (shortResult.toOption.get short_ok).outputs) sizeNode :=
    .missing (mem_cons_of_mem _ mem_cons_self) short_free
  exact ⟨output, mem, metric, starved (.downstream size mem_cons_self missing)⟩

end Slide.Metrics
