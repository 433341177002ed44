import Slide.Library.Run
import Slide.Metrics.Counter

/-!
# Runs of one counter

Deltas of one integer counter, all in the unit of its definition, from the empty state on.  The
baseline is the last observation whose increase was told; what the emitted deltas add up to follows
from one step, since a step that emits is anchored on the interval between two baselines.
-/

namespace Slide.Metrics

open Transition List

/-! ## One observation -/

section Exit

variable {input previous : Observation} {state : Option CounterState}
  {revision : ProcessingRevision} {bound : Option Nat} {convert : Rational → Int → Rational}
  {exit : CounterExit} {maxGapMs : Int}

theorem counterIncrease_spec {bits : Option CounterBits} {wrap : Prop} [Decidable wrap]
    {limit : Option Rational} {difference increase : Rational} {wrapped : Bool}
    (found : counterIncrease bits wrap limit difference = some (increase, wrapped)) :
    increase = difference + (if difference < 0 then 2 ^ 32 else 0) ∧
      (wrapped = true ↔ difference < 0) := by
  obtain ⟨found, admitted⟩ := Option.filter_eq_some_iff.mp found
  have rises : 0 ≤ increase := (of_decide_eq_true admitted).1
  have plain (same : some (difference, false) = some (increase, wrapped)) :
      increase = difference + (if difference < 0 then 2 ^ 32 else 0) ∧
        (wrapped = true ↔ difference < 0) := by
    obtain ⟨rfl, rfl⟩ := Prod.mk.inj (some.inj same)
    have positive := not_lt.mpr rises
    rw [if_neg positive]
    exact ⟨(add_zero _).symm, nofun, fun negative => absurd negative positive⟩
  unfold reconstruct at found
  split_ifs at found with _ _ wraps
  · obtain ⟨rfl, rfl⟩ := Prod.mk.inj (some.inj found)
    rw [if_pos wraps.1]
    exact ⟨rfl, fun _ => wraps.1, fun _ => rfl⟩
  · exact plain found
  · exact plain found

theorem decode_of_count {o : Observation} {n : Int} (count : o.count = some n) :
    ∃ value, o.value = some value ∧ value.decode = .ok (n : Rational) := by
  unfold Observation.count at count
  split at count
  next value found => exact ⟨_, found, by rw [← some.inj count]; rfl⟩
  next value found =>
    refine ⟨_, found, ?_⟩
    rw [← some.inj count]
    exact congrArg Except.ok (by push_cast [ScalarValue.decode]; rfl)
  next => cases count

theorem continuedExit_cases
    (ok : continuedExit input previous maxGapMs bound convert = .ok exit) :
    exit.advance = true ∧ (exit.value = none ∨
      ∃ current last x y increase wrapped, input.value = some current ∧
        previous.value = some last ∧ current.decode = .ok x ∧ last.decode = .ok y ∧
        increase = x - y + (if x - y < 0 then 2 ^ 32 else 0) ∧ (wrapped = true ↔ x - y < 0) ∧
        exit = .emit (convert increase (input.observedAt.ms - previous.observedAt.ms)) wrapped) := by
  unfold continuedExit at ok
  dsimp only at ok
  split at ok
  next =>
    obtain rfl := Except.ok.inj ok
    exact ⟨rfl, .inl rfl⟩
  next =>
    split at ok
    next =>
      obtain rfl := Except.ok.inj ok
      exact ⟨rfl, .inl rfl⟩
    next =>
      split at ok
      next current last here before =>
        obtain ⟨x, decoded, ok⟩ := bind_eq_ok.mp ok
        obtain ⟨y, decoded', ok⟩ := bind_eq_ok.mp ok
        split at ok
        next =>
          obtain rfl := Except.ok.inj ok
          exact ⟨rfl, .inl rfl⟩
        next increase wrapped found =>
          obtain rfl := Except.ok.inj ok
          obtain ⟨value, wraps⟩ := counterIncrease_spec found
          exact ⟨rfl, .inr ⟨current, last, x, y, increase, wrapped, here, before, decoded, decoded',
            value, wraps, rfl⟩⟩
      next => cases ok

theorem counterExit_cases (ok : counterExit input state revision bound convert = .ok exit) :
    exit.advance = false ∧ exit.value = none ∨
    exit.advance = true ∧ (∀ last ∈ state, last.baseline.observedAt.ms < input.observedAt.ms) ∧
      (∃ n, input.count = some n) ∧ ¬ input.quality.status.withholds ∧
      (exit.value = none ∨ ∃ last, state = some last ∧
        continuedExit input last.baseline revision.maxGapMs bound convert = .ok exit) := by
  unfold counterExit at ok
  split at ok
  next =>
    obtain rfl := Except.ok.inj ok
    exact .inl ⟨rfl, rfl⟩
  next later =>
    split at ok
    next =>
      obtain rfl := Except.ok.inj ok
      exact .inl ⟨rfl, rfl⟩
    next usable =>
      split at ok
      next =>
        obtain rfl := Except.ok.inj ok
        exact .inl ⟨rfl, rfl⟩
      next integer =>
        have after : ∀ last ∈ state, last.baseline.observedAt.ms < input.observedAt.ms :=
          fun last mem => not_le.mp fun late => later ⟨last, mem, late⟩
        have count := Option.ne_none_iff_exists'.mp fun none => integer (.inr none)
        have admitted : ¬ input.quality.status.withholds := fun withheld => usable (.inr withheld)
        split at ok
        next =>
          obtain rfl := Except.ok.inj ok
          exact .inr ⟨rfl, after, count, admitted, .inl rfl⟩
        next last =>
          split at ok
          next =>
            obtain rfl := Except.ok.inj ok
            exact .inr ⟨rfl, after, count, admitted, .inl rfl⟩
          next =>
            exact .inr ⟨(continuedExit_cases ok).1, after, count, admitted,
              .inr ⟨last, rfl, ok⟩⟩

/-- What makes an observation the next baseline, whatever it is converted to. -/
def Advances (input : Observation) (state : Option CounterState) : Prop :=
  (∀ last ∈ state, last.baseline.observedAt.ms < input.observedAt.ms) ∧ input.value ≠ none ∧
    ¬ input.quality.status.withholds ∧ input.quality.reason ≠ .precisionLoss ∧ input.count ≠ none

theorem counterExit_advance (ok : counterExit input state revision bound convert = .ok exit) :
    exit.advance = true ↔ Advances input state := by
  unfold counterExit at ok
  split at ok
  next late =>
    obtain rfl := Except.ok.inj ok
    obtain ⟨last, mem, late⟩ := late
    exact iff_of_false Bool.false_ne_true fun advances => not_lt.mpr late (advances.1 last mem)
  next later =>
    have after : ∀ last ∈ state, last.baseline.observedAt.ms < input.observedAt.ms :=
      fun last mem => not_le.mp fun late => later ⟨last, mem, late⟩
    split at ok
    next unusable =>
      obtain rfl := Except.ok.inj ok
      exact iff_of_false Bool.false_ne_true fun advances =>
        unusable.elim advances.2.1 advances.2.2.1
    next usable =>
      push Not at usable
      split at ok
      next rounded =>
        obtain rfl := Except.ok.inj ok
        exact iff_of_false Bool.false_ne_true fun advances =>
          rounded.elim advances.2.2.2.1 advances.2.2.2.2
      next whole =>
        push Not at whole
        have advances : Advances input state :=
          ⟨after, usable.1, usable.2, whole.1, whole.2⟩
        refine iff_of_true ?_ advances
        split at ok
        next =>
          obtain rfl := Except.ok.inj ok
          rfl
        next last =>
          split at ok
          next =>
            obtain rfl := Except.ok.inj ok
            rfl
          next => exact (continuedExit_cases ok).1

end Exit

/-! ## One call -/

section Call

variable {digest : IdentityPreimage → String} {input : Observation}
  {definition outputDefinition : MetricDefinition} {operation : CounterOperation}
  {state : Option CounterState} {options : CounterOptions} {transition : CounterTransition}

/-- What a call of `processCounter` did. -/
structure Processed (digest : IdentityPreimage → String) (input : Observation)
    (definition outputDefinition : MetricDefinition) (operation : CounterOperation)
    (state : Option CounterState) (options : CounterOptions) (transition : CounterTransition)
    (factor toOutput : Rational) (bound : Option Nat) (exit : CounterExit) : Prop where
  valid : validateObservation digest input definition = .ok ()
  units : unitFactor input.unit definition.unit = .ok factor
  outputUnits : outputFactor operation definition.unit outputDefinition.unit = .ok toOutput
  checked : ∀ last ∈ state, last.check digest input definition = .ok ()
  exits : counterExit input state (options.revision input) bound
    (convertIncrease operation factor toOutput) = .ok exit
  output : buildOutput digest (exit.args input (state.map CounterState.baseline) outputDefinition
    options.context) = .ok transition.output
  advanced : transition.advanced = exit.advance
  next : transition.state = if exit.advance = true then
    some ⟨input.series, input.segment, options.revision input, input⟩ else state

theorem processCounter_bounded (ok : processCounter digest input definition outputDefinition operation
      state options = .ok transition) :
    ∃ factor toOutput bound exit, options.bound = .ok bound ∧
      Processed digest input definition outputDefinition operation state options transition factor
        toOutput bound exit := by
  unfold processCounter at ok
  obtain ⟨_, valid, ok⟩ := bind_eq_ok.mp ok
  obtain ⟨_, -, ok⟩ := bind_eq_ok.mp ok
  obtain ⟨_, -, ok⟩ := bind_eq_ok.mp ok
  simp only [requireRule_bind] at ok
  obtain ⟨-, -, -, ok⟩ := ok
  obtain ⟨bound, bounds, ok⟩ := bind_eq_ok.mp ok
  obtain ⟨factor, factors, ok⟩ := bind_eq_ok.mp ok
  obtain ⟨toOutput, outputs, ok⟩ := bind_eq_ok.mp ok
  have finish (ok : (do
      let exit ← counterExit input state (options.revision input) bound
        (convertIncrease operation factor toOutput)
      let output ← buildOutput digest
        (exit.args input (state.map CounterState.baseline) outputDefinition options.context)
      pure (⟨if exit.advance then some ⟨input.series, input.segment, options.revision input, input⟩
        else state, exit.advance, output⟩ : CounterTransition)) = .ok transition)
      (checked : ∀ last ∈ state, last.check digest input definition = .ok ()) :
      ∃ factor toOutput bound exit, options.bound = .ok bound ∧
        Processed digest input definition outputDefinition operation state options transition factor
          toOutput bound exit := by
    obtain ⟨exit, exits, ok⟩ := bind_eq_ok.mp ok
    obtain ⟨output, built, ok⟩ := bind_eq_ok.mp ok
    obtain rfl := Except.ok.inj ok
    exact ⟨factor, toOutput, bound, exit, bounds, valid, factors, outputs, checked, exits, built, rfl,
      rfl⟩
  cases state with
  | none => exact finish ok fun last absent => by cases absent
  | some last =>
    obtain ⟨_, checked, ok⟩ := bind_eq_ok.mp ok
    refine finish ok fun last' same => ?_
    obtain rfl := some.inj same
    exact checked

theorem processCounter_spec (ok : processCounter digest input definition outputDefinition operation
      state options = .ok transition) :
    ∃ factor toOutput bound exit, Processed digest input definition outputDefinition operation state
      options transition factor toOutput bound exit := by
  obtain ⟨factor, toOutput, bound, exit, -, processed⟩ := processCounter_bounded ok
  exact ⟨factor, toOutput, bound, exit, processed⟩

theorem processCounter_state_eq {outputDefinition' : MetricDefinition}
    {operation' : CounterOperation} {transition' : CounterTransition}
    (ok : processCounter digest input definition outputDefinition operation state options =
      .ok transition)
    (ok' : processCounter digest input definition outputDefinition' operation' state options =
      .ok transition') : transition.state = transition'.state := by
  obtain ⟨_, _, _, exit, left⟩ := processCounter_spec ok
  obtain ⟨_, _, _, exit', right⟩ := processCounter_spec ok'
  have same : exit.advance = true ↔ exit'.advance = true :=
    (counterExit_advance left.exits).trans (counterExit_advance right.exits).symm
  rw [left.next, right.next, if_congr same rfl rfl]

theorem processCounter_state_none
    (ok : processCounter digest input definition outputDefinition operation state options =
      .ok transition) (none : transition.state = none) : state = Option.none := by
  obtain ⟨_, _, _, exit, processed⟩ := processCounter_spec ok
  rw [processed.next] at none
  split at none
  next => cases none
  next => exact none

theorem baseline_valid {last : CounterState} (ok : last.check digest input definition = .ok ()) :
    validateObservation digest last.baseline definition = .ok () := by
  unfold CounterState.check at ok
  simp only [requireRule_bind] at ok
  obtain ⟨_, valid, -⟩ := bind_eq_ok.mp ok.2
  exact valid

theorem output_of_integer {args : OutputArgs} {result : Computation} {value : MetricValue}
    (integer : args.definition.valueType = .int64 ∨ args.definition.valueType = .uint64)
    (ok : buildOutput digest args = .ok result) (emits : result.observation.value = some value) :
    ∃ scalar, value = .scalar scalar ∧ args.value = some scalar.decode ∧
      result.observation.quality = chooseQuality args.quality
        (propagateQuality (args.inputs.map Observation.evidence)).quality := by
  obtain ⟨encoded, encodes, -, rfl⟩ := buildOutput_spec ok
  change outputValue _ encoded = some value at emits
  unfold outputValue at emits
  split at emits
  next => cases emits
  next =>
    obtain ⟨scalar, stored, rfl⟩ := Option.map_eq_some_iff.mp emits
    cases given : args.value with
    | none =>
      rw [given] at encodes
      rw [← Except.ok.inj encodes] at stored
      cases stored
    | some rational =>
      rw [given] at encodes
      obtain ⟨exact_, decodes⟩ := decode_of_encode_integer integer encodes stored
      exact ⟨scalar, rfl, decodes ▸ rfl, outputEvidence_quality_of_exact exact_⟩

end Call

/-! ## Deltas of one counter -/

/-- One call for a delta. -/
structure CounterEvent where
  input : Observation
  options : CounterOptions
  transition : CounterTransition

/-- The delta a call emitted. -/
def CounterEvent.delta (e : CounterEvent) : Option Rational :=
  match e.transition.output.observation.value with
  | some (.scalar value) => some value.decode
  | _ => none

/-- The quality reason a call emitted with. -/
def CounterEvent.reason (e : CounterEvent) : QualityReason :=
  e.transition.output.observation.quality.reason

/-- The number a baseline stands at. -/
def CounterState.count (state : CounterState) : Int := state.baseline.count.getD 0

/-- The numbers of the baselines a sequence of calls sets. -/
def baselines (es : List CounterEvent) : List Int :=
  (es.filter (·.transition.advanced)).map fun e => e.input.count.getD 0

/-- How often a sequence of numbers falls, from a first one on. -/
def falls (first : Int) : List Int → Nat
  | [] => 0
  | next :: rest => (if next < first then 1 else 0) + falls next rest

/-- How many calls emitted a delta with reason `counter_wrap`. -/
def wraps (es : List CounterEvent) : Nat :=
  es.countP fun e => e.delta.isSome && e.reason = .counterWrap

/-- Two definitions whose deltas stay integers of one unit. -/
structure IntegerDelta where
  (definition output : MetricDefinition)
  unit : output.unit = definition.unit
  integer : output.valueType = .int64 ∨ output.valueType = .uint64

section Run

variable {digest : IdentityPreimage → String} {pair : IntegerDelta}
  {s t : Option CounterState} {e : CounterEvent} {es fs : List CounterEvent}

/-- A call of `processCounter` for a delta. -/
structure DeltaStep (digest : IdentityPreimage → String) (pair : IntegerDelta)
    (s : Option CounterState) (e : CounterEvent) (t : Option CounterState) : Prop where
  unit : e.input.unit = pair.definition.unit
  ok : processCounter digest e.input pair.definition pair.output .delta s e.options =
    .ok e.transition
  next : t = e.transition.state

/-- Every baseline stands at a number. -/
def Counting (s : Option CounterState) : Prop := ∀ last ∈ s, ∃ n, last.baseline.count = some n

/-- What one step tells. -/
structure Told (s : Option CounterState) (e : CounterEvent) (t : Option CounterState) : Prop where
  advances : e.transition.advanced = true → ∃ next, t = some next ∧ next.baseline = e.input ∧
    ∀ last ∈ s, last.baseline.observedAt.ms < next.baseline.observedAt.ms
  holds : e.transition.advanced = false →
    t = s ∧ e.transition.output.observation.value = none
  anchored : e.transition.output.observation.value ≠ none → ∃ last next delta, s = some last ∧
    t = some next ∧ e.delta = some delta ∧
    e.transition.output.window =
      ⟨last.baseline.observedAt.toDateText, next.baseline.observedAt.toDateText⟩ ∧
    delta = next.count - last.count + (if next.count < last.count then 2 ^ 32 else 0) ∧
    (last.baseline.quality.reason ≠ .counterWrap → e.input.quality.reason ≠ .counterWrap →
      (e.reason = .counterWrap ↔ next.count < last.count))

theorem unitFactor_self (unit : MetricUnit) : unitFactor unit unit = .ok 1 := if_pos rfl

theorem DeltaStep.counting (step : DeltaStep digest pair s e t) (counting : Counting s) :
    Counting t := by
  obtain ⟨factor, toOutput, bound, exit, processed⟩ := processCounter_spec step.ok
  rw [step.next, processed.next]
  rcases counterExit_cases processed.exits with ⟨hold, -⟩ | ⟨advance, -, count, -⟩
  · rw [hold, if_neg Bool.false_ne_true]
    exact counting
  · rw [if_pos advance]
    intro next same
    obtain rfl := some.inj same
    exact count

theorem buildOutput_window {args : OutputArgs} {result : Computation}
    (ok : buildOutput digest args = .ok result) : result.window = args.window := by
  obtain ⟨encoded, -, -, rfl⟩ := buildOutput_spec ok
  rfl

theorem propagate_rank_of_trusted {inputs : List Observation} (some : inputs ≠ [])
    (trusted : ∀ o ∈ inputs, ¬ o.quality.status.withholds) :
    (propagateQuality (inputs.map Observation.evidence)).quality.status.rank ≤ 1 := by
  obtain ⟨e, mem, same⟩ := propagate_quality_mem (mt map_eq_nil_iff.mp some)
  obtain ⟨o, input, rfl⟩ := mem_map.mp mem
  have low := trusted o input
  rw [QualityStatus.withholds_iff] at low
  rw [same]
  exact Nat.le_of_lt_succ (not_le.mp low)

theorem emitted_reason {last input : Observation} {value : Rational} {wrapped : Bool}
    (trusted : ∀ o ∈ [last, input], ¬ o.quality.status.withholds)
    (unmarked : last.quality.reason ≠ .counterWrap) (unmarked' : input.quality.reason ≠ .counterWrap) :
    (chooseQuality (CounterExit.emit value wrapped).quality
      (propagateQuality ([last, input].map Observation.evidence)).quality).reason = .counterWrap ↔
      wrapped = true := by
  cases wrapped with
  | true =>
    have low := propagate_rank_of_trusted (cons_ne_nil _ _) trusted
    exact iff_of_true (congrArg Quality.reason (if_pos low)) rfl
  | false =>
    refine iff_of_false (fun wrap => ?_) Bool.false_ne_true
    have sources : [last, input].map Observation.evidence ≠ [] := cons_ne_nil _ _
    obtain ⟨e, mem, same⟩ := propagate_quality_mem sources
    change (propagateQuality _).quality.reason = _ at wrap
    rw [same] at wrap
    obtain ⟨o, either, rfl⟩ := mem_map.mp mem
    rcases mem_pair.mp either with rfl | rfl
    · exact unmarked wrap
    · exact unmarked' wrap

theorem DeltaStep.told (step : DeltaStep digest pair s e t) (counting : Counting s) :
    Told s e t := by
  obtain ⟨factor, toOutput, bound, exit, processed⟩ := processCounter_spec step.ok
  have emits {value : MetricValue} (found : e.transition.output.observation.value = some value) :=
    output_of_integer pair.integer processed.output found
  have after : t = if exit.advance = true then
      some ⟨e.input.series, e.input.segment, e.options.revision e.input, e.input⟩ else s :=
    step.next.trans processed.next
  refine ⟨fun advanced => ?_, fun held => ?_, fun emitted => ?_⟩
  · rw [processed.advanced] at advanced
    rw [if_pos advanced] at after
    rcases counterExit_cases processed.exits with ⟨hold, -⟩ | ⟨-, later, -⟩
    · rw [hold] at advanced
      cases advanced
    · exact ⟨_, after, rfl, later⟩
  · rw [processed.advanced] at held
    rw [held, if_neg Bool.false_ne_true] at after
    refine ⟨after, Option.eq_none_iff_forall_ne_some.mpr fun value found => ?_⟩
    obtain ⟨scalar, -, given, -⟩ := emits found
    rcases counterExit_cases processed.exits with ⟨-, silent⟩ | ⟨advance, -⟩
    · rw [show exit.value = _ from given] at silent
      cases silent
    · rw [held] at advance
      cases advance
  · obtain ⟨value, found⟩ := Option.ne_none_iff_exists'.mp emitted
    obtain ⟨scalar, rfl, valued, quality⟩ := emits found
    have given : exit.value = some scalar.decode := valued
    rcases counterExit_cases processed.exits with ⟨-, silent⟩ |
      ⟨advance, -, ⟨n, count⟩, trusted, silent | ⟨last, isLast, continued⟩⟩
    · rw [given] at silent
      cases silent
    · rw [given] at silent
      cases silent
    · subst isLast
      rw [if_pos advance] at after
      obtain ⟨m, count'⟩ := counting last rfl
      obtain ⟨-, silent | ⟨current, before, x, y, increase, wrapped, here, there, decoded, decoded',
        rises, wraps, rfl⟩⟩ := continuedExit_cases continued
      · rw [given] at silent
        cases silent
      · have x_eq : x = n := by
          obtain ⟨value, found, decodes⟩ := decode_of_count count
          obtain rfl := some.inj (here.symm.trans found)
          exact Except.ok.inj (decoded.symm.trans decodes)
        have y_eq : y = m := by
          obtain ⟨value, found, decodes⟩ := decode_of_count count'
          obtain rfl := some.inj (there.symm.trans found)
          exact Except.ok.inj (decoded'.symm.trans decodes)
        have factor_eq : factor = 1 := by
          have units := processed.units
          rw [step.unit, unitFactor_self] at units
          exact (Except.ok.inj units).symm
        have toOutput_eq : toOutput = 1 := by
          have units : unitFactor pair.definition.unit pair.output.unit = _ := processed.outputUnits
          rw [pair.unit, unitFactor_self] at units
          exact (Except.ok.inj units).symm
        have delta_eq : scalar.decode = increase := by
          have same : increase * factor * toOutput = scalar.decode := some.inj given
          rw [← same, factor_eq, toOutput_eq, mul_one, mul_one]
        have drop : x - y < 0 ↔ n < m := by
          rw [x_eq, y_eq, sub_neg]
          exact Int.cast_lt
        have counted : e.input.count.getD 0 = n := by rw [count]; rfl
        have counted' : last.baseline.count.getD 0 = m := by rw [count']; rfl
        refine ⟨last, _, scalar.decode, rfl, after, ?_, buildOutput_window processed.output, ?_, ?_⟩
        · unfold CounterEvent.delta
          rw [found]
        · change scalar.decode = (e.input.count.getD 0 : Rational) - last.baseline.count.getD 0 +
            (if e.input.count.getD 0 < last.baseline.count.getD 0 then 2 ^ 32 else 0)
          rw [counted, counted', delta_eq, rises, if_congr drop rfl rfl, x_eq, y_eq]
        · intro unmarked unmarked'
          have trusted' : ∀ o ∈ [last.baseline, e.input], ¬ o.quality.status.withholds := by
            intro o mem
            rcases mem_pair.mp mem with rfl | rfl
            · rw [withholds_iff_of_valid (baseline_valid (processed.checked last rfl)), there]
              exact nofun
            · exact trusted
          change e.transition.output.observation.quality.reason = .counterWrap ↔
            e.input.count.getD 0 < last.baseline.count.getD 0
          rw [quality, counted, counted', ← drop, ← wraps]
          exact @emitted_reason _ _ 0 _ trusted' unmarked unmarked'

theorem falls_append (first next : Int) (counts : List Int) :
    falls first (counts ++ [next]) =
      falls first counts + if next < counts.getLast?.getD first then 1 else 0 := by
  induction counts generalizing first with
  | nil => exact (Nat.add_zero _).trans (Nat.zero_add _).symm
  | cons count rest ih =>
    rw [cons_append, falls, ih, falls, getLast?_cons]
    cases rest.getLast? <;> simp [add_assoc]

theorem baselines_append : baselines (es ++ [e]) = baselines es ++
    if e.transition.advanced then [e.input.count.getD 0] else [] := by
  unfold baselines
  rw [filter_append, map_append]
  cases advanced : e.transition.advanced with
  | true | false => simp [advanced]

theorem wraps_append : wraps (es ++ [e]) =
    wraps es + if e.delta.isSome && e.reason = .counterWrap then 1 else 0 := by
  unfold wraps
  rw [countP_append, countP_singleton]

theorem deltas_telescope {first : CounterState} (counting : Counting (some first))
    (run : Run (DeltaStep digest pair) (some first) fs t)
    (emit : ∀ e ∈ fs, e.transition.advanced = true →
      e.transition.output.observation.value ≠ none) :
    ∃ last, t = some last ∧ Counting t ∧
      last.count = (baselines fs).getLast?.getD first.count ∧
      (fs.filterMap CounterEvent.delta).sum =
        last.count - first.count + 2 ^ 32 * falls first.count (baselines fs) ∧
      (first.baseline.quality.reason ≠ .counterWrap →
        (∀ e ∈ fs, e.transition.advanced = true → e.input.quality.reason ≠ .counterWrap) →
        last.baseline.quality.reason ≠ .counterWrap ∧
          falls first.count (baselines fs) = wraps fs) := by
  induction run with
  | nil =>
    refine ⟨first, rfl, counting, rfl, ?_, fun unmarked _ => ⟨unmarked, rfl⟩⟩
    simp [baselines, falls]
  | @snoc fs s t e before step ih =>
    obtain ⟨last, rfl, counting', stands, total, unmarked⟩ :=
      ih fun e mem => emit e (mem_append_left _ mem)
    have told := step.told counting'
    have counting'' := step.counting counting'
    rw [filterMap_append, sum_append, baselines_append, wraps_append, total]
    cases advanced : e.transition.advanced with
    | false =>
      obtain ⟨rfl, silent⟩ := told.holds advanced
      have none : e.delta = none := by rw [CounterEvent.delta, silent]
      refine ⟨last, rfl, counting'', ?_, ?_, fun fresh marked => ?_⟩
      · simpa using stands
      · simp [none]
      · obtain ⟨fresh', same⟩ := unmarked fresh fun e mem => marked e (mem_append_left _ mem)
        exact ⟨fresh', by simpa [none] using same⟩
    | true =>
      have emitted := emit e (by simp) advanced
      obtain ⟨_, next, delta, isLast, rfl, emits, -, value, reason⟩ := told.anchored emitted
      obtain rfl := some.inj isLast
      obtain ⟨next', same, input, -⟩ := told.advances advanced
      obtain rfl := some.inj same
      have count : next.count = e.input.count.getD 0 := by rw [CounterState.count, input]
      refine ⟨next, rfl, counting'', ?_, ?_, fun fresh marked => ?_⟩
      · simp [count]
      · rw [if_pos rfl, falls_append, ← stands, ← count]
        simp only [filterMap_cons, emits, filterMap_nil, sum_singleton, value]
        push_cast
        split <;> ring
      · obtain ⟨fresh', same⟩ := unmarked fresh fun e mem => marked e (mem_append_left _ mem)
        have marked' := marked e (by simp) advanced
        refine ⟨input ▸ marked', ?_⟩
        rw [if_pos rfl, falls_append, ← stands, ← count, same]
        have wraps := reason fresh' marked'
        simp [emits, wraps]

theorem counting_of_run (run : Run (DeltaStep digest pair) none es s) : Counting s :=
  run.invariant (P := Counting) (fun last absent => by cases absent)
    fun _ _ _ counting step => step.counting counting

end Run

/-- **Runs of a counter.**  From the empty state on, a step moves the baseline forward or leaves the
state, and emits only what its interval between two baselines says; over a stretch whose advancing
steps all emit, the deltas add up to the difference of the baselines plus the modulus for each
baseline below the one before, which are the steps emitted as `counter_wrap` unless an input
already carried that reason. -/
theorem counter_telescopes (digest : IdentityPreimage → String) (pair : IntegerDelta)
    (es : List CounterEvent) (s : Option CounterState)
    (run : Run (DeltaStep digest pair) none es s) :
    (∀ e t, DeltaStep digest pair s e t → Told s e t) ∧
    ∀ fs t first, s = some first → Run (DeltaStep digest pair) s fs t →
      (∀ e ∈ fs, e.transition.advanced = true →
        e.transition.output.observation.value ≠ none) →
      ∃ last, t = some last ∧
        (fs.filterMap CounterEvent.delta).sum =
          last.count - first.count + 2 ^ 32 * falls first.count (baselines fs) ∧
        (first.baseline.quality.reason ≠ .counterWrap →
          (∀ e ∈ fs, e.transition.advanced = true → e.input.quality.reason ≠ .counterWrap) →
          falls first.count (baselines fs) = wraps fs) := by
  have counting := counting_of_run run
  refine ⟨fun e t step => step.told counting, fun fs t first start stretch emit => ?_⟩
  subst start
  obtain ⟨last, after, -, -, total, unmarked⟩ := deltas_telescope counting stretch emit
  exact ⟨last, after, total, fun fresh marked => (unmarked fresh marked).2⟩

/-! ## A counter of queries -/

private def queries : MetricDefinition where
  id := "db.queries"
  semanticVersion := ⟨1, 0, 0⟩
  meaning := "queries"
  unit := .count
  resourceType := .databaseInstance
  scope := .resource
  kind := .counter
  temporality := .cumulative
  monotonic := true
  valueType := .uint64
  dimensions := ⟨[], 1, 64⟩
  aggregation := ⟨[.last], [.none], ⟨Binary64.ofInt 0, zero_inside⟩, .notApplicable⟩
  lifecycle := .active
  replacementId := none
  category := .canonical

private def queryDelta : IntegerDelta where
  definition := queries
  output := { queries with
    id := "db.queries.delta", kind := .gauge, temporality := .instant, monotonic := false }
  unit := rfl
  integer := .inr rfl

private def plainDigest (preimage : IdentityPreimage) : String :=
  match preimage.content with
  | .rawField name => name ++ toString preimage.observedAt
  | .lineage _ => toString preimage.observedAt

/-- A reading of the counter at a second. -/
private def reading (second value : Nat) (quality : Quality) : Observation where
  id := "Queries" ++ toString (1000 * second)
  resourceType := .databaseInstance
  resourceId := "7"
  metric := queries.ref
  dimensions := ⟨[], nodup_nil⟩
  observedAt := .ofMs (1000 * second)
  collectedAt := .ofMs (1000 * second)
  storedAt := none
  quality
  accuracy := .exact
  production := .measured
  source := ⟨"binding", "metric", "collector", "attempt"⟩
  versions := ⟨⟨1, 0, 0⟩, "mysql", ⟨1, 0, 0⟩, ⟨1, 0, 0⟩, 1⟩
  counter := some ⟨some (.ofMs 0), none, .bits64⟩
  unit := .count
  value := some (.scalar (.uint64 value))
  origin := .raw "Queries"

private def minuteOptions : CounterOptions :=
  ⟨⟨⟨"1970-01-01T00:01:00Z", some 60000⟩, 60000⟩, 60000, none, none⟩

/-- The call for a reading on a state. -/
private def readOn (state : Option CounterState) (input : Observation) : Except String CounterTransition :=
  processCounter plainDigest input queryDelta.definition queryDelta.output .delta state minuteOptions

private theorem first_ok :
    (readOn none (reading 10 10 ⟨.good, .none⟩)).toOption.isSome = true := by rfl

private def firstCall : CounterEvent where
  input := reading 10 10 ⟨.good, .none⟩
  options := minuteOptions
  transition := (readOn none (reading 10 10 ⟨.good, .none⟩)).toOption.get first_ok

private theorem second_ok : (readOn firstCall.transition.state
    (reading 20 15 ⟨.partly, .counterWrap⟩)).toOption.isSome = true := by decide +kernel

/-- A reading that rises, of an input marked as wrapped itself. -/
private def markedCall : CounterEvent where
  input := reading 20 15 ⟨.partly, .counterWrap⟩
  options := minuteOptions
  transition := (readOn firstCall.transition.state
    (reading 20 15 ⟨.partly, .counterWrap⟩)).toOption.get second_ok

private theorem run_first :
    Run (DeltaStep plainDigest queryDelta) none [firstCall] firstCall.transition.state :=
  .single ⟨rfl, Except.eq_ok_get first_ok, rfl⟩

private theorem marked_step : DeltaStep plainDigest queryDelta firstCall.transition.state markedCall
    markedCall.transition.state := ⟨rfl, Except.eq_ok_get second_ok, rfl⟩

/-- After the first reading the state is a baseline, and the second reading moves it. -/
theorem counter_telescopes_queries : Told firstCall.transition.state markedCall
      markedCall.transition.state ∧ markedCall.delta = some 5 :=
  ⟨(counter_telescopes plainDigest queryDelta [firstCall] _ run_first).1 markedCall _ marked_step,
    by decide +kernel⟩

private theorem first_baseline : firstCall.transition.state.isSome = true := by rfl

private theorem marked_baseline : markedCall.transition.state.isSome = true := by decide +kernel

/-- A step emitted as `counter_wrap` whose delta has no wrap: its input already had that reason. -/
theorem counter_wrap_inherited : ∃ (digest : IdentityPreimage → String) (pair : IntegerDelta)
    (es fs : List CounterEvent) (first last : CounterState),
    Run (DeltaStep digest pair) none es (some first) ∧
      Run (DeltaStep digest pair) (some first) fs (some last) ∧
      (∀ e ∈ fs, e.transition.advanced = true ∧
        e.transition.output.observation.value ≠ none) ∧ wraps fs = 1 ∧
      (fs.filterMap CounterEvent.delta).sum ≠ last.count - first.count + 2 ^ 32 * wraps fs := by
  have before : Run (DeltaStep plainDigest queryDelta) none [firstCall]
      (some (firstCall.transition.state.get first_baseline)) := by
    rw [Option.some_get]
    exact run_first
  have stretch : Run (DeltaStep plainDigest queryDelta)
      (some (firstCall.transition.state.get first_baseline)) [markedCall]
      (some (markedCall.transition.state.get marked_baseline)) := by
    rw [Option.some_get, Option.some_get]
    exact .single marked_step
  exact ⟨plainDigest, queryDelta, [firstCall], [markedCall], _, _, before, stretch,
    by decide +kernel⟩

end Slide.Metrics
