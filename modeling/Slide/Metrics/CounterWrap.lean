import Slide.Library.Binary64Exact
import Slide.Metrics.CounterRun

/-!
# Wraps of a 32-bit counter

What a 32-bit counter shows is the residue of an integer that only grows.  While the integer grows by
no more than the driver bound, a delta that is emitted is its growth between two baselines: a bound
below the modulus leaves one integer with the residues that were seen, whether or not the driver sent
evidence of a wrap.
-/

namespace Slide.Metrics

open Transition List

/-! ## Numbers of 53 bits -/

section Doubles

variable {n : Nat}

theorem nearest_eq_ofInt (small : n < 2 ^ 53) : nearest (n : Rational) = Binary64.ofInt n := by
  rcases Nat.eq_zero_or_pos n with rfl | positive
  · rfl
  · have size : n.log2 < 53 := (Nat.log2_lt positive.ne').mpr small
    have short : bitLength n - 54 = 0 := by
      rw [bitLength, if_neg positive.ne']
      omega
    unfold nearest
    simp only [Rat.num_natCast, Rat.den_natCast, Int.natAbs_natCast, short, show bitLength 1 - 54 = 0
      from rfl, pow_zero, Int.tdiv_one, Nat.shiftRight_zero, Nat.cast_zero, sub_zero]
    change Binary64.ofInt n / Binary64.ofInt 1 * Binary64.pow2 0 = Binary64.ofInt n
    rw [Binary64.ofInt_nat positive small, Binary64.div_one _ (by omega) (by omega),
      Binary64.mul_pow2_zero _ (by omega) (by omega)]

theorem isFinite_nat (small : n < 2 ^ 53) : (Binary64.ofInt n).isFinite = true := by
  rcases Nat.eq_zero_or_pos n with rfl | positive
  · rfl
  · have size : n.log2 < 53 := (Nat.log2_lt positive.ne').mpr small
    rw [Binary64.ofInt_nat positive small]
    exact Binary64.isFinite_ofFull _ (by omega) (by omega)

theorem numberValue_nat (small : n < 2 ^ 53) :
    numberValue ⟨Binary64.ofInt n, isFinite_nat small⟩ = n := by
  rcases Nat.eq_zero_or_pos n with rfl | positive
  · change numberValue ⟨Binary64.ofInt 0, isFinite_nat (Nat.two_pow_pos 53)⟩ = (0 : Nat)
    decide +kernel
  · have size : n.log2 < 53 := (Nat.log2_lt positive.ne').mpr small
    have full := Binary64.log2_scaled positive small
    obtain ⟨lower, -⟩ := (Nat.log2_eq_iff (Binary64.pos_of_full full).ne').mp full
    have fields : Binary64.fields (Binary64.ofInt n) =
        (0, n.log2 + 1023, n * 2 ^ (52 - n.log2) - 2 ^ 52) := by
      rw [Binary64.ofInt_nat positive small]
      refine (Binary64.fields_full full (by omega) (by omega)).trans ?_
      rw [show ((n.log2 : Int) - 52 + 1075).toNat = n.log2 + 1023 by omega]
    have mantissa : ((n * 2 ^ (52 - n.log2) - 2 ^ 52 : Nat) : Int) + 2 ^ 52 =
        (n * 2 ^ (52 - n.log2) : Nat) := by omega
    have shift : ((max (n.log2 + 1023) 1 : Nat) : Int) - 1023 - 52 = n.log2 - 52 := by omega
    unfold numberValue
    simp only [fields, if_true, Nat.add_eq_zero_iff, OfNat.ofNat_ne_zero, and_false, if_false,
      mantissa, shift]
    split
    next whole =>
      rw [show ((n.log2 : Int) - 52).toNat = 0 by omega, show 52 - n.log2 = 0 by omega]
      simp
    next =>
      rw [show (-((n.log2 : Int) - 52)).toNat = 52 - n.log2 by omega]
      push_cast
      exact mul_div_cancel_right₀ _ (by positivity)

theorem encodeFloat_nat (small : n < 2 ^ 53) : encodeFloat (n : Rational) =
    ⟨some (.float64 ⟨Binary64.ofInt n, isFinite_nat small⟩), true⟩ := by
  unfold encodeFloat
  simp only [nearest_eq_ofInt small, isFinite_nat small, dite_true, numberValue_nat small, decide_true]

end Doubles

/-! ## One increase -/

theorem counterIncrease_bits32 {wrap : Prop} [Decidable wrap] {limit : Option Rational}
    {difference increase : Rational} {wrapped : Bool}
    (found : counterIncrease (some .bits32) wrap limit difference = some (increase, wrapped)) :
    ∃ most, limit = some most ∧ most < 2 ^ 32 ∧ 0 ≤ increase ∧ increase ≤ most ∧
      (increase = difference ∨ increase = difference + 2 ^ 32) := by
  obtain ⟨found, admitted⟩ := Option.filter_eq_some_iff.mp found
  obtain ⟨rises, below⟩ := of_decide_eq_true admitted
  unfold reconstruct at found
  rw [if_pos rfl] at found
  split at found
  next => cases found
  next limited =>
    obtain ⟨most, given, narrow⟩ := not_not.mp limited
    refine ⟨most, given, narrow, rises, below most given, ?_⟩
    split_ifs at found
    · exact .inr (Prod.mk.inj (some.inj found)).1.symm
    · exact .inl (Prod.mk.inj (some.inj found)).1.symm

theorem increase_of_residues {before after : Int} {increase most : Rational}
    (rises : before ≤ after) (bounded : ((after - before : Int) : Rational) ≤ most)
    (narrow : most < 2 ^ 32) (positive : 0 ≤ increase) (below : increase ≤ most)
    (residues : increase = ((after % 2 ^ 32 : Int) : Rational) - ((before % 2 ^ 32 : Int) : Rational) ∨
      increase =
        ((after % 2 ^ 32 : Int) : Rational) - ((before % 2 ^ 32 : Int) : Rational) + 2 ^ 32) :
    increase = ((after - before : Int) : Rational) ∧ after - before < 2 ^ 32 := by
  have growth : after - before < 2 ^ 32 := by exact_mod_cast bounded.trans_lt narrow
  have whole (n : Int) (same : increase = (n : Rational))
      (residue : n = after % 2 ^ 32 - before % 2 ^ 32 ∨
        n = after % 2 ^ 32 - before % 2 ^ 32 + 2 ^ 32) : n = after - before := by
    have low : 0 ≤ n := by exact_mod_cast same ▸ positive
    have high : n < 2 ^ 32 := by exact_mod_cast same ▸ below.trans_lt narrow
    omega
  rcases residues with plain | wrapped
  · have same : increase = ((after % 2 ^ 32 - before % 2 ^ 32 : Int) : Rational) := by
      rw [plain, Int.cast_sub]
    exact ⟨by rw [same, whole _ same (.inl rfl)], growth⟩
  · have same : increase = ((after % 2 ^ 32 - before % 2 ^ 32 + 2 ^ 32 : Int) : Rational) := by
      rw [wrapped]
      push_cast
      rfl
    exact ⟨by rw [same, whole _ same (.inr rfl)], growth⟩

section Exit

variable {input previous : Observation} {state : Option CounterState}
  {revision : ProcessingRevision} {bound : Option Nat} {convert : Rational → Int → Rational}
  {exit : CounterExit} {maxGapMs : Int} {value : Rational}

theorem continuedExit_increase
    (ok : continuedExit input previous maxGapMs bound convert = .ok exit)
    (emits : exit.value = some value) :
    ∃ current last x y increase wrapped, input.value = some current ∧ previous.value = some last ∧
      current.decode = .ok x ∧ last.decode = .ok y ∧
      counterIncrease (input.counter.map CounterEvidence.bits) (provesWrap input previous)
        (bound.map fun bound =>
          (bound : Rational) * (input.observedAt.ms - previous.observedAt.ms : Int) / 1000) (x - y) =
        some (increase, wrapped) ∧
      value = convert increase (input.observedAt.ms - previous.observedAt.ms) := by
  unfold continuedExit at ok
  dsimp only at ok
  split at ok
  next =>
    obtain rfl := Except.ok.inj ok
    cases emits
  next =>
    split at ok
    next =>
      obtain rfl := Except.ok.inj ok
      cases emits
    next =>
      split at ok
      next current last here before =>
        obtain ⟨x, decoded, ok⟩ := bind_eq_ok.mp ok
        obtain ⟨y, decoded', ok⟩ := bind_eq_ok.mp ok
        split at ok
        next =>
          obtain rfl := Except.ok.inj ok
          cases emits
        next increase wrapped found =>
          obtain rfl := Except.ok.inj ok
          exact ⟨current, last, x, y, increase, wrapped, here, before, decoded, decoded', found,
            (some.inj emits).symm⟩
      next => cases ok

theorem counterExit_baseline (ok : counterExit input state revision bound convert = .ok exit)
    (emits : exit.value = some value) :
    ∃ last, state = some last ∧ last.segment = input.segment ∧ last.processingRevision = revision ∧
      continuedExit input last.baseline revision.maxGapMs bound convert = .ok exit := by
  unfold counterExit at ok
  split at ok
  next =>
    obtain rfl := Except.ok.inj ok
    cases emits
  next later =>
    split at ok
    next =>
      obtain rfl := Except.ok.inj ok
      cases emits
    next =>
      split at ok
      next =>
        obtain rfl := Except.ok.inj ok
        cases emits
      next =>
        split at ok
        next =>
          obtain rfl := Except.ok.inj ok
          cases emits
        next last =>
          split at ok
          next =>
            obtain rfl := Except.ok.inj ok
            cases emits
          next same =>
            push Not at same
            exact ⟨last, rfl, same.1, same.2, ok⟩

end Exit

/-! ## Outputs -/

section Output

variable {digest : IdentityPreimage → String} {args : OutputArgs} {result : Computation}

theorem given_of_output (ok : buildOutput digest args = .ok result)
    (emits : result.observation.value ≠ none) : ∃ value, args.value = some value := by
  obtain ⟨encoded, encodes, -, rfl⟩ := buildOutput_spec ok
  cases given : args.value with
  | some value => exact ⟨value, rfl⟩
  | none =>
    rw [given] at encodes
    obtain rfl := Except.ok.inj encodes
    refine absurd ?_ emits
    change outputValue _ _ = none
    unfold outputValue
    split
    · rfl
    · rfl

theorem output_of_nat {n : Nat} (small : n < 2 ^ 53) (ok : buildOutput digest args = .ok result)
    (given : args.value = some (n : Rational)) (emits : result.observation.value ≠ none) :
    ∃ scalar, result.observation.value = some (.scalar scalar) ∧ scalar.decode = n := by
  obtain ⟨encoded, encodes, -, rfl⟩ := buildOutput_spec ok
  rw [given] at encodes
  obtain ⟨value, found⟩ := Option.ne_none_iff_exists'.mp emits
  change outputValue _ encoded = some value at found
  unfold outputValue at found
  split at found
  next => cases found
  next trusted =>
    obtain ⟨scalar, stored, rfl⟩ := Option.map_eq_some_iff.mp found
    have valued : outputValue _ encoded = some (.scalar scalar) :=
      (if_neg trusted).trans (congrArg (Option.map MetricValue.scalar) stored)
    refine ⟨scalar, valued, ?_⟩
    cases type : args.definition.valueType with
    | int64 => exact (decode_of_encode_integer (.inl type) encodes stored).2
    | uint64 => exact (decode_of_encode_integer (.inr type) encodes stored).2
    | float64 =>
      rw [type] at encodes
      have same : encodeFloat (n : Rational) = encoded := Except.ok.inj encodes
      rw [encodeFloat_nat small] at same
      rw [← same] at stored
      obtain rfl := some.inj stored
      exact numberValue_nat small
    | histogram | summary =>
      rw [type] at encodes
      cases encodes

end Output

/-! ## Runs -/

/-- The instant of a call's sample. -/
def CounterEvent.sampledAt (e : CounterEvent) : Int := e.input.observedAt.ms

/-- The driver bound of a call. -/
def CounterEvent.rate (e : CounterEvent) : Option Nat :=
  e.options.maxIncrementPerSecond.bind decimal

/-- A call of `processCounter` for a delta, in one unit throughout. -/
structure WrapStep (digest : IdentityPreimage → String) (definition output : MetricDefinition)
    (s : Option CounterState) (e : CounterEvent) (t : Option CounterState) : Prop where
  units : unitFactor e.input.unit definition.unit = .ok 1
  outputUnits : unitFactor definition.unit output.unit = .ok 1
  ok : processCounter digest e.input definition output .delta s e.options = .ok e.transition
  next : t = e.transition.state

/-- The samples show the residues of an integer that grows within the driver bound. -/
structure Residues (C : Int → Int) (es : List CounterEvent) : Prop where
  shows : ∀ e ∈ es, e.input.bits = some .bits32 →
    ∀ n, e.input.count = some n → n = C e.sampledAt % 2 ^ 32
  rises : ∀ a ∈ es, ∀ b ∈ es, a.sampledAt ≤ b.sampledAt → C a.sampledAt ≤ C b.sampledAt
  bounded : ∀ a ∈ es, ∀ b ∈ es, a.sampledAt ≤ b.sampledAt → ∀ rate, b.rate = some rate →
    ((C b.sampledAt - C a.sampledAt : Int) : Rational) ≤
      rate * (b.sampledAt - a.sampledAt : Int) / 1000

section Run

variable {digest : IdentityPreimage → String} {definition output : MetricDefinition}
  {s t : Option CounterState} {e : CounterEvent} {es : List CounterEvent} {C : Int → Int}

theorem rate_of_bound {bound : Nat} (ok : e.options.bound = .ok (some bound)) :
    e.rate = some bound := by
  unfold CounterOptions.bound at ok
  unfold CounterEvent.rate
  split at ok
  next => cases ok
  next text given =>
    rw [given, Option.bind_some]
    split at ok
    next => cases ok
    next found =>
      rw [found]
      exact Except.ok.inj ok

theorem baseline_of_run (run : Run (WrapStep digest definition output) none es s) :
    ∀ last ∈ s, ∃ e ∈ es, last.segment = e.input.segment ∧ last.baseline = e.input ∧
      ∃ n, e.input.count = some n := by
  refine run.history (P := fun es s => ∀ last ∈ s, ∃ e ∈ es, last.segment = e.input.segment ∧
    last.baseline = e.input ∧ ∃ n, e.input.count = some n) (fun last absent => by cases absent) ?_
  intro es t e u among step
  obtain ⟨_, _, _, exit, processed⟩ := processCounter_spec step.ok
  rw [step.next, processed.next]
  intro last isLast
  rcases counterExit_cases processed.exits with ⟨hold, -⟩ | ⟨advance, later, count, -⟩
  · rw [hold, if_neg Bool.false_ne_true] at isLast
    obtain ⟨e', mem, rest⟩ := among last isLast
    exact ⟨e', mem_append_left _ mem, rest⟩
  · rw [if_pos advance] at isLast
    obtain rfl := some.inj isLast
    exact ⟨e, by simp, rfl, rfl, count⟩

/-- What a step that puts out a value did. -/
structure Emitted (digest : IdentityPreimage → String) (s : Option CounterState) (e : CounterEvent)
    (t : Option CounterState)
    (bound : Option Nat) (last : CounterState) (x y increase : Rational) : Prop where
  before : s = some last
  segment : last.segment = e.input.segment
  later : last.baseline.observedAt.ms < e.sampledAt
  after : ∃ next, t = some next ∧ next.baseline = e.input
  bounds : e.options.bound = .ok bound
  current : ∃ value, e.input.value = some value ∧ value.decode = .ok x
  previous : ∃ value, last.baseline.value = some value ∧ value.decode = .ok y
  counted : ∃ n, e.input.count = some n
  increases : ∃ wrapped, counterIncrease e.input.bits (provesWrap e.input last.baseline)
    (bound.map fun bound =>
      (bound : Rational) * (e.sampledAt - last.baseline.observedAt.ms : Int) / 1000) (x - y) =
    some (increase, wrapped)
  put : ∃ args, buildOutput digest args = .ok e.transition.output ∧ args.value = some increase

theorem WrapStep.emitted (step : WrapStep digest definition output s e t)
    (emits : e.transition.output.observation.value ≠ none) :
    ∃ bound last x y increase, Emitted digest s e t bound last x y increase := by
  obtain ⟨factor, toOutput, bound, exit, bounds, processed⟩ := processCounter_bounded step.ok
  obtain ⟨value, given⟩ := given_of_output processed.output emits
  have valued : exit.value = some value := given
  have factor_eq : factor = 1 := by
    have units := processed.units
    rw [step.units] at units
    exact (Except.ok.inj units).symm
  have toOutput_eq : toOutput = 1 := by
    have units : unitFactor definition.unit output.unit = _ := processed.outputUnits
    rw [step.outputUnits] at units
    exact (Except.ok.inj units).symm
  obtain ⟨last, before, segment, -, continued⟩ := counterExit_baseline processed.exits valued
  obtain ⟨current, previous, x, y, increase, wrapped, here, there, decoded, decoded', found, same⟩ :=
    continuedExit_increase continued valued
  rcases counterExit_cases processed.exits with ⟨-, silent⟩ | ⟨advance, later, count, -⟩
  · rw [valued] at silent
    cases silent
  · have after : t = some ⟨e.input.series, e.input.segment, e.options.revision e.input, e.input⟩ := by
      rw [step.next, processed.next, if_pos advance]
    have plain : value = increase := by
      rw [same]
      change increase * factor * toOutput = increase
      rw [factor_eq, toOutput_eq, mul_one, mul_one]
    exact ⟨bound, last, x, y, increase,
      { before, segment
        later := later last before
        after := ⟨_, after, rfl⟩
        bounds
        current := ⟨current, here, decoded⟩
        previous := ⟨previous, there, decoded'⟩
        counted := count
        increases := ⟨wrapped, found⟩
        put := ⟨_, processed.output, plain ▸ given⟩ }⟩

theorem Emitted.increase_eq {bound : Option Nat} {last : CounterState} {x y increase : Rational}
    (emitted : Emitted digest s e t bound last x y increase) {e' : CounterEvent}
    (segment : last.segment = e'.input.segment) (baseline : last.baseline = e'.input)
    {m : Int} (count : e'.input.count = some m) (bits : e.input.bits = some .bits32)
    (residues : Residues C es) (mem : e ∈ es) (mem' : e' ∈ es) :
    increase = ((C e.sampledAt - C e'.sampledAt : Int) : Rational) ∧
      C e'.sampledAt ≤ C e.sampledAt ∧ C e.sampledAt - C e'.sampledAt < 2 ^ 32 := by
  obtain ⟨n, counted⟩ := emitted.counted
  have bits' : e'.input.bits = some .bits32 := by
    have same : e'.input.segment = e.input.segment := segment.symm.trans emitted.segment
    exact (congrArg SourceSegment.bits same).trans bits
  have earlier : e'.sampledAt ≤ e.sampledAt := by
    have later := emitted.later
    rw [baseline] at later
    exact later.le
  have x_eq : x = ((C e.sampledAt % 2 ^ 32 : Int) : Rational) := by
    obtain ⟨value, here, decoded⟩ := emitted.current
    obtain ⟨value', found, decodes⟩ := decode_of_count counted
    obtain rfl := some.inj (here.symm.trans found)
    rw [← residues.shows e mem bits n counted]
    exact Except.ok.inj (decoded.symm.trans decodes)
  have y_eq : y = ((C e'.sampledAt % 2 ^ 32 : Int) : Rational) := by
    obtain ⟨value, there, decoded⟩ := emitted.previous
    obtain ⟨value', found, decodes⟩ := decode_of_count count
    rw [baseline] at there
    obtain rfl := some.inj (there.symm.trans found)
    rw [← residues.shows e' mem' bits' m count]
    exact Except.ok.inj (decoded.symm.trans decodes)
  obtain ⟨wrapped, found⟩ := emitted.increases
  rw [bits] at found
  obtain ⟨most, limited, narrow, positive, below, differs⟩ := counterIncrease_bits32 found
  cases bound with
  | none => cases limited
  | some rate =>
    obtain rfl := some.inj limited
    have rises := residues.rises e' mem' e mem earlier
    have bounded := residues.bounded e' mem' e mem earlier rate (rate_of_bound emitted.bounds)
    rw [baseline] at narrow below
    rw [x_eq, y_eq] at differs
    obtain ⟨same, small⟩ := increase_of_residues rises bounded narrow positive below differs
    exact ⟨same, rises, small⟩

end Run

/-- **Wraps are reconstructed soundly.**  Where the samples of a run show the residues of an integer
that grows within the driver bound, every delta a 32-bit sample puts out is the growth between the
baseline before it and the one it becomes, with or without evidence of a wrap. -/
theorem delta_is_growth (digest : IdentityPreimage → String) (definition output : MetricDefinition)
    (C : Int → Int) (es : List CounterEvent) (e : CounterEvent) (s t : Option CounterState)
    (run : Run (WrapStep digest definition output) none es s)
    (step : WrapStep digest definition output s e t) (residues : Residues C (es ++ [e]))
    (bits : e.input.bits = some .bits32)
    (emits : e.transition.output.observation.value ≠ none) :
    ∃ last next, s = some last ∧ t = some next ∧ next.baseline = e.input ∧
      e.delta = some ((C next.baseline.observedAt.ms - C last.baseline.observedAt.ms : Int) :
        Rational) := by
  obtain ⟨bound, last, x, y, increase, emitted⟩ := step.emitted emits
  obtain ⟨e', mem', segment, baseline, m, count⟩ := baseline_of_run run last emitted.before
  obtain ⟨same, rises, small⟩ := emitted.increase_eq segment baseline count bits residues
    (by simp) (mem_append_left _ mem')
  obtain ⟨next, after, input⟩ := emitted.after
  obtain ⟨args, built, given⟩ := emitted.put
  have natural : ((C e.sampledAt - C e'.sampledAt).toNat : Int) = C e.sampledAt - C e'.sampledAt :=
    Int.toNat_of_nonneg (by omega)
  have grown : increase = ((C e.sampledAt - C e'.sampledAt).toNat : Rational) := by
    rw [same, ← natural]
    rfl
  obtain ⟨scalar, valued, decoded⟩ := output_of_nat (by omega) built (grown ▸ given) emits
  refine ⟨last, next, emitted.before, after, input, ?_⟩
  unfold CounterEvent.delta
  rw [valued, input, baseline]
  change some scalar.decode = some ((C e.sampledAt - C e'.sampledAt : Int) : Rational)
  rw [decoded, ← grown, same]

/-! ## A counter of packets -/

private def packets : MetricDefinition where
  id := "network.packets"
  semanticVersion := ⟨1, 0, 0⟩
  meaning := "packets"
  unit := .count
  resourceType := .networkDevice
  scope := .interface
  kind := .counter
  temporality := .cumulative
  monotonic := true
  valueType := .uint64
  dimensions := ⟨[], 1, 64⟩
  aggregation := ⟨[.last], [.none], ⟨Binary64.ofInt 0, zero_inside⟩, .notApplicable⟩
  lifecycle := .active
  replacementId := none
  category := .canonical

private def packetDelta : MetricDefinition :=
  { packets with
    id := "network.packets.delta", kind := .gauge, temporality := .instant, monotonic := false
    valueType := .float64 }

private def packetDigest (preimage : IdentityPreimage) : String :=
  match preimage.content with
  | .rawField name => name ++ toString preimage.observedAt
  | .lineage _ => toString preimage.observedAt

/-- What the counter shows at a second; it stands six below the modulus at second 10. -/
private def shown (second value : Nat) : Observation where
  id := "ifHCInUcastPkts" ++ toString (1000 * second)
  resourceType := .networkDevice
  resourceId := "3"
  metric := packets.ref
  dimensions := ⟨[], nodup_nil⟩
  observedAt := .ofMs (1000 * second)
  collectedAt := .ofMs (1000 * second)
  storedAt := none
  quality := ⟨.good, .none⟩
  accuracy := .exact
  production := .measured
  source := ⟨"binding", "metric", "collector", "attempt"⟩
  versions := ⟨⟨1, 0, 0⟩, "snmp", ⟨1, 0, 0⟩, ⟨1, 0, 0⟩, 1⟩
  counter := some ⟨some (.ofMs 0),
    if second = 10 then none else some ⟨"epoch", .ofMs (1000 * second), .wrap⟩, .bits32⟩
  unit := .count
  value := some (.scalar (.uint64 value))
  origin := .raw "ifHCInUcastPkts"

private def packetOptions : CounterOptions :=
  ⟨⟨⟨"1970-01-01T00:01:00Z", some 60000⟩, 60000⟩, 60000, some "1", none⟩

private def showOn (state : Option CounterState) (input : Observation) :
    Except String CounterTransition :=
  processCounter packetDigest input packets packetDelta .delta state packetOptions

private theorem shown_ok : (showOn none (shown 10 (2 ^ 32 - 6))).toOption.isSome = true := by
  rfl

private def shownCall : CounterEvent where
  input := shown 10 (2 ^ 32 - 6)
  options := packetOptions
  transition := (showOn none (shown 10 (2 ^ 32 - 6))).toOption.get shown_ok

private theorem wrapped_ok :
    (showOn shownCall.transition.state (shown 20 4)).toOption.isSome = true := by
  decide +kernel

private def wrappedCall : CounterEvent where
  input := shown 20 4
  options := packetOptions
  transition := (showOn shownCall.transition.state (shown 20 4)).toOption.get wrapped_ok

/-- The packets at an instant. -/
private def packetsAt (ms : Int) : Int := 2 ^ 32 - 16 + ms / 1000

private theorem shown_run : Run (WrapStep packetDigest packets packetDelta) none [shownCall]
    shownCall.transition.state :=
  .single ⟨rfl, rfl, Except.eq_ok_get shown_ok, rfl⟩

private theorem wrapped_step : WrapStep packetDigest packets packetDelta shownCall.transition.state
    wrappedCall wrappedCall.transition.state :=
  ⟨rfl, rfl, Except.eq_ok_get wrapped_ok, rfl⟩

private theorem packet_residues : Residues packetsAt ([shownCall] ++ [wrappedCall]) where
  shows e mem _ n count := by
    rcases mem_pair.mp mem with rfl | rfl
    · obtain rfl := some.inj count
      rfl
    · obtain rfl := some.inj count
      rfl
  rises := by decide
  bounded a mem b mem' earlier rate given := by
    have one : rate = 1 := by
      rcases mem_pair.mp mem' with rfl | rfl
      · exact (some.inj given).symm
      · exact (some.inj given).symm
    rcases mem_pair.mp mem with rfl | rfl
    · rcases mem_pair.mp mem' with rfl | rfl
      · rw [one]
        decide +kernel
      · rw [one]
        decide +kernel
    · rcases mem_pair.mp mem' with rfl | rfl
      · exact absurd earlier (by decide)
      · rw [one]
        decide +kernel

/-- A reading of four after one six below the modulus is a delta of ten. -/
theorem delta_is_growth_wrapped : (∃ last next, shownCall.transition.state = some last ∧
      wrappedCall.transition.state = some next ∧ next.baseline = wrappedCall.input ∧
      wrappedCall.delta = some ((packetsAt next.baseline.observedAt.ms -
        packetsAt last.baseline.observedAt.ms : Int) : Rational)) ∧ wrappedCall.delta = some 10 :=
  ⟨delta_is_growth packetDigest packets packetDelta packetsAt [shownCall] wrappedCall _ _ shown_run
    wrapped_step packet_residues rfl (by decide +kernel), by decide +kernel⟩

end Slide.Metrics
