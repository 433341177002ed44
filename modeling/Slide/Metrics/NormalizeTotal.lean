import Slide.Metrics.Counter

/-!
# What `normalize` makes of admitted input

An output is validated like any observation.  For an admitted scalar observation every rule holds of
the output again, but for one: the width of a 32-bit counter is checked on the converted value.
-/

namespace Slide.Metrics

section Validity

variable {digest : IdentityPreimage → String} {o : Observation} {d : MetricDefinition}

/-- The rules of `validateObservation`. -/
structure ValidObservation (digest : IdentityPreimage → String) (o : Observation)
    (d : MetricDefinition) : Prop where
  definition : validateDefinition d = .ok ()
  identity : o.metric = d.ref ∧ o.resourceType = d.resourceType
  contract : acceptsVersion contractVersion o.versions.contract
  dimensions : validateDimensions o.dimensions d = .ok ()
  time : o.observedAt.ms ≤ o.collectedAt.ms ∧ ∀ stored ∈ o.storedAt, o.collectedAt.ms ≤ stored.ms
  reason : o.quality.status = .good ↔ o.quality.reason = .none
  withheld : o.quality.status.withholds ↔ o.value = none
  legacy : o.quality.reason = .legacyUnknown → o.quality.status = .unknown ∧ o.accuracy = .unknown
  loss : o.quality.reason = .precisionLoss → o.accuracy ≠ .exact
  unit : o.stage = .normalized → o.unit = d.unit
  present : ∀ value ∈ o.value, validatePresent o d value = .ok ()
  counter : d.accumulates → validateCounter o = .ok ()
  lineage : o.id ∉ o.lineage.map ObservationRef.id ∧ o.lineage.Nodup
  id : o.id = observationIdentity digest o

theorem optional_bind {β : Type} {condition : Prop} [Decidable condition] {check : Except String PUnit}
    {rest : Except String β} {b : β} :
    (if condition then check >>= fun _ => rest else rest) = .ok b ↔
      (condition → check = .ok ()) ∧ rest = .ok b := by
  split
  next made =>
    rw [bind_eq_ok]
    exact ⟨fun ⟨_, passed, after⟩ => ⟨fun _ => passed, after⟩,
      fun ⟨passed, after⟩ => ⟨(), passed made, after⟩⟩
  next absent => exact ⟨fun after => ⟨fun made => absurd made absent, after⟩, And.right⟩

theorem validateObservation_iff :
    validateObservation digest o d = .ok () ↔ ValidObservation digest o d := by
  have present {all rest : Except String PUnit} (absent : o.value = none → all = rest)
      (shown : ∀ value, o.value = some value → all = validatePresent o d value >>= fun _ => rest) :
      all = .ok () ↔ (∀ value ∈ o.value, validatePresent o d value = .ok ()) ∧ rest = .ok () := by
    cases same : o.value with
    | none =>
      rw [absent same]
      exact ⟨fun after => ⟨by simp, after⟩, And.right⟩
    | some value =>
      rw [shown value same, bind_eq_ok]
      constructor
      · rintro ⟨_, passed, after⟩
        exact ⟨fun _ same => some.inj same ▸ passed, after⟩
      · rintro ⟨passed, after⟩
        exact ⟨(), passed value rfl, after⟩
  unfold validateObservation
  simp only [bind_eq_ok (x := validateDefinition d),
    bind_eq_ok (x := validateDimensions o.dimensions d), requireRule_bind]
  constructor
  · rintro ⟨_, definition, identity, contract, _, dimensions, time, reason, withheld, legacy, loss,
      unit, rest⟩
    obtain ⟨presents, rest⟩ := (present (fun same => by rw [same]) fun value same => by rw [same]).mp rest
    obtain ⟨counter, rest⟩ := optional_bind.mp rest
    rw [requireRule_bind, requireRule_ok] at rest
    exact ⟨definition, identity, contract, dimensions, time, reason, withheld, legacy, loss, unit,
      presents, counter, rest.1, rest.2⟩
  · intro valid
    have named : (requireRule (o.id ∉ o.lineage.map ObservationRef.id ∧ o.lineage.Nodup)
        "LINEAGE_IDENTITY" >>= fun _ =>
        requireRule (o.id = observationIdentity digest o) "IDEMPOTENCY_ID") = .ok () := by
      rw [requireRule_bind, requireRule_ok]
      exact ⟨valid.lineage, valid.id⟩
    exact ⟨(), valid.definition, valid.identity, valid.contract, (), valid.dimensions, valid.time,
      valid.reason, valid.withheld, valid.legacy, valid.loss, valid.unit,
      (present (fun same => by rw [same]) fun value same => by rw [same]).mpr
        ⟨valid.present, optional_bind.mpr ⟨valid.counter, named⟩⟩⟩

theorem scalar_definition (ok : validateDefinition d = .ok ()) (scalar : d.valueType.isScalar = true) :
    (d.monotonic = true → d.kind = .counter) ∧ (d.kind = .counter ∨ ¬ d.accumulates) ∧
      (d.kind = .counter → d.valueType = .int64 ∨ d.valueType = .uint64) := by
  unfold validateDefinition at ok
  simp only [requireRule_bind] at ok
  obtain ⟨-, -, -, ok⟩ := ok
  obtain ⟨_, -, ok⟩ := bind_eq_ok.mp ok
  simp only [requireRule_bind] at ok
  obtain ⟨-, -, monotonic, -, -, stores, ok⟩ := ok
  refine ⟨fun monotone => ?_, ?_, fun counter => ?_⟩
  · exact monotonic.resolve_right fun not => not monotone
  · cases kind : d.kind with
    | counter => exact .inl rfl
    | gauge => exact .inr (by simp [MetricDefinition.accumulates, kind])
    | histogram | summary =>
      rw [kind] at stores
      simp only [MetricKind.stores, decide_eq_true_eq] at stores
      rw [stores] at scalar
      cases scalar
  · rw [if_pos counter, requireRule_bind] at ok
    simpa using ok.1

/-- A scalar of a 32-bit counter is an integer below the modulus. -/
def Observation.Narrow (o : Observation) : Prop :=
  o.bits = some .bits32 → ∀ scalar, o.value = some (.scalar scalar) →
    scalar.decode.den = 1 ∧ scalar.decode < 2 ^ 32

theorem validateCounter_iff : validateCounter o = .ok () ↔
    (o.startAt.isSome ∨ o.discontinuity.isSome) ∧
      (∀ start ∈ o.startAt, start.ms ≤ o.observedAt.ms) ∧
      (∀ change ∈ o.discontinuity, change.observedAt.ms ≤ o.observedAt.ms) ∧ o.Narrow := by
  unfold validateCounter
  simp only [requireRule_bind]
  refine and_congr_right' (and_congr_right' (and_congr_right' ?_))
  unfold Observation.Narrow
  rw [show o.counter.map CounterEvidence.bits = o.bits from rfl]
  rcases o.bits with _ | _ | _
  · exact iff_of_true rfl fun width => by cases width
  · rcases o.value with _ | (⟨value⟩ | value | value) | _ | _
    · exact iff_of_true rfl fun _ _ same => by cases same
    · dsimp only
      rw [requireRule_ok]
      refine ⟨fun small _ scalar same => ?_, fun narrow => narrow rfl _ rfl⟩
      obtain rfl := MetricValue.scalar.inj (some.inj same)
      exact small
    · dsimp only
      rw [requireRule_ok]
      refine ⟨fun small _ scalar same => ?_, fun narrow => ?_⟩
      · obtain rfl := MetricValue.scalar.inj (some.inj same)
        exact ⟨rfl, show (value : Rational) < 2 ^ 32 by exact_mod_cast small⟩
      · have below : (value : Rational) < 2 ^ 32 := (narrow rfl _ rfl).2
        exact_mod_cast below
    · dsimp only
      rw [requireRule_ok]
      refine ⟨fun small _ scalar same => ?_, fun narrow => ?_⟩
      · obtain rfl := MetricValue.scalar.inj (some.inj same)
        exact ⟨rfl, show ((value : Int) : Rational) < 2 ^ 32 by exact_mod_cast small⟩
      · have below : ((value : Int) : Rational) < 2 ^ 32 := (narrow rfl _ rfl).2
        exact_mod_cast below
    · exact iff_of_true rfl fun _ _ same => by cases same
    · exact iff_of_true rfl fun _ _ same => by cases same
  · exact iff_of_true rfl fun width => by cases width

end Validity

/-! ## Outputs of one observation -/

theorem propagateQuality_singleton (e : Evidence) : propagateQuality [e] = e := by
  rcases e with ⟨quality, _ | _ | _⟩
  · rfl
  · rfl
  · rfl

/-- The arguments `normalize` gives `buildOutput`. -/
def normalArgs (raw : Observation) (d : MetricDefinition) (context : EvaluationContext)
    (value : Option Rational) (quality : Option Quality) : OutputArgs :=
  { anchor := raw, definition := d, inputs := [raw], value, context
    window := ⟨raw.observedAt.toDateText, raw.observedAt.toDateText⟩
    quality, derived := false, source := none, versions := none }

/-- The output of one observation, with what is settled about it. -/
def normalOutput (digest : IdentityPreimage → String) (raw : Observation) (d : MetricDefinition)
    (settled : Evidence) (value : Option MetricValue) : Observation :=
  Observation.identified digest
    { raw with
      id := "pending"
      resourceType := d.resourceType
      metric := d.ref
      observedAt := .ofMs raw.observedAt.ms
      collectedAt := .ofMs raw.collectedAt.ms
      storedAt := none
      quality := settled.quality
      accuracy := settled.accuracy
      counter := if d.kind = .counter then raw.counter else none
      unit := d.unit
      value
      origin := .normalized [raw.ref] }

section Output

variable {digest : IdentityPreimage → String} {raw : Observation} {d : MetricDefinition}
  {context : EvaluationContext} {encoded : Encoded} {settled : Evidence}
  {value : Option MetricValue}

theorem normalArgs_observation (given : Option Rational) (quality : Option Quality) :
    (normalArgs raw d context given quality).observation digest encoded =
      normalOutput digest raw d (outputEvidence quality raw.evidence encoded)
        (outputValue (outputEvidence quality raw.evidence encoded).quality encoded) := by
  have alone : propagateQuality ([raw].map Observation.evidence) = raw.evidence :=
    propagateQuality_singleton _
  have named : ([raw].map Observation.ref).eraseDups = [raw.ref] := rfl
  unfold OutputArgs.observation normalArgs normalOutput OutputArgs.times
  simp only [alone, List.cons_ne_nil, if_false, named]
  rfl

/-- The rules that read what is settled about an output. -/
structure EvidenceSettled (d : MetricDefinition) (settled : Evidence) (value : Option MetricValue) : Prop where
  reason : settled.quality.status = .good ↔ settled.quality.reason = .none
  withheld : settled.quality.status.withholds ↔ value = none
  legacy : settled.quality.reason = .legacyUnknown →
    settled.quality.status = .unknown ∧ settled.accuracy = .unknown
  loss : settled.quality.reason = .precisionLoss → settled.accuracy ≠ .exact
  present : ∀ present ∈ value, ∃ scalar, present = .scalar scalar ∧
    validateValue (.scalar scalar) = .ok () ∧ MetricValue.encoding (.scalar scalar) = d.valueType ∧
    (d.monotonic = true → scalar.nonnegative)

/-- A raw and a normalized observation are not told by one digest. -/
def StagesApart (digest : IdentityPreimage → String) : Prop :=
  ∀ p q name refs, p.content = .rawField name → q.content = .lineage refs → digest p ≠ digest q

theorem ofMs_ms (ms : Int) : (Timestamp.ofMs ms).ms = ms := rfl

theorem normalOutput_observedAt :
    (normalOutput digest raw d settled value).observedAt = .ofMs raw.observedAt.ms := rfl

theorem normalOutput_collectedAt :
    (normalOutput digest raw d settled value).collectedAt = .ofMs raw.collectedAt.ms := rfl

theorem normalOutput_storedAt : (normalOutput digest raw d settled value).storedAt = none := rfl

theorem identified_id (o : Observation) :
    (o.identified digest).id = observationIdentity digest (o.identified digest) := rfl

theorem normalOutput_valid_iff (apart : StagesApart digest) (valid : ValidObservation digest raw d)
    {name : String} (stage : raw.origin = .raw name) (scalar : d.valueType.isScalar = true)
    (rules : EvidenceSettled d settled value) :
    validateObservation digest (normalOutput digest raw d settled value) d = .ok () ↔
      (d.kind = .counter → (normalOutput digest raw d settled value).Narrow) := by
  obtain ⟨-, kinds, -⟩ := scalar_definition valid.definition scalar
  rw [validateObservation_iff]
  constructor
  · intro output counter
    exact (validateCounter_iff.mp (output.counter (.inl counter))).2.2.2
  · intro narrow
    exact
      { definition := valid.definition
        identity := ⟨rfl, rfl⟩
        contract := valid.contract
        dimensions := valid.dimensions
        time := by
          rw [normalOutput_observedAt, normalOutput_collectedAt, normalOutput_storedAt]
          simp only [ofMs_ms]
          exact ⟨valid.time.1, nofun⟩
        reason := rules.reason
        withheld := rules.withheld
        legacy := rules.legacy
        loss := rules.loss
        unit := fun _ => rfl
        present := fun present stored => by
          obtain ⟨scalar, rfl, inRange, encoding, positive⟩ := rules.present present stored
          unfold validatePresent
          rw [bind_eq_ok]
          refine ⟨(), inRange, ?_⟩
          rw [requireRule_bind, requireRule_ok]
          exact ⟨fun _ => encoding, positive⟩
        counter := fun accumulates => by
          have counter := kinds.resolve_right (not_not.mpr accumulates)
          obtain ⟨evidence, starts, changes, -⟩ := validateCounter_iff.mp (valid.counter accumulates)
          have same : (normalOutput digest raw d settled value).counter = raw.counter := if_pos counter
          rw [validateCounter_iff]
          unfold Observation.startAt Observation.discontinuity at *
          rw [same, normalOutput_observedAt, ofMs_ms]
          exact ⟨evidence, starts, changes, narrow counter⟩
        lineage := by
          refine ⟨fun mem => ?_, List.nodup_singleton _⟩
          have same : observationIdentity digest _ = raw.id := List.mem_singleton.mp mem
          refine apart raw.preimage _ name _ ?_ rfl (valid.id.symm.trans same.symm)
          unfold Observation.preimage
          rw [stage]
        id := identified_id _ }

end Output

/-! ## What is settled -/

section Settle

variable {digest : IdentityPreimage → String} {raw : Observation} {d : MetricDefinition}
  {value : Option MetricValue} {product : Rational}

theorem outputEvidence_kept (valid : ValidObservation digest raw d) (stored : Option ScalarValue) :
    outputEvidence none raw.evidence ⟨stored, true⟩ = raw.evidence := by
  have certain :
      ¬ (raw.evidence.quality.reason = .precisionLoss ∧ raw.evidence.accuracy = .exact) :=
    fun rounded => valid.loss rounded.1 rounded.2
  unfold outputEvidence chooseQuality Encoded.degrade Encoded.blur Quality.blur
  simp only [not_true_eq_false, false_and, if_false, true_or, if_true]
  rw [if_neg certain]

theorem settled_kept (valid : ValidObservation digest raw d)
    (withheld : raw.quality.status.withholds ↔ value = none)
    (present : ∀ present ∈ value, ∃ scalar, present = .scalar scalar ∧
      validateValue (.scalar scalar) = .ok () ∧ MetricValue.encoding (.scalar scalar) = d.valueType ∧
      (d.monotonic = true → scalar.nonnegative)) : EvidenceSettled d raw.evidence value where
  reason := valid.reason
  withheld := withheld
  legacy := valid.legacy
  loss := valid.loss
  present := present

/-- What is flagged as a loss of precision. -/
structure Lossy (settled : Evidence) (status : QualityStatus) : Prop where
  quality : settled.quality = ⟨status, .precisionLoss⟩
  accuracy : settled.accuracy ≠ .exact

theorem blur_loss {status : QualityStatus} {accuracy : Accuracy} :
    (Quality.mk status .precisionLoss).blur accuracy ≠ .exact := by
  unfold Quality.blur
  cases accuracy with
  | exact => exact nofun
  | estimated | unknown => simp

theorem lossy_explicit (e : Evidence) :
    Lossy (outputEvidence (some ⟨.invalid, .precisionLoss⟩) e ⟨none, true⟩) .invalid := by
  have worst : e.quality.status.rank ≤ QualityStatus.invalid.rank := by
    cases e.quality.status <;> simp [QualityStatus.rank]
  have quality : (outputEvidence (some ⟨.invalid, .precisionLoss⟩) e ⟨none, true⟩).quality =
      ⟨.invalid, .precisionLoss⟩ :=
    (outputEvidence_quality_of_exact rfl).trans (if_pos worst)
  refine ⟨quality, ?_⟩
  change Quality.blur (outputEvidence _ e _).quality _ ≠ _
  rw [quality]
  exact blur_loss

theorem lossy_inexact {stored : Option ScalarValue} (e : Evidence)
    (low : e.quality.status.rank ≤
      (if stored = none then QualityStatus.invalid else QualityStatus.partly).rank) :
    Lossy (outputEvidence none e ⟨stored, false⟩)
      (if stored = none then .invalid else .partly) := by
  have quality : (outputEvidence none e ⟨stored, false⟩).quality =
      ⟨if stored = none then .invalid else .partly, .precisionLoss⟩ := by
    unfold outputEvidence Encoded.degrade
    exact if_pos ⟨Bool.false_ne_true, low⟩
  refine ⟨quality, ?_⟩
  change Quality.blur (outputEvidence none e _).quality _ ≠ _
  rw [quality]
  exact blur_loss

theorem Lossy.settled {settled : Evidence} {status : QualityStatus} (lossy : Lossy settled status)
    (bad : status ≠ .good) (withheld : status.withholds ↔ value = none)
    (present : ∀ present ∈ value, ∃ scalar, present = .scalar scalar ∧
      validateValue (.scalar scalar) = .ok () ∧ MetricValue.encoding (.scalar scalar) = d.valueType ∧
      (d.monotonic = true → scalar.nonnegative)) : EvidenceSettled d settled value where
  reason := by
    rw [lossy.quality]
    exact iff_of_false bad nofun
  withheld := by
    rw [lossy.quality]
    exact withheld
  legacy same := by
    rw [lossy.quality] at same
    cases same
  loss _ := lossy.accuracy
  present := present

theorem encodeInteger_cases (product : Rational) (lower upper : Int) (box : Int → ScalarValue)
    {type : ValueType} (typed : ∀ n, MetricValue.encoding (.scalar (box n)) = type)
    (decodes : ∀ n, lower ≤ n → (box n).decode = n)
    (inRange : ∀ n, lower ≤ n → n < upper → validateValue (.scalar (box n)) = .ok ()) :
    (∃ stored, encodeInteger product lower upper box = ⟨some stored, true⟩ ∧
      stored.decode = product ∧ validateValue (.scalar stored) = .ok () ∧
      MetricValue.encoding (.scalar stored) = type) ∨
    encodeInteger product lower upper box = ⟨none, false⟩ := by
  unfold encodeInteger
  split
  next => exact .inr rfl
  next inside =>
    push Not at inside
    refine .inl ⟨_, rfl, ?_, inRange _ inside.2.1 inside.2.2, typed _⟩
    rw [decodes _ inside.2.1, Rat.coe_int_num_of_den_eq_one inside.1]

theorem encode_cases (product : Rational) {type : ValueType} (scalar : type.isScalar = true) :
    ∃ encoded, encode product type = .ok encoded ∧
      ((∃ stored, encoded = ⟨some stored, true⟩ ∧ stored.decode = product ∧
          validateValue (.scalar stored) = .ok () ∧ MetricValue.encoding (.scalar stored) = type) ∨
        encoded = ⟨none, false⟩ ∨
        type = .float64 ∧ ∃ double, encoded = ⟨some (.float64 double), false⟩) := by
  cases type with
  | int64 =>
    refine ⟨_, rfl, ?_⟩
    rcases encodeInteger_cases product (-2 ^ 63) (2 ^ 63) .int64 (fun _ => rfl) (fun _ _ => rfl)
      (fun n low high => if_pos ⟨low, high⟩) with exact_ | lost
    · exact .inl exact_
    · exact .inr (.inl lost)
  | uint64 =>
    refine ⟨_, rfl, ?_⟩
    have decodes (n : Int) (low : 0 ≤ n) : (ScalarValue.uint64 n.toNat).decode = n := by
      change ((n.toNat : Int) : Rational) = n
      rw [Int.toNat_of_nonneg low]
    rcases encodeInteger_cases product 0 (2 ^ 64) (fun n => .uint64 n.toNat) (fun _ => rfl) decodes
      (fun n low high => if_pos (by omega)) with exact_ | lost
    · exact .inl exact_
    · exact .inr (.inl lost)
  | float64 =>
    refine ⟨_, rfl, ?_⟩
    unfold encodeFloat
    split
    next finite =>
      by_cases same : numberValue ⟨nearest product, finite⟩ = product
      · exact .inl ⟨.float64 ⟨nearest product, finite⟩, by rw [decide_eq_true same], same, rfl, rfl⟩
      · exact .inr (.inr ⟨rfl, _, by rw [decide_eq_false same]⟩)
    next => exact .inr (.inl rfl)
  | histogram | summary => cases scalar

end Settle

/-! ## `normalize` -/

/-- Scalar or missing input `normalize` has to take. -/
structure Admitted (digest : IdentityPreimage → String) (raw : Observation) (d : MetricDefinition)
    (context : EvaluationContext) (factor : Rational) : Prop where
  scalarType : d.valueType.isScalar = true
  stage : raw.stage = .raw
  valid : validateObservation digest raw d = .ok ()
  scalar : ∀ value ∈ raw.value, ∃ scalar, value = .scalar scalar
  units : unitFactor raw.unit d.unit = .ok factor
  context : evaluateContext context = .ok ()

/-- A product that is flagged, not rounded: without a value, or with another double. -/
structure Flagged (d : MetricDefinition) (product : Rational) (o : Observation) : Prop where
  reason : o.quality.reason = .precisionLoss
  accuracy : o.accuracy ≠ .exact
  status : o.quality.status ≠ .good
  integer : d.valueType ≠ .float64 → o.value = none ∧ o.quality.status = .invalid
  double : d.valueType = .float64 → o.value = (encodeFloat product).value.map .scalar

/-- What an output says of a raw observation: its value times the factor, or that precision was lost. -/
def Faithful (raw : Observation) (d : MetricDefinition) (factor : Rational) (o : Observation) : Prop :=
  match raw.value with
  | none => o.value = none ∧ o.evidence = raw.evidence
  | some (.scalar value) =>
    (∃ stored, o.value = some (.scalar stored) ∧ stored.decode = value.decode * factor ∧
      o.evidence = raw.evidence) ∨ Flagged d (value.decode * factor) o
  | some _ => False

/-- The integers above those of a type. -/
def ValueType.limit : ValueType → Rational
  | .int64 => 2 ^ 63
  | _ => 2 ^ 64

/-- A conversion takes a 32-bit counter to an integer of the type that has more bits. -/
def Widens (raw : Observation) (d : MetricDefinition) (factor : Rational) : Prop :=
  d.kind = .counter ∧ raw.bits = some .bits32 ∧ ∃ n, raw.count = some n ∧
    ((n : Rational) * factor).den = 1 ∧ 2 ^ 32 ≤ (n : Rational) * factor ∧
    (n : Rational) * factor < d.valueType.limit

section Normalize

variable {digest : IdentityPreimage → String} {raw : Observation} {d : MetricDefinition}
  {context : EvaluationContext} {factor : Rational} {scalar : ScalarValue}

theorem unitFactor_pos {source target : MetricUnit} (ok : unitFactor source target = .ok factor) :
    0 < factor := by
  unfold unitFactor at ok
  split at ok
  · obtain rfl := Except.ok.inj ok
    norm_num
  · split at ok
    all_goals first
      | cases ok; done
      | obtain rfl := Except.ok.inj ok; norm_num

theorem buildOutput_iff {args : OutputArgs} {encoded : Encoded} {P : Observation → Prop}
    (context : evaluateContext args.context = .ok ())
    (encodes : encodeValue args.value args.definition.valueType = .ok encoded) :
    (∃ result, buildOutput digest args = .ok result ∧ P result.observation) ↔
      validateObservation digest (args.observation digest encoded) args.definition = .ok () ∧
        P (args.observation digest encoded) := by
  constructor
  · rintro ⟨result, ok, holds⟩
    obtain ⟨encoded', encodes', valid, rfl⟩ := buildOutput_spec ok
    obtain rfl := Except.ok.inj (encodes.symm.trans encodes')
    exact ⟨valid, holds⟩
  · rintro ⟨valid, holds⟩
    refine ⟨_, bind_eq_ok.mpr ⟨(), context, bind_eq_ok.mpr ⟨encoded, encodes,
      bind_eq_ok.mpr ⟨(), valid, rfl⟩⟩⟩, holds⟩

theorem normalize_of_none (admitted : Admitted digest raw d context factor)
    (missing : raw.value = none) :
    @normalize digest raw d context = buildOutput digest (normalArgs raw d context none none) := by
  unfold normalize
  rw [admitted.valid, admitted.units, missing]
  cases d.kind <;> rfl

theorem normalize_of_double (admitted : Admitted digest raw d context factor)
    (counter : d.kind = .counter) {double : FiniteNumber}
    (given : raw.value = some (.scalar (.float64 double))) :
    @normalize digest raw d context = buildOutput digest
      (normalArgs raw d context none (some ⟨.invalid, .precisionLoss⟩)) := by
  unfold normalize
  rw [admitted.valid, admitted.units, given, counter]
  rfl

theorem normalize_of_scalar (admitted : Admitted digest raw d context factor)
    (given : raw.value = some (.scalar scalar))
    (counts : d.kind = .counter → ∀ double, scalar ≠ .float64 double) :
    @normalize digest raw d context = buildOutput digest
      (normalArgs raw d context (some (scalar.decode * factor)) none) := by
  unfold normalize
  rw [admitted.valid, admitted.units, given]
  cases kind : d.kind with
  | gauge | histogram | summary => rfl
  | counter =>
    cases scalar with
    | float64 double => exact absurd rfl (counts kind double)
    | int64 | uint64 => rfl

theorem Admitted.of_value (admitted : Admitted digest raw d context factor)
    (given : raw.value = some (.scalar scalar)) :
    ¬ raw.evidence.quality.status.withholds ∧ (d.monotonic = true → scalar.nonnegative) := by
  have valid := validateObservation_iff.mp admitted.valid
  refine ⟨fun withheld => ?_, ?_⟩
  · have missing := valid.withheld.mp withheld
    rw [given] at missing
    cases missing
  · have present := valid.present _ given
    unfold validatePresent at present
    obtain ⟨_, -, present⟩ := bind_eq_ok.mp present
    rw [requireRule_bind, requireRule_ok] at present
    exact present.2

theorem nonnegative_iff (integer : ∀ double, scalar ≠ .float64 double) :
    scalar.nonnegative ↔ 0 ≤ scalar.decode := by
  cases scalar with
  | float64 double => exact absurd rfl (integer double)
  | int64 value =>
    change 0 ≤ value ↔ 0 ≤ (value : Rational)
    exact_mod_cast Iff.rfl
  | uint64 value =>
    refine iff_of_true trivial ?_
    change 0 ≤ ((value : Int) : Rational)
    positivity

theorem count_of_integer (given : raw.value = some (.scalar scalar))
    (integer : ∀ double, scalar ≠ .float64 double) :
    ∃ n, raw.count = some n ∧ scalar.decode = (n : Rational) := by
  unfold Observation.count
  rw [given]
  cases scalar with
  | float64 double => exact absurd rfl (integer double)
  | int64 value => exact ⟨value, rfl, rfl⟩
  | uint64 value => exact ⟨value, rfl, rfl⟩

theorem integer_of_encoding {type : ValueType} (typed : type = .int64 ∨ type = .uint64)
    (encoding : MetricValue.encoding (.scalar scalar) = type) (double : FiniteNumber) :
    scalar ≠ .float64 double := by
  rintro rfl
  rcases typed with rfl | rfl
  · cases encoding
  · cases encoding

theorem integer_of_valid (typed : d.valueType = .int64 ∨ d.valueType = .uint64)
    (encoding : MetricValue.encoding (.scalar scalar) = d.valueType)
    (valid : validateValue (.scalar scalar) = .ok ()) :
    scalar.decode.den = 1 ∧ scalar.decode < d.valueType.limit := by
  have integer := integer_of_encoding typed encoding
  rw [← encoding]
  cases scalar with
  | float64 double => exact absurd rfl (integer double)
  | int64 value =>
    have inRange := (requireRule_ok.mp valid).2
    refine ⟨rfl, ?_⟩
    change (value : Rational) < 2 ^ 63
    exact_mod_cast inRange
  | uint64 value =>
    have inRange := requireRule_ok.mp valid
    refine ⟨rfl, ?_⟩
    change ((value : Int) : Rational) < 2 ^ 64
    exact_mod_cast inRange

theorem outputValue_of_withheld {quality : Quality} {encoded : Encoded}
    (withheld : quality.status.withholds) : outputValue quality encoded = none := if_pos withheld

theorem outputValue_of_trusted {quality : Quality} {encoded : Encoded}
    (trusted : ¬ quality.status.withholds) :
    outputValue quality encoded = encoded.value.map .scalar := if_neg trusted

theorem narrow_of_none {o : Observation} (missing : o.value = none) : o.Narrow := by
  intro _ scalar present
  rw [missing] at present
  cases present

theorem not_widens_of_none (missing : raw.value = none) : ¬ Widens raw d factor := by
  rintro ⟨-, -, n, count, -⟩
  unfold Observation.count at count
  rw [missing] at count
  cases count

theorem normalize_none (apart : StagesApart digest)
    (admitted : Admitted digest raw d context factor) {name : String} (stage : raw.origin = .raw name)
    (missing : raw.value = none) :
    ∃ result, @normalize digest raw d context = .ok result ∧ Faithful raw d factor result.observation
    := by
  have valid := validateObservation_iff.mp admitted.valid
  have withheld : raw.evidence.quality.status.withholds := valid.withheld.mpr missing
  have settled : EvidenceSettled d raw.evidence none :=
    settled_kept valid (iff_of_true withheld rfl) fun _ absent => by cases absent
  rw [normalize_of_none admitted missing, buildOutput_iff admitted.context rfl,
    normalArgs_observation, outputEvidence_kept valid, outputValue_of_withheld withheld]
  refine ⟨(normalOutput_valid_iff apart valid stage admitted.scalarType settled).mpr
    fun _ => narrow_of_none rfl, ?_⟩
  unfold Faithful
  rw [missing]
  exact ⟨rfl, rfl⟩

theorem normalOutput_lost {settled : Evidence} (apart : StagesApart digest)
    (admitted : Admitted digest raw d context factor) {name : String} (stage : raw.origin = .raw name)
    (given : raw.value = some (.scalar scalar)) (lossy : Lossy settled .invalid)
    (nothing : d.valueType = .float64 → (encodeFloat (scalar.decode * factor)).value = none) :
    validateObservation digest (normalOutput digest raw d settled none) d = .ok () ∧
      Faithful raw d factor (normalOutput digest raw d settled none) := by
  have valid := validateObservation_iff.mp admitted.valid
  have rules : EvidenceSettled d settled none :=
    lossy.settled nofun (iff_of_true trivial rfl) fun _ absent => by cases absent
  have quality : (normalOutput digest raw d settled none).quality = ⟨.invalid, .precisionLoss⟩ :=
    lossy.quality
  refine ⟨(normalOutput_valid_iff apart valid stage admitted.scalarType rules).mpr
    fun _ => narrow_of_none rfl, ?_⟩
  unfold Faithful
  rw [given]
  refine .inr ⟨by rw [quality], lossy.accuracy, by rw [quality]; exact nofun,
    fun _ => ⟨rfl, by rw [quality]⟩, fun double => ?_⟩
  rw [nothing double]
  rfl

theorem normalOutput_exact_iff {stored : ScalarValue} (apart : StagesApart digest)
    (admitted : Admitted digest raw d context factor) {name : String} (stage : raw.origin = .raw name)
    (given : raw.value = some (.scalar scalar))
    (counts : d.kind = .counter → ∀ double, scalar ≠ .float64 double)
    (product : stored.decode = scalar.decode * factor)
    (inRange : validateValue (.scalar stored) = .ok ())
    (encoding : MetricValue.encoding (.scalar stored) = d.valueType) :
    validateObservation digest (normalOutput digest raw d raw.evidence (some (.scalar stored))) d =
        .ok () ∧
      Faithful raw d factor (normalOutput digest raw d raw.evidence (some (.scalar stored))) ↔
      ¬ Widens raw d factor := by
  have valid := validateObservation_iff.mp admitted.valid
  obtain ⟨monotonic, -, typed⟩ := scalar_definition valid.definition admitted.scalarType
  obtain ⟨trusted, positive⟩ := admitted.of_value given
  have settled : EvidenceSettled d raw.evidence (some (.scalar stored)) := by
    refine settled_kept valid (iff_of_false trusted nofun) fun present same => ?_
    obtain rfl := some.inj same
    refine ⟨stored, rfl, inRange, encoding, fun monotone => ?_⟩
    have counter := monotonic monotone
    have sign := (nonnegative_iff (counts counter)).mp (positive monotone)
    rw [nonnegative_iff (integer_of_encoding (typed counter) encoding), product]
    exact mul_nonneg sign (unitFactor_pos admitted.units).le
  have faithful :
      Faithful raw d factor (normalOutput digest raw d raw.evidence (some (.scalar stored))) := by
    unfold Faithful
    rw [given]
    exact .inl ⟨stored, rfl, product, rfl⟩
  rw [and_iff_left faithful, normalOutput_valid_iff apart valid stage admitted.scalarType settled]
  have bits (counter : d.kind = .counter) :
      (normalOutput digest raw d raw.evidence (some (.scalar stored))).bits = raw.bits :=
    congrArg (Option.map CounterEvidence.bits) (if_pos counter)
  constructor
  · rintro narrow ⟨counter, thin, n, count, -, wide, -⟩
    obtain ⟨n', count', decodes⟩ := count_of_integer given (counts counter)
    obtain rfl := some.inj (count.symm.trans count')
    have below := (narrow counter ((bits counter).trans thin) stored rfl).2
    rw [product, decodes] at below
    exact absurd below (not_lt.mpr wide)
  · intro fits counter thin other same
    obtain rfl := MetricValue.scalar.inj (some.inj same)
    obtain ⟨whole, limited⟩ := integer_of_valid (typed counter) encoding inRange
    refine ⟨whole, not_le.mp fun wide => fits ?_⟩
    obtain ⟨n, count, decodes⟩ := count_of_integer given (counts counter)
    rw [product, decodes] at whole wide limited
    exact ⟨counter, (bits counter).symm.trans thin, n, count, whole, wide, limited⟩

theorem Widens.exact {encoded : Encoded} (widens : Widens raw d factor)
    (given : raw.value = some (.scalar scalar)) (typed : d.valueType = .int64 ∨ d.valueType = .uint64)
    (counts : ∀ double, scalar ≠ .float64 double)
    (encodes : encode (scalar.decode * factor) d.valueType = .ok encoded) : encoded.value ≠ none := by
  obtain ⟨-, -, n, count, whole, wide, below⟩ := widens
  obtain ⟨n', count', decodes⟩ := count_of_integer given counts
  obtain rfl := some.inj (count.symm.trans count')
  rw [← decodes] at whole wide below
  have num : scalar.decode * factor = ((scalar.decode * factor).num : Rational) :=
    (Rat.coe_int_num_of_den_eq_one whole).symm
  have large : 2 ^ 32 ≤ (scalar.decode * factor).num := by
    rw [num] at wide
    exact_mod_cast wide
  have inside {lower upper : Int} {box : Int → ScalarValue} (low : lower ≤ 2 ^ 32)
      (high : scalar.decode * factor < upper) :
      (encodeInteger (scalar.decode * factor) lower upper box).value ≠ none := by
    have high' : (scalar.decode * factor).num < upper := by
      rw [num] at high
      exact_mod_cast high
    unfold encodeInteger
    rw [if_neg (by omega)]
    exact nofun
  rcases typed with typed | typed
  · rw [typed] at encodes below
    obtain rfl := Except.ok.inj encodes
    exact inside (by norm_num) (by exact_mod_cast below)
  · rw [typed] at encodes below
    obtain rfl := Except.ok.inj encodes
    exact inside (by norm_num) (by exact_mod_cast below)

theorem normalize_scalar_iff (apart : StagesApart digest)
    (admitted : Admitted digest raw d context factor) {name : String} (stage : raw.origin = .raw name)
    (given : raw.value = some (.scalar scalar))
    (counts : d.kind = .counter → ∀ double, scalar ≠ .float64 double) :
    (∃ result, @normalize digest raw d context = .ok result ∧ Faithful raw d factor result.observation)
      ↔ ¬ Widens raw d factor := by
  have valid := validateObservation_iff.mp admitted.valid
  obtain ⟨-, -, typed⟩ := scalar_definition valid.definition admitted.scalarType
  obtain ⟨trusted, -⟩ := admitted.of_value given
  obtain ⟨encoded, encodes, made⟩ :=
    encode_cases (scalar.decode * factor) admitted.scalarType
  have entered : encodeValue (normalArgs raw d context (some (scalar.decode * factor)) none).value
      (normalArgs raw d context (some (scalar.decode * factor)) none).definition.valueType =
      .ok encoded := encodes
  rw [normalize_of_scalar admitted given counts, buildOutput_iff admitted.context entered,
    normalArgs_observation]
  rcases made with ⟨stored, rfl, product, inRange, encoding⟩ | rfl | ⟨float, double, rfl⟩
  · rw [outputEvidence_kept valid, outputValue_of_trusted trusted]
    exact normalOutput_exact_iff apart admitted stage given counts product inRange encoding
  · have worst : raw.evidence.quality.status.rank ≤ QualityStatus.invalid.rank := by
      cases raw.evidence.quality.status <;> simp [QualityStatus.rank]
    have lossy : Lossy (outputEvidence none raw.evidence ⟨none, false⟩) .invalid :=
      lossy_inexact raw.evidence worst
    have withheld : (outputEvidence none raw.evidence ⟨none, false⟩).quality.status.withholds := by
      rw [lossy.quality]
      trivial
    rw [outputValue_of_withheld withheld]
    refine iff_of_true (normalOutput_lost apart admitted stage given lossy fun float => ?_)
      fun widens => widens.exact given (typed widens.1) (counts widens.1) encodes rfl
    rw [float] at encodes
    exact congrArg Encoded.value (Except.ok.inj encodes)
  · have gauge : d.kind ≠ .counter := fun counter => by
      rcases typed counter with other | other
      · rw [float] at other
        cases other
      · rw [float] at other
        cases other
    have low : raw.evidence.quality.status.rank ≤ QualityStatus.partly.rank := by
      rw [QualityStatus.withholds_iff] at trusted
      exact Nat.le_of_lt_succ (not_le.mp trusted)
    have lossy : Lossy (outputEvidence none raw.evidence ⟨some (.float64 double), false⟩) .partly :=
      lossy_inexact raw.evidence low
    have kept : ¬ (outputEvidence none raw.evidence
        ⟨some (.float64 double), false⟩).quality.status.withholds := by
      rw [lossy.quality]
      exact id
    rw [outputValue_of_trusted kept]
    refine iff_of_true ⟨(normalOutput_valid_iff apart valid stage admitted.scalarType ?_).mpr
      fun counter => absurd counter gauge, ?_⟩ fun widens => gauge widens.1
    · refine lossy.settled (by simp) (iff_of_false id (by simp)) fun present same => ?_
      obtain rfl := some.inj same
      exact ⟨_, rfl, rfl, float.symm, fun monotone => absurd
        ((scalar_definition valid.definition admitted.scalarType).1 monotone) gauge⟩
    · rw [float] at encodes
      have rounded : encodeFloat (scalar.decode * factor) = ⟨some (.float64 double), false⟩ :=
        Except.ok.inj encodes
      unfold Faithful
      rw [given]
      refine .inr ⟨congrArg Quality.reason lossy.quality, lossy.accuracy, ?_,
        fun other => absurd float other, fun _ => ?_⟩
      · change (outputEvidence none raw.evidence _).quality.status ≠ .good
        rw [lossy.quality]
        decide
      · rw [rounded]
        rfl

end Normalize

/-- **`normalize` takes what it admits, but for one width.**  A valid scalar or missing observation
whose unit converts to that of its definition is normalized, to the exact product with its own quality
or to a flagged loss of precision, unless the conversion takes a 32-bit counter past 32 bits. -/
theorem normalize_total_iff (digest : IdentityPreimage → String) (apart : StagesApart digest)
    (raw : Observation) (d : MetricDefinition) (context : EvaluationContext) (factor : Rational)
    (admitted : Admitted digest raw d context factor) :
    (∃ result, @normalize digest raw d context = .ok result ∧ Faithful raw d factor result.observation)
      ↔ ¬ Widens raw d factor := by
  obtain ⟨name, stage⟩ : ∃ name, raw.origin = .raw name := by
    have raws := admitted.stage
    unfold Observation.stage at raws
    split at raws
    next name origin => exact ⟨name, origin⟩
    next => cases raws
  cases given : raw.value with
  | none =>
    exact iff_of_true (normalize_none apart admitted stage given) (not_widens_of_none given)
  | some value =>
    obtain ⟨scalar, rfl⟩ := admitted.scalar value given
    by_cases rounded : d.kind = .counter ∧ ∃ double, scalar = .float64 double
    · obtain ⟨counter, double, rfl⟩ := rounded
      have lossy := lossy_explicit raw.evidence
      have withheld : (outputEvidence (some ⟨.invalid, .precisionLoss⟩) raw.evidence
          ⟨none, true⟩).quality.status.withholds := by
        rw [lossy.quality]
        trivial
      refine iff_of_true ?_ ?_
      · rw [normalize_of_double admitted counter given, buildOutput_iff admitted.context rfl,
          normalArgs_observation, outputValue_of_withheld withheld]
        refine normalOutput_lost apart admitted stage given lossy fun float => ?_
        rcases (scalar_definition (validateObservation_iff.mp admitted.valid).definition
          admitted.scalarType).2.2 counter with other | other
        · rw [float] at other
          cases other
        · rw [float] at other
          cases other
      · rintro ⟨-, -, n, count, -⟩
        unfold Observation.count at count
        rw [given] at count
        cases count
    · exact normalize_scalar_iff apart admitted stage given fun counter double same =>
        rounded ⟨counter, double, same⟩

/-! ## A counter of uptime -/

private def uptime : MetricDefinition where
  id := "host.uptime"
  semanticVersion := ⟨1, 0, 0⟩
  meaning := "time since boot"
  unit := .milliseconds
  resourceType := .server
  scope := .resource
  kind := .counter
  temporality := .cumulative
  monotonic := true
  valueType := .uint64
  dimensions := ⟨[], 1, 64⟩
  aggregation := ⟨[.last], [.none], ⟨Binary64.ofInt 0, zero_inside⟩, .notApplicable⟩
  lifecycle := .active
  replacementId := none
  category := .canonical

private def stagedDigest (preimage : IdentityPreimage) : String :=
  match preimage.content with
  | .rawField _ => "sha256:raw"
  | .lineage _ => "sha256:normalized"

/-- An uptime a 32-bit counter of seconds shows. -/
private def upFor (seconds : Nat) : Observation where
  id := "sha256:raw"
  resourceType := .server
  resourceId := "5"
  metric := uptime.ref
  dimensions := ⟨[], List.nodup_nil⟩
  observedAt := .ofMs 10000
  collectedAt := .ofMs 10000
  storedAt := none
  quality := ⟨.good, .none⟩
  accuracy := .exact
  production := .measured
  source := ⟨"binding", "metric", "collector", "attempt"⟩
  versions := ⟨⟨1, 0, 0⟩, "snmp", ⟨1, 0, 0⟩, ⟨1, 0, 0⟩, 1⟩
  counter := some ⟨some (.ofMs 0), none, .bits32⟩
  unit := .seconds
  value := some (.scalar (.uint64 seconds))
  origin := .raw "hrSystemUptime"

private def uptimeContext : EvaluationContext := ⟨⟨"1970-01-01T00:01:00Z", some 60000⟩, 60000⟩

private theorem stagedDigest_apart : StagesApart stagedDigest := by
  intro p q name refs raw normalized
  unfold stagedDigest
  rw [raw, normalized]
  change "sha256:raw" ≠ "sha256:normalized"
  decide

private theorem upFor_admitted {seconds : Nat}
    (valid : validateObservation stagedDigest (upFor seconds) uptime = .ok ()) :
    Admitted stagedDigest (upFor seconds) uptime uptimeContext 1000 where
  scalarType := rfl
  stage := rfl
  valid := valid
  scalar value given := ⟨.uint64 seconds, (some.inj given).symm⟩
  units := rfl
  context := by rfl

/-- Ten days and four seconds have room in 32 bits of milliseconds. -/
theorem normalize_total_iff_uptime : ∃ result,
    @normalize stagedDigest (upFor 864004) uptime uptimeContext = .ok result ∧
      Faithful (upFor 864004) uptime 1000 result.observation := by
  refine (normalize_total_iff stagedDigest stagedDigest_apart (upFor 864004) uptime uptimeContext 1000
    (upFor_admitted (by rfl))).mpr ?_
  rintro ⟨-, -, n, count, -, wide, -⟩
  obtain rfl := some.inj count
  exact absurd wide (by decide +kernel)

/-- After fifty days the milliseconds of a 32-bit counter of seconds have more than 32 bits. -/
theorem normalize_width : ∃ (digest : IdentityPreimage → String) (raw : Observation)
    (d : MetricDefinition) (context : EvaluationContext) (factor : Rational), StagesApart digest ∧
      Admitted digest raw d context factor ∧
      ∀ result, @normalize digest raw d context ≠ .ok result := by
  refine ⟨stagedDigest, upFor 4294968, uptime, uptimeContext, 1000, stagedDigest_apart,
    upFor_admitted (by rfl), fun result ok => ?_⟩
  have thrown :
      @normalize stagedDigest (upFor 4294968) uptime uptimeContext = .error "COUNTER_WIDTH" := by
    decide +kernel
  rw [thrown] at ok
  cases ok

end Slide.Metrics
