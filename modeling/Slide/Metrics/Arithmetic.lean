import Mathlib.Data.Rat.Floor
import Slide.Metrics.Observations

/-!
# Exact arithmetic on metric values

`metrics/arithmetic.ts`.  The source keeps a `Rational` as a reduced numerator over a positive
denominator, which is what ℚ does: `pairs_compute_rationals` says that its operations on such pairs are
those of ℚ, which the rest of the model uses; a caller of `divide` has excluded a zero divisor.
-/

namespace Slide.Metrics

abbrev Rational := ℚ

/-- The loop `while (b) [a, b] = [b, a % b]`. -/
def euclid (a b : Nat) : Nat :=
  if b = 0 then a else euclid b (a % b)
termination_by b
decreasing_by exact Nat.mod_lt a (by omega)

/-- The body of `rational` on a nonzero denominator. -/
def reduce (numerator denominator : Int) : Int × Int :=
  let (numerator, denominator) :=
    if denominator < 0 then (-numerator, -denominator) else (numerator, denominator)
  let a : Int := euclid numerator.natAbs denominator.natAbs
  (numerator / a, denominator / a)

theorem euclid_eq_gcd (a b : Nat) : euclid a b = Nat.gcd a b := by
  induction a, b using euclid.induct with
  | case1 a => simp [euclid]
  | case2 a b positive ih =>
    rw [euclid, if_neg positive, ih, Nat.gcd_comm b, ← Nat.gcd_rec, Nat.gcd_comm]

theorem reduce_eq (numerator : Int) {denominator : Int} (nonzero : denominator ≠ 0) :
    reduce numerator denominator =
      (((numerator : ℚ) / denominator).num, (((numerator : ℚ) / denominator).den : Int)) := by
  rw [← Rat.divInt_eq_div, Rat.num_divInt, Rat.den_divInt, if_neg nonzero]
  have common : denominator.gcd numerator = Nat.gcd numerator.natAbs denominator.natAbs :=
    Nat.gcd_comm ..
  unfold reduce
  rcases lt_or_gt_of_ne nonzero with negative | positive
  · have size : (denominator.natAbs : Int) = -denominator := by omega
    simp only [if_pos negative, euclid_eq_gcd, Int.natAbs_neg, common,
      Int.sign_eq_neg_one_of_neg negative, Int.natCast_ediv, size, neg_one_mul]
  · have size : (denominator.natAbs : Int) = denominator := by omega
    simp only [if_neg (not_lt_of_gt positive), euclid_eq_gcd, common,
      Int.sign_eq_one_of_pos positive, Int.natCast_ediv, size, one_mul]

/-! ## The operations of the source on pairs -/

namespace Pair

def rational (numerator denominator : Int) : Except String (Int × Int) :=
  if denominator = 0 then .error "ZERO_DENOMINATOR" else .ok (reduce numerator denominator)

variable (a b : Int × Int)

def add := rational (a.1 * b.2 + b.1 * a.2) (a.2 * b.2)

def subtract := add a (-b.1, b.2)

def multiply := rational (a.1 * b.1) (a.2 * b.2)

def divide := rational (a.1 * b.2) (a.2 * b.1)

def compare : Int :=
  let difference := a.1 * b.2 - b.1 * a.2
  if difference < 0 then -1 else if 0 < difference then 1 else 0

/-- The pair the source keeps for a number. -/
def ofRat (q : ℚ) : Int × Int := (q.num, q.den)

theorem rational_eq {n d : Int} {q : ℚ} (nonzero : d ≠ 0) (value : (n : ℚ) = q * d) :
    rational n d = .ok (ofRat q) := by
  rw [rational, if_neg nonzero, reduce_eq n nonzero, value,
    mul_div_cancel_right₀ q (Int.cast_ne_zero.mpr nonzero), ofRat]

/-- On the pairs of rational numbers the operations yield the pair of the result; only a division by zero
throws. -/
theorem pairs_compute_rationals (p q : ℚ) :
    add (ofRat p) (ofRat q) = .ok (ofRat (p + q)) ∧ subtract (ofRat p) (ofRat q) = .ok (ofRat (p - q)) ∧
    multiply (ofRat p) (ofRat q) = .ok (ofRat (p * q)) ∧
    divide (ofRat p) (ofRat q) = (if q = 0 then .error "ZERO_DENOMINATOR" else .ok (ofRat (p / q))) ∧
    compare (ofRat p) (ofRat q) = if p < q then -1 else if q < p then 1 else 0 := by
  have both : (p.den : Int) * q.den ≠ 0 := by positivity
  have np := p.mul_den_eq_num
  have nq := q.mul_den_eq_num
  refine ⟨rational_eq both ?_, rational_eq both ?_, rational_eq both ?_, ?_, ?_⟩
  iterate 3
    push_cast [ofRat, ← np, ← nq]
    ring
  · split
    next zero => simp [divide, rational, ofRat, zero]
    next nonzero =>
      refine rational_eq (by simp [ofRat, nonzero]) ?_
      push_cast [ofRat, ← np, ← nq]
      field_simp
  · simp only [compare, ofRat, Rat.lt_iff, sub_neg, sub_pos]

end Pair

/-- `numberValue`: the exact value of the stored bits. -/
def numberValue (value : FiniteNumber) : Rational :=
  let (sign, exponent, stored) := Binary64.fields value.val
  let mantissa : Int := stored + if exponent = 0 then 0 else 2 ^ 52
  let shift : Int := max exponent 1 - 1023 - 52
  let signed := if sign = 0 then mantissa else -mantissa
  if 0 ≤ shift then (signed * 2 ^ shift.toNat : Int) else signed / (2 ^ (-shift).toNat : Nat)

def ScalarValue.decode : ScalarValue → Rational
  | .float64 value => numberValue value
  | .int64 value => value
  | .uint64 value => (value : Int)

def MetricValue.decode : MetricValue → Except String Rational
  | .scalar value => .ok value.decode
  | .histogram _ | .summary _ => .error "SCALAR_REQUIRED"

def unitFactor (source target : MetricUnit) : Except String Rational :=
  if source = target then .ok 1
  else match source, target with
    | .seconds, .milliseconds => .ok 1000
    | .milliseconds, .seconds => .ok (1 / 1000)
    | .bytesPerSecond, .bitsPerSecond => .ok 8
    | .bitsPerSecond, .bytesPerSecond => .ok (1 / 8)
    | .one, .percent => .ok 100
    | .percent, .one => .ok (1 / 100)
    | _, _ => .error "UNIT_CONVERSION"

/-- The result of `encode`: no value when it is out of range, and whether it is the exact one. -/
structure Encoded where
  value : Option ScalarValue
  exact : Bool

/-- `n.toString(2).length`. -/
def bitLength (n : Nat) : Nat := if n = 0 then 1 else n.log2 + 1

/-- The double `encode` computes: both integers scaled to 54 bits, divided and scaled back. -/
def nearest (value : Rational) : Float :=
  let nShift := bitLength value.num.natAbs - 54
  let dShift := bitLength value.den - 54
  Binary64.ofInt (value.num.tdiv (2 ^ nShift)) / Binary64.ofInt (value.den >>> dShift : Nat) *
    Binary64.pow2 (nShift - dShift)

/-- The `float64` branch of `encode`. -/
def encodeFloat (value : Rational) : Encoded :=
  if finite : (nearest value).isFinite = true then
    ⟨some (.float64 ⟨nearest value, finite⟩), numberValue ⟨nearest value, finite⟩ = value⟩
  else ⟨none, false⟩

/-- The integer branch of `encode`, for the values from `lower` to below `upper`. -/
def encodeInteger (value : Rational) (lower upper : Int) (box : Int → ScalarValue) : Encoded :=
  if value.den ≠ 1 ∨ value.num < lower ∨ upper ≤ value.num then ⟨none, false⟩
  else ⟨some (box value.num), true⟩

def encode (value : Rational) : ValueType → Except String Encoded
  | .int64 => .ok (encodeInteger value (-2 ^ 63) (2 ^ 63) .int64)
  | .uint64 => .ok (encodeInteger value 0 (2 ^ 64) fun n => .uint64 n.toNat)
  | .float64 => .ok (encodeFloat value)
  | .histogram | .summary => .error "SCALAR_REQUIRED"

theorem encodeInteger_some {value : Rational} {lower upper : Int} {box : Int → ScalarValue}
    {scalar : ScalarValue} (found : (encodeInteger value lower upper box).value = some scalar) :
    (encodeInteger value lower upper box).exact = true ∧ value = value.num ∧ lower ≤ value.num ∧
      scalar = box value.num := by
  unfold encodeInteger at found ⊢
  split at found
  next => cases found
  next inside =>
    rw [if_neg inside]
    push Not at inside
    exact ⟨rfl, (Rat.coe_int_num_of_den_eq_one inside.1).symm, inside.2.1,
      (some.inj found).symm⟩

theorem decode_of_encode_integer {value : Rational} {type : ValueType} {encoded : Encoded}
    {scalar : ScalarValue} (integer : type = .int64 ∨ type = .uint64)
    (encodes : encode value type = .ok encoded) (found : encoded.value = some scalar) :
    encoded.exact = true ∧ scalar.decode = value := by
  rcases integer with rfl | rfl
  · obtain rfl := Except.ok.inj encodes
    obtain ⟨exact_, whole, -, rfl⟩ := encodeInteger_some found
    exact ⟨exact_, whole.symm⟩
  · obtain rfl := Except.ok.inj encodes
    obtain ⟨exact_, whole, natural, rfl⟩ := encodeInteger_some found
    refine ⟨exact_, ?_⟩
    have same : ((value.num.toNat : Int) : Rational) = value.num := by
      rw [Int.toNat_of_nonneg natural]
    exact same.trans whole.symm

end Slide.Metrics
