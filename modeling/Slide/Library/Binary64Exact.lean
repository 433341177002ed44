import Mathlib.Data.Nat.Log
import Mathlib.Tactic.NormNum
import Mathlib.Tactic.Ring
import Slide.Library.Binary64

/-!
# Doubles without rounding

Operations on doubles whose exact result is a double.  A mantissa with trailing zeros is shifted
without loss, so rounding a number of at most 53 bits keeps it: an integer below `2 ^ 53` is
converted exactly, a division by `1` and a multiplication by `2 ^ 0` change nothing, and the fields of
the result are those of the integer.
-/

namespace Binary64

open Float.Model Float.Model.UnpackedFloat

theorem mantissaBits_double : Format.binary64.mantissaBits = 53 := rfl

/-! ## Rounding -/

/-- Zeros are shifted out without a trace. -/
theorem shiftRight_zeros (k s : Nat) :
    (⟨k * 2 ^ s, false, false⟩ : ExtendedMantissa) >>> s = ⟨k, false, false⟩ := by
  induction s generalizing k with
  | zero => simp [HShiftRight.hShiftRight, Nat.repeat]
  | succ s ih =>
    change ExtendedMantissa.shiftRightOne ((⟨k * 2 ^ (s + 1), false, false⟩ : ExtendedMantissa) >>> s)
      = _
    have even : k * 2 ^ (s + 1) = k * 2 * 2 ^ s := by ring
    rw [even, ih]
    simp [ExtendedMantissa.shiftRightOne]

variable {sign : Sign} {k j : Nat} {e : Int}

theorem pos_of_full (full : k.log2 = 52) : 0 < k := by
  rcases Nat.eq_zero_or_pos k with rfl | positive
  · cases full
  · exact positive

/-- A full mantissa stands at its own exponent. -/
theorem targetExponent_full (full : k.log2 = 52) (normal : -1074 ≤ e) :
    Format.binary64.targetExponent (totalExponent (k * 2 ^ j) (e - j)) = e := by
  have nonzero : k ≠ 0 := (pos_of_full full).ne'
  have size : (k * 2 ^ j).log2 = 52 + j := by
    rw [Nat.log2_eq_iff (Nat.mul_ne_zero nonzero (by simp))]
    obtain ⟨lower, upper⟩ := (Nat.log2_eq_iff nonzero).mp full
    constructor
    · rw [pow_add]
      exact Nat.mul_le_mul_right _ lower
    · rw [show 52 + j + 1 = 53 + j by omega, pow_add]
      exact Nat.mul_lt_mul_of_pos_right upper (by simp)
  simp only [Format.targetExponent, totalExponent, size, mantissaBits_double, Format.minExponent]
  norm_num
  omega

theorem shiftToTarget_full (full : k.log2 = 52) (normal : -1074 ≤ e) :
    shiftToTargetExponent .binary64 (k * 2 ^ j) (e - j) .exact = (⟨k, false, false⟩, e) := by
  unfold shiftToTargetExponent
  rw [targetExponent_full full normal]
  have amount : (e - (e - j)).toNat = j := by omega
  simp only [shiftToExponent, amount, ExtendedMantissa.ofMantissaAndAccuracy, shiftRight_zeros,
    sub_add_cancel]

variable (full : k.log2 = 52)

/-- A number of 53 bits is not rounded. -/
theorem roundWithAccuracy_full (normal : -1074 ≤ e) :
    roundWithAccuracy .binary64 sign (k * 2 ^ j) (e - j) .exact =
      UnpackedFloat.finite sign k e (pos_of_full full) := by
  have again : shiftToTargetExponent .binary64 k e .exact = (⟨k, false, false⟩, e) := by
    simpa using shiftToTarget_full (j := 0) full normal
  unfold roundWithAccuracy
  rw [shiftToTarget_full full normal]
  have kept : (⟨k, false, false⟩ : ExtendedMantissa).roundedMantissa = k := rfl
  dsimp only
  rw [kept, again]
  exact dif_neg (pos_of_full full).ne'

/-! ## Bits -/

/-- The biased exponent of a full mantissa. -/
theorem biased_lt (normal : -1074 ≤ e) (finite : e ≤ 971) :
    1 ≤ (e + 1075).toNat ∧ (e + 1075).toNat < 2047 := by
  omega

/-- The bits of a full mantissa. -/
theorem pack_full (finite : e ≤ 971) :
    UnpackedFloat.pack .binary64 (.finite sign k e (pos_of_full full)) =
      packComponents .binary64 sign (BitVec.ofNat 11 (e + 1075).toNat) (BitVec.ofNat 52 k) := by
  have biased : e + (Format.binary64.exponentBias : Int) + (52 : Nat) = e + 1075 := by
    change e + ((1023 : Nat) : Int) + (52 : Nat) = _
    omega
  unfold UnpackedFloat.pack
  simp only [biased]
  rw [if_neg (by omega), if_pos (by rw [full]; rfl)]

theorem unpackSign_packComponents {spec : Format} {exponent mantissa} :
    unpackSign (packComponents spec sign exponent mantissa) = sign.toBitVec := by
  ext i hi
  obtain rfl : i = 0 := by omega
  delta unpackSign
  simp [packComponents, BitVec.getLsbD_eq_getElem, BitVec.getLsbD_append, BitVec.getElem_append]

theorem ofBitVec_toBitVec : Sign.ofBitVec sign.toBitVec = sign := by
  cases sign <;> rfl

theorem unpack_full (normal : -1074 ≤ e) (finite : e ≤ 971) :
    (Float.Model.pack (.finite sign k e (pos_of_full full))).unpack =
      UnpackedFloat.finite sign k e (pos_of_full full) := by
  obtain ⟨lower, upper⟩ := (Nat.log2_eq_iff (pos_of_full full).ne').mp full
  obtain ⟨low, high⟩ := biased_lt normal finite
  have stored : (BitVec.ofNat 11 (e + 1075).toNat).toNat = (e + 1075).toNat :=
    Nat.mod_eq_of_lt (by omega)
  have usual : BitVec.ofNat 11 (e + 1075).toNat ≠ -1#11 := fun same => by
    have same := congrArg BitVec.toNat same
    rw [stored] at same
    change (e + 1075).toNat = 2047 at same
    omega
  have present : BitVec.ofNat 11 (e + 1075).toNat ≠ 0#11 := fun same => by
    have same := congrArg BitVec.toNat same
    rw [stored] at same
    change (e + 1075).toNat = 0 at same
    omega
  have mantissa : (1#1 ++ BitVec.ofNat 52 k).toNat = k := by
    rw [BitVec.toNat_append, BitVec.toNat_ofNat, BitVec.toNat_ofNat]
    rw [← Nat.shiftLeft_add_eq_or_of_lt (Nat.mod_lt _ (by simp)), Nat.shiftLeft_eq]
    omega
  unfold Float.Model.unpack Float.Model.pack
  dsimp only
  rw [pack_full full finite]
  unfold UnpackedFloat.unpack
  rw [if_neg (by rwa [unpackExponent_packComponents]), if_neg (by rwa [unpackExponent_packComponents])]
  rw [UnpackedFloat.finite.injEq, unpackMantissa_packComponents, unpackExponent_packComponents,
    unpackSign_packComponents, ofBitVec_toBitVec]
  refine ⟨rfl, mantissa, ?_⟩
  change ((BitVec.ofNat 11 (e + 1075).toNat).toNat : Int) - ((1023 : Nat) + (52 : Nat)) = e
  omega

/-- The fields of a double with a full mantissa. -/
theorem fields_full (normal : -1074 ≤ e) (finite : e ≤ 971) :
    fields (.ofModel (.pack (.finite .positive k e (pos_of_full full)))) =
      (0, (e + 1075).toNat, k - 2 ^ 52) := by
  obtain ⟨lower, upper⟩ := (Nat.log2_eq_iff (pos_of_full full).ne').mp full
  obtain ⟨low, high⟩ := biased_lt normal finite
  have bits : (Float.ofModel (.pack (.finite .positive k e (pos_of_full full)))).toBits.toNat =
      (e + 1075).toNat * 2 ^ 52 + (k - 2 ^ 52) := by
    have stored : (BitVec.ofNat 11 (e + 1075).toNat).toNat = (e + 1075).toNat :=
      Nat.mod_eq_of_lt (by omega)
    change (UnpackedFloat.pack .binary64 (.finite .positive k e (pos_of_full full))).toNat = _
    rw [pack_full full finite]
    change (Sign.positive.toBitVec ++ BitVec.ofNat 11 (e + 1075).toNat ++ BitVec.ofNat 52 k).toNat = _
    rw [BitVec.toNat_append, BitVec.toNat_append, stored, BitVec.toNat_ofNat,
      ← Nat.shiftLeft_add_eq_or_of_lt (Nat.mod_lt _ (by simp)), Nat.shiftLeft_eq]
    change (0 ||| (e + 1075).toNat) * 2 ^ 52 + k % 2 ^ 52 = _
    rw [Nat.zero_or]
    omega
  unfold fields
  rw [bits]
  refine Prod.ext ?_ (Prod.ext ?_ ?_)
  · dsimp only
    omega
  · dsimp only
    omega
  · dsimp only
    omega

/-- The double of a full mantissa. -/
def ofFull (e : Int) : Float :=
  .ofModel (.pack (.finite .positive k e (pos_of_full full)))

theorem isFinite_ofFull (normal : -1074 ≤ e) (finite : e ≤ 971) :
    (ofFull full e).isFinite = true := by
  change (Float.Model.pack _).unpack.isFinite = true
  rw [unpack_full full normal finite]
  rfl

/-! ## Integers -/

/-- `1` is the double of the mantissa `2 ^ 52`. -/
theorem ofInt_one : ofInt 1 = ofFull (k := 2 ^ 52) (by decide) (-52) := by
  decide +kernel

theorem pow2_zero : pow2 0 = ofFull (k := 2 ^ 52) (by decide) (-52) := by
  decide +kernel

/-- The quotient of a full mantissa by `1` is exact, one bit longer than it has to be. -/
theorem divCore_one (full : k.log2 = 52) (normal : -1073 ≤ e) :
    divCore .binary64 k e (2 ^ 52) (-52) = (k * 2 ^ 1, e - (1 : Nat), .exact) := by
  have target : min (e - -52) (Format.binary64.targetExponent
      (totalExponent k e - totalExponent (2 ^ 52) (-52))) = e - 1 := by
    simp only [Format.targetExponent, totalExponent, full, Nat.log2_two_pow, mantissaBits_double,
      Format.minExponent]
    norm_num
    omega
  have amount : (e - -52 - (e - 1)).toNat = 53 := by omega
  have scaled : k <<< 53 = k * 2 * 2 ^ 52 := by
    rw [Nat.shiftLeft_eq]
    ring
  unfold divCore
  simp only [target, amount, scaled, Nat.mul_mod_left, accuracyOfFraction, if_true]
  rw [Nat.mul_div_cancel _ (by simp)]
  rfl

/-- Dividing by `1` changes nothing. -/
theorem div_one (normal : -1073 ≤ e) (finite : e ≤ 971) :
    ofFull full e / ofInt 1 = ofFull full e := by
  rw [ofInt_one]
  change Float.ofModel (.pack (UnpackedFloat.div .binary64 (Float.Model.pack _).unpack
    (Float.Model.pack _).unpack)) = _
  rw [unpack_full full (by omega) finite, unpack_full (by decide) (by omega) (by omega)]
  unfold UnpackedFloat.div
  dsimp only
  rw [divCore_one full normal]
  dsimp only
  exact congrArg (fun x => Float.ofModel (.pack x)) (roundWithAccuracy_full full (by omega))

/-- Moved up to 53 bits, a smaller integer has a full mantissa. -/
theorem log2_scaled {n : Nat} (positive : 0 < n) (small : n < 2 ^ 53) :
    (n * 2 ^ (52 - n.log2)).log2 = 52 := by
  have size : n.log2 < 53 := (Nat.log2_lt positive.ne').mpr small
  obtain ⟨lower, upper⟩ := (Nat.log2_eq_iff positive.ne').mp rfl
  rw [Nat.log2_eq_iff (Nat.mul_ne_zero positive.ne' (by simp))]
  constructor
  · rw [show 2 ^ 52 = 2 ^ n.log2 * 2 ^ (52 - n.log2) by rw [← pow_add]; congr 1; omega]
    exact Nat.mul_le_mul_right _ lower
  · rw [show 2 ^ (52 + 1) = 2 ^ (n.log2 + 1) * 2 ^ (52 - n.log2) by
      rw [← pow_add]; congr 1; omega]
    exact Nat.mul_lt_mul_of_pos_right upper (by simp)

/-- An integer below `2 ^ 53` is converted without rounding. -/
theorem ofInt_nat {n : Nat} (positive : 0 < n) (small : n < 2 ^ 53) :
    ofInt n = ofFull (log2_scaled positive small) ((n.log2 : Int) - 52) := by
  have size : n.log2 < 53 := (Nat.log2_lt positive.ne').mpr small
  have target : Format.binary64.targetExponent (totalExponent n 0) = (n.log2 : Int) - 52 := by
    simp only [Format.targetExponent, totalExponent, mantissaBits_double, Format.minExponent]
    norm_num
    omega
  have amount : ((0 : Int) - ((n.log2 : Int) - 52)).toNat = 52 - n.log2 := by omega
  have exponent : (0 : Int) - ((52 - n.log2 : Nat) : Int) = (n.log2 : Int) - 52 := by omega
  have rounded : UnpackedFloat.round .binary64 .positive n 0 = .finite .positive
      (n * 2 ^ (52 - n.log2)) ((n.log2 : Int) - 52) (pos_of_full (log2_scaled positive small)) := by
    unfold UnpackedFloat.round decreaseExponent
    rw [target]
    dsimp only
    rw [amount, exponent, Nat.shiftLeft_eq]
    have whole := @roundWithAccuracy_full .positive _ 0 _ (log2_scaled positive small)
      (show -1074 ≤ (n.log2 : Int) - 52 by omega)
    rwa [pow_zero, mul_one, Nat.cast_zero, sub_zero] at whole
  unfold ofInt Float.Model.ofInt UnpackedFloat.ofInt UnpackedFloat.normalize
  rw [Int.compare_eq_gt.mpr (by omega)]
  exact congrArg (fun x => Float.ofModel (.pack x)) rounded

/-- Multiplying with `2 ^ 0` changes nothing. -/
theorem mul_pow2_zero (normal : -1074 ≤ e) (finite : e ≤ 971) :
    ofFull full e * pow2 0 = ofFull full e := by
  rw [pow2_zero]
  change Float.ofModel (.pack (UnpackedFloat.mul .binary64 (Float.Model.pack _).unpack
    (Float.Model.pack _).unpack)) = _
  rw [unpack_full full normal finite, unpack_full (by decide) (by omega) (by omega)]
  exact congrArg (fun x => Float.ofModel (.pack x)) (roundWithAccuracy_full (j := 52) full normal)

end Binary64
