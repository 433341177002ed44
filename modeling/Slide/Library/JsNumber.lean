import Mathlib.Data.Rat.Floor

/-!
# JavaScript numbers

NaN, the infinities and the finite numbers, with the comparisons of JavaScript: every comparison
with NaN is false.  Finite sums are exact.  A double rounds a sum that needs more than 53 bits; the
sums of safe integers that are safe integers are exact in both.
-/

inductive JsNumber
  | nan
  | infinite (negative : Bool)
  | finite (value : ℚ)
deriving DecidableEq

namespace JsNumber

def ofInt (n : ℤ) : JsNumber := .finite n

instance : Zero JsNumber := ⟨.finite 0⟩

def add : JsNumber → JsNumber → JsNumber
  | .nan, _ | _, .nan => .nan
  | .infinite a, .infinite b => if a = b then .infinite a else .nan
  | .infinite a, .finite _ | .finite _, .infinite a => .infinite a
  | .finite x, .finite y => .finite (x + y)

instance : Add JsNumber := ⟨add⟩

def neg : JsNumber → JsNumber
  | .nan => .nan
  | .infinite a => .infinite (!a)
  | .finite x => .finite (-x)

instance : Neg JsNumber := ⟨neg⟩

instance : Sub JsNumber := ⟨fun a b => a + -b⟩

/-- `a < b`. -/
def lt : JsNumber → JsNumber → Bool
  | .nan, _ | _, .nan => false
  | .infinite a, .infinite b => a && !b
  | .infinite a, .finite _ => a
  | .finite _, .infinite b => !b
  | .finite x, .finite y => decide (x < y)

def min : JsNumber → JsNumber → JsNumber
  | .nan, _ | _, .nan => .nan
  | a, b => if b.lt a then b else a

/-- `a || 0`. -/
def orZero : JsNumber → JsNumber
  | .nan => 0
  | a => a

def isFinite : JsNumber → Bool
  | .finite _ => true
  | _ => false

/-- `Number.isSafeInteger`, with the integer. -/
def safeInteger? : JsNumber → Option ℤ
  | .finite x => if x.den = 1 ∧ |x.num| ≤ 2 ^ 53 - 1 then some x.num else none
  | _ => none

@[simp] theorem finite_add (x y : ℚ) : finite x + finite y = finite (x + y) := rfl

@[simp] theorem finite_sub (x y : ℚ) : finite x - finite y = finite (x - y) := by
  change finite (x + -y) = _
  rw [sub_eq_add_neg]

@[simp] theorem ofInt_eq (n : ℤ) : ofInt n = finite n := rfl

@[simp] theorem zero_eq : (0 : JsNumber) = finite 0 := rfl

@[simp] theorem finite_lt (x y : ℚ) : (finite x).lt (finite y) = decide (x < y) := rfl

@[simp] theorem orZero_finite (x : ℚ) : (finite x).orZero = finite x := rfl

@[simp] theorem isFinite_iff {a : JsNumber} : a.isFinite = true ↔ ∃ x, a = finite x := by
  cases a <;> simp [isFinite]

end JsNumber
