import Mathlib.Data.List.TakeWhile
import Std.Data.String.ToNat

/-!
# Decimals inside texts

A number that is printed in front of something else than a digit is read back, with what follows it.
-/

namespace Decimal

theorem isDigit_of_mem_repr {n : Nat} {c : Char} (mem : c ∈ (Nat.repr n).toList) : c.isDigit = true := by
  rw [Nat.toList_repr] at mem
  exact Nat.isDigit_of_mem_toDigits (by decide) (by decide) mem

/-- The digits in front are those of the number. -/
theorem takeWhile_isDigit (n : Nat) {rest : List Char} (stop : ∀ c ∈ rest.head?, c.isDigit = false) :
    ((Nat.repr n).toList ++ rest).takeWhile Char.isDigit = (Nat.repr n).toList := by
  rw [List.takeWhile_append_of_pos fun c mem => isDigit_of_mem_repr mem]
  cases rest with
  | nil => exact List.append_nil _
  | cons c rest => simp [stop c rfl]

theorem repr_append_inj {m n : Nat} {rest rest' : List Char} (stop : ∀ c ∈ rest.head?, c.isDigit = false)
    (stop' : ∀ c ∈ rest'.head?, c.isDigit = false)
    (same : (Nat.repr m).toList ++ rest = (Nat.repr n).toList ++ rest') : m = n ∧ rest = rest' := by
  have digits : (Nat.repr m).toList = (Nat.repr n).toList := by
    rw [← takeWhile_isDigit m stop, same, takeWhile_isDigit n stop']
  refine ⟨Nat.repr_injective (String.toList_inj.mp digits), ?_⟩
  rw [digits] at same
  exact List.append_cancel_left same

end Decimal
