import Mathlib.Data.List.Basic

/-!
# The bytes of a text

A text is read back from its bytes, and an ASCII character is one byte that occurs in no other: a message
of fields without a separator, joined by it, is taken apart in one way.
-/

namespace Utf8

open List

/-- The bytes of a text. -/
def bytes (text : String) : List UInt8 := text.toList.flatMap String.utf8EncodeChar

theorem bytes_injective : Function.Injective bytes := by
  intro text text' same
  apply String.toByteArray_inj.mp
  rw [← String.utf8Encode_toList, ← String.utf8Encode_toList]
  exact congrArg toByteArray same

section Separator

variable {c d : Char}

/-- A byte below 128 in the code of a character is that character. -/
theorem eq_of_mem_encode (ascii : d.val.toNat < 128)
    (mem : UInt8.ofNat d.val.toNat ∈ String.utf8EncodeChar c) : c = d := by
  have value {n : Nat} (same : UInt8.ofNat d.val.toNat = UInt8.ofNat n) :
      d.val.toNat = n % 256 := by
    have equal := congrArg UInt8.toNat same
    rw [UInt8.toNat_ofNat', UInt8.toNat_ofNat'] at equal
    omega
  unfold String.utf8EncodeChar at mem
  dsimp only at mem
  split at mem
  next small =>
    have same := value (mem_singleton.mp mem)
    apply Char.ext
    apply UInt32.toNat_inj.mp
    omega
  next =>
    -- the bytes of a longer code are 128 and above
    exfalso
    have high {n : Nat} (least : 128 ≤ n) (most : n < 256) :
        UInt8.ofNat d.val.toNat ≠ UInt8.ofNat n := by
      intro same
      have := value same
      omega
    split at mem
    · simp only [mem_cons, not_mem_nil, or_false] at mem
      rcases mem with same | same
      all_goals exact high (by omega) (by omega) same
    · split at mem
      · simp only [mem_cons, not_mem_nil, or_false] at mem
        rcases mem with same | same | same
        all_goals exact high (by omega) (by omega) same
      · simp only [mem_cons, not_mem_nil, or_false] at mem
        rcases mem with same | same | same | same
        all_goals exact high (by omega) (by omega) same

theorem notMem_bytes {text : String} (ascii : d.val.toNat < 128) (absent : d ∉ text.toList) :
    UInt8.ofNat d.val.toNat ∉ bytes text := by
  intro mem
  obtain ⟨c, inside, byte⟩ := mem_flatMap.mp mem
  exact absent (eq_of_mem_encode ascii byte ▸ inside)

end Separator

/-- What precedes the first separator is read back. -/
theorem separated_inj {α : Type*} {a : α} {left left' right right' : List α} (absent : a ∉ left)
    (absent' : a ∉ left') (same : left ++ a :: right = left' ++ a :: right') :
    left = left' ∧ right = right' := by
  induction left generalizing left' with
  | nil =>
    cases left' with
    | nil => exact ⟨rfl, (cons.inj same).2⟩
    | cons b left' => exact absurd (cons.inj same).1 (ne_of_not_mem_cons absent')
  | cons b left ih =>
    cases left' with
    | nil => exact absurd (cons.inj same).1.symm (ne_of_not_mem_cons absent)
    | cons b' left' =>
      obtain ⟨rfl, rest⟩ := cons.inj same
      obtain ⟨rfl, equal⟩ := ih (not_mem_of_not_mem_cons absent)
        (not_mem_of_not_mem_cons absent') rest
      exact ⟨rfl, equal⟩

/-- A message of two fields and a body, joined by a separator that no field has. -/
theorem fields_inj {d : Char} {first second first' second' : String} {body body' : List UInt8}
    (ascii : d.val.toNat < 128) (absent : d ∉ first.toList ∧ d ∉ second.toList)
    (absent' : d ∉ first'.toList ∧ d ∉ second'.toList)
    (same : bytes first ++ UInt8.ofNat d.val.toNat :: (bytes second ++ UInt8.ofNat d.val.toNat :: body) =
      bytes first' ++ UInt8.ofNat d.val.toNat :: (bytes second' ++ UInt8.ofNat d.val.toNat :: body')) :
    first = first' ∧ second = second' ∧ body = body' := by
  obtain ⟨one, rest⟩ := separated_inj (notMem_bytes ascii absent.1) (notMem_bytes ascii absent'.1) same
  obtain ⟨two, three⟩ := separated_inj (notMem_bytes ascii absent.2) (notMem_bytes ascii absent'.2) rest
  exact ⟨bytes_injective one, bytes_injective two, three⟩

end Utf8
