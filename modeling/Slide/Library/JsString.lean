import Mathlib.Data.List.Lex
import Mathlib.Data.List.Sort

/-!
# Strings as JavaScript compares and prints them

`<` on JavaScript strings compares UTF-16 code units, which differs from the order of code points
above the basic plane; `JSON.stringify` quotes a string with its own escapes.
-/

namespace JsString

open List

/-- The UTF-16 code units of a string. -/
def utf16 (s : String) : List Nat :=
  s.toList.flatMap fun c =>
    if c.toNat < 0x10000 then [c.toNat]
    else [0xD800 + (c.toNat - 0x10000) / 0x400, 0xDC00 + (c.toNat - 0x10000) % 0x400]

/-- `length`, in code units. -/
def length (s : String) : Nat := (utf16 s).length

/-- What `\s` matches and `trim` removes: white space and line terminators. -/
def isSpace (c : Char) : Bool :=
  9 ≤ c.toNat && c.toNat ≤ 13 || 0x2000 ≤ c.toNat && c.toNat ≤ 0x200A ||
    [0x20, 0xA0, 0x1680, 0x2028, 0x2029, 0x202F, 0x205F, 0x3000, 0xFEFF].contains c.toNat

def trim (s : String) : String :=
  String.ofList ((s.toList.dropWhile isSpace).reverse.dropWhile isSpace).reverse

/-- A character is looked for in the text, not among all characters. -/
instance (priority := high) decidableExistsChar (p : Char → Prop) [DecidablePred p] (text : List Char) :
    Decidable (∃ c ∈ text, p c) :=
  decidableBEx p text

/-- Neither string comes strictly after the other, or the left one comes first. -/
def le (left right : String) : Prop := ¬ utf16 right < utf16 left

instance : DecidableRel le := fun _ _ => inferInstanceAs (Decidable (¬ _))

/-! ## The order is total -/

/-- A character is read back from the front of its code units. -/
theorem units_inj {c d : Char} {rest rest' : List Nat}
    (same : (if c.toNat < 0x10000 then [c.toNat]
        else [0xD800 + (c.toNat - 0x10000) / 0x400, 0xDC00 + (c.toNat - 0x10000) % 0x400]) ++ rest =
      (if d.toNat < 0x10000 then [d.toNat]
        else [0xD800 + (d.toNat - 0x10000) / 0x400, 0xDC00 + (d.toNat - 0x10000) % 0x400]) ++ rest') :
    c = d ∧ rest = rest' := by
  have validC : c.toNat < 0xD800 ∨ 0xDFFF < c.toNat ∧ c.toNat < 0x110000 := c.valid
  have validD : d.toNat < 0xD800 ∨ 0xDFFF < d.toNat ∧ d.toNat < 0x110000 := d.valid
  have of_toNat : c.toNat = d.toNat → c = d := Char.toNat_inj.mp
  split_ifs at same with low low' low'
  · obtain ⟨first, others⟩ := cons.inj same
    exact ⟨of_toNat first, others⟩
  · obtain ⟨first, -⟩ := cons.inj same
    omega
  · obtain ⟨first, -⟩ := cons.inj same
    omega
  · obtain ⟨first, more⟩ := cons.inj same
    obtain ⟨second, others⟩ := cons.inj more
    exact ⟨of_toNat (by omega), others⟩

theorem utf16_injective : Function.Injective utf16 := by
  intro s t same
  refine String.toList_inj.mp ?_
  unfold utf16 at same
  generalize s.toList = cs at same ⊢
  generalize t.toList = ds at same ⊢
  induction cs generalizing ds with
  | nil =>
    cases ds with
    | nil => rfl
    | cons d ds =>
      rw [flatMap_cons] at same
      split at same <;> cases same
  | cons c cs ih =>
    cases ds with
    | nil =>
      rw [flatMap_cons] at same
      split at same <;> cases same
    | cons d ds =>
      obtain ⟨rfl, rest⟩ := units_inj same
      rw [ih ds rest]

instance : Std.Antisymm le where
  antisymm _ _ left right := utf16_injective (le_antisymm (not_lt.mp left) (not_lt.mp right))

instance : IsTrans String le where
  trans _ _ _ left right := not_lt.mpr ((not_lt.mp left).trans (not_lt.mp right))

instance : Std.Total le where
  total left right := (le_total (utf16 left) (utf16 right)).imp not_lt.mpr not_lt.mpr

/-- Sorting strings forgets the order they came in. -/
theorem sort_eq_of_perm {left right : List String} (permuted : left.Perm right) :
    left.insertionSort le = right.insertionSort le :=
  (((perm_insertionSort le left).trans permuted).trans
    (perm_insertionSort le right).symm).eq_of_pairwise'
      (pairwise_insertionSort le left) (pairwise_insertionSort le right)

/-! ## JSON -/

private def hexDigit (n : Nat) : Char := if n < 10 then Char.ofNat (48 + n) else Char.ofNat (87 + n)

/-- One character inside a JSON string literal. -/
def escape (c : Char) : List Char :=
  match c with
  | '"' => ['\\', '"']
  | '\\' => ['\\', '\\']
  | '\n' => ['\\', 'n']
  | '\r' => ['\\', 'r']
  | '\t' => ['\\', 't']
  | c =>
    if c.toNat = 8 then ['\\', 'b']
    else if c.toNat = 12 then ['\\', 'f']
    else if c.toNat < 32 then
      ['\\', 'u', '0', '0', hexDigit (c.toNat / 16), hexDigit (c.toNat % 16)]
    else [c]

/-- `JSON.stringify` of a string. -/
def quote (s : String) : String := String.ofList ('"' :: s.toList.flatMap escape ++ ['"'])

/-- `JSON.stringify` of an array, from the texts of its items. -/
def array (items : List String) : String := "[" ++ ",".intercalate items ++ "]"

/-! ## Reading a string literal -/

private def hexValue (c : Char) : Nat := if c.toNat < 58 then c.toNat - 48 else c.toNat - 87

/-- The character behind a backslash, and what follows it. -/
private def unescapeCode : List Char → Option (Char × List Char)
  | [] => none
  | 'n' :: rest => some ('\n', rest)
  | 'r' :: rest => some ('\r', rest)
  | 't' :: rest => some ('\t', rest)
  | 'b' :: rest => some (Char.ofNat 8, rest)
  | 'f' :: rest => some (Char.ofNat 12, rest)
  | 'u' :: _ :: _ :: high :: low :: rest =>
    some (Char.ofNat (16 * hexValue high + hexValue low), rest)
  | c :: rest => some (c, rest)

/-- The character that an escaped text starts with, and what follows it; a quotation mark ends the
text. -/
private def unescape : List Char → Option (Char × List Char)
  | [] => none
  | c :: rest =>
    if c = '"' then none
    else if c = '\\' then unescapeCode rest
    else some (c, rest)

private theorem hexDigits_eq : ∀ n < 32,
    16 * hexValue (hexDigit (n / 16)) + hexValue (hexDigit (n % 16)) = n := by decide

private theorem unescape_escape (c : Char) (rest : List Char) :
    unescape (escape c ++ rest) = some (c, rest) := by
  have back (n : Nat) (code : c.toNat = n) : Char.ofNat n = c := by
    rw [← code, Char.ofNat_toNat]
  unfold escape
  split
  all_goals try rfl
  next noQuote noBackslash _ _ _ =>
    split_ifs with backspace feed control
    · exact congrArg (fun c => some (c, rest)) (back 8 backspace)
    · exact congrArg (fun c => some (c, rest)) (back 12 feed)
    · refine congrArg (fun c => some (c, rest)) ?_
      rw [hexDigits_eq c.toNat control, Char.ofNat_toNat]
    · rw [singleton_append, unescape, if_neg noQuote, if_neg noBackslash]

private theorem escaped_inj {s s' rest rest' : List Char}
    (same : s.flatMap escape ++ '"' :: rest = s'.flatMap escape ++ '"' :: rest') :
    s = s' ∧ rest = rest' := by
  induction s generalizing s' with
  | nil =>
    cases s' with
    | nil => exact ⟨rfl, (cons.inj same).2⟩
    | cons c s' =>
      rw [flatMap_nil, nil_append, flatMap_cons, append_assoc] at same
      have read := unescape_escape c (s'.flatMap escape ++ '"' :: rest')
      rw [← same] at read
      cases read
  | cons c s ih =>
    rw [flatMap_cons, append_assoc] at same
    have read := unescape_escape c (s.flatMap escape ++ '"' :: rest)
    rw [same] at read
    cases s' with
    | nil => cases read
    | cons c' s' =>
      rw [flatMap_cons, append_assoc, unescape_escape] at read
      obtain ⟨rfl, tails⟩ := Prod.mk.inj (Option.some.inj read)
      obtain ⟨rfl, rests⟩ := ih tails.symm
      exact ⟨rfl, rests⟩

/-- A string literal is read back, with what follows it. -/
theorem quote_append_inj {s s' : String} {rest rest' : List Char}
    (same : (quote s).toList ++ rest = (quote s').toList ++ rest') : s = s' ∧ rest = rest' := by
  simp only [quote, String.toList_ofList, cons_append, append_assoc, nil_append] at same
  obtain ⟨texts, rests⟩ := escaped_inj (cons.inj same).2
  exact ⟨String.toList_inj.mp texts, rests⟩

/-! ## Joined texts -/

theorem intercalate_head_inj {separator text text' : String} {rest : List String}
    (same : separator.intercalate (text :: rest) = separator.intercalate (text' :: rest)) :
    text = text' := by
  by_cases last : rest = []
  · rwa [last, String.intercalate_singleton, String.intercalate_singleton] at same
  · rwa [String.intercalate_cons_of_ne_nil last, String.intercalate_cons_of_ne_nil last,
      String.append_left_inj, String.append_left_inj] at same

theorem intercalate_inj {separator text text' : String} {before rest : List String}
    (same : separator.intercalate (before ++ text :: rest) =
      separator.intercalate (before ++ text' :: rest)) : text = text' := by
  by_cases first : before = []
  · rw [first] at same
    exact intercalate_head_inj same
  · rw [String.intercalate_append_of_ne_nil first (cons_ne_nil _ _),
      String.intercalate_append_of_ne_nil first (cons_ne_nil _ _), String.append_right_inj] at same
    exact intercalate_head_inj same

end JsString

export Option (some.inj)
