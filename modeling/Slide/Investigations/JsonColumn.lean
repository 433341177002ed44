import Slide.Display.MessageParts
import Slide.Library.Keyed

/-!
# JSON values with their key order

An object lists its keys in the order `JSON.stringify` prints them.  A JSON column returns the value
under another order of the keys, so two values are told apart by `canonical` and by their texts.
-/

namespace Slide.Display

mutual

/-- `canonical`: the keys of every object sorted. -/
def Json.canonical : Json → Json
  | .array items => .array (canonicalItems items)
  | .object fields =>
    .object ((canonicalFields fields).insertionSort fun a b => JsString.le a.1 b.1)
  | value => value

def Json.canonicalItems : List Json → List Json
  | [] => []
  | value :: rest => value.canonical :: canonicalItems rest

def Json.canonicalFields : List (String × Json) → List (String × Json)
  | [] => []
  | (key, value) :: rest => (key, value.canonical) :: canonicalFields rest

end

mutual

/-- `JSON.stringify`, over the texts of the numbers. -/
def Json.stringify (numberText : Rat → String) : Json → String
  | .null => "null"
  | .bool value => if value then "true" else "false"
  | .number value => numberText value
  | .string value => JsString.quote value
  | .array items => JsString.array (stringifyItems numberText items)
  | .object fields => "\x7b" ++ ",".intercalate (stringifyFields numberText fields) ++ "\x7d"

def Json.stringifyItems (numberText : Rat → String) : List Json → List String
  | [] => []
  | value :: rest => value.stringify numberText :: stringifyItems numberText rest

def Json.stringifyFields (numberText : Rat → String) : List (String × Json) → List String
  | [] => []
  | (key, value) :: rest =>
    (JsString.quote key ++ ":" ++ value.stringify numberText) :: stringifyFields numberText rest

end

theorem Json.stringifyFields_append {numberText : Rat → String} {before rest : List (String × Json)} :
    stringifyFields numberText (before ++ rest) =
      stringifyFields numberText before ++ stringifyFields numberText rest := by
  induction before with
  | nil => rfl
  | cons field before ih => exact congrArg (_ :: ·) ih

theorem Json.stringify_object_inj {numberText : Rat → String} (before rest : List (String × Json))
    {key : String} {value value' : Json}
    (same : (Json.object (before ++ (key, value) :: rest)).stringify numberText =
      (Json.object (before ++ (key, value') :: rest)).stringify numberText) :
    value.stringify numberText = value'.stringify numberText := by
  unfold Json.stringify at same
  rw [String.append_left_inj, String.append_right_inj, stringifyFields_append,
    stringifyFields_append] at same
  have fields := JsString.intercalate_inj same
  rwa [String.append_right_inj] at fields

/-! ## Equality is decided -/

mutual

/-- Equality with the key order. -/
def Json.same : Json → Json → Bool
  | .null, .null => true
  | .bool a, .bool b => a == b
  | .number a, .number b => a == b
  | .string a, .string b => a == b
  | .array a, .array b => sameItems a b
  | .object a, .object b => sameFields a b
  | _, _ => false

def Json.sameItems : List Json → List Json → Bool
  | [], [] => true
  | a :: as, b :: bs => a.same b && sameItems as bs
  | _, _ => false

def Json.sameFields : List (String × Json) → List (String × Json) → Bool
  | [], [] => true
  | (k, a) :: as, (l, b) :: bs => k == l && a.same b && sameFields as bs
  | _, _ => false

end

mutual

theorem Json.same_iff : ∀ a b : Json, a.same b = true ↔ a = b
  | .null, b => by cases b <;> simp [Json.same]
  | .bool a, b => by cases b <;> simp [Json.same]
  | .number a, b => by cases b <;> simp [Json.same]
  | .string a, b => by cases b <;> simp [Json.same]
  | .array a, b => by cases b <;> simp [Json.same, Json.sameItems_iff]
  | .object a, b => by cases b <;> simp [Json.same, Json.sameFields_iff]

theorem Json.sameItems_iff : ∀ a b : List Json, sameItems a b = true ↔ a = b
  | [], b => by cases b <;> simp [Json.sameItems]
  | a :: as, b => by
    cases b with
    | nil => simp [Json.sameItems]
    | cons b bs => simp [Json.sameItems, Json.same_iff a b, Json.sameItems_iff as bs]

theorem Json.sameFields_iff : ∀ a b : List (String × Json), sameFields a b = true ↔ a = b
  | [], b => by cases b <;> simp [Json.sameFields]
  | (k, a) :: as, b => by
    cases b with
    | nil => simp [Json.sameFields]
    | cons b bs =>
      obtain ⟨l, b⟩ := b
      simp [Json.sameFields, Json.same_iff a b, Json.sameFields_iff as bs]

end

instance : DecidableEq Json := fun a b => decidable_of_iff _ (Json.same_iff a b)

/-- `isDeepStrictEqual` of two JSON values. -/
def Json.deepEqual (a b : Json) : Prop := a.canonical = b.canonical

instance (a b : Json) : Decidable (a.deepEqual b) := inferInstanceAs (Decidable (_ = _))

/-! ## Reading a value -/

/-- `value[key]` of an object. -/
def Json.at? (key : String) : Json → Option Json
  | .object fields => (fields.find? fun field => decide (field.1 = key)).map Prod.snd
  | _ => none

def Json.string? : Json → Option String
  | .string value => some value
  | _ => none

/-- The integer that a number is. -/
def Json.int? : Json → Option Int
  | .number value => if value.den = 1 then some value.num else none
  | _ => none

/-! ## The key order does not show in what is read -/

theorem Json.find?_canonicalFields {key : String} : ∀ fields : List (String × Json),
    (canonicalFields fields).find? (fun field => decide (field.1 = key)) =
      (fields.find? fun field => decide (field.1 = key)).map fun field => (field.1, field.2.canonical)
  | [] => rfl
  | (k, value) :: rest => by
    rw [Json.canonicalFields, List.find?_cons, List.find?_cons]
    cases decide (k = key) with
    | true => rfl
    | false => exact find?_canonicalFields rest

theorem Json.at?_canonical {key : String} (value : Json) :
    value.canonical.at? key = (value.at? key).map Json.canonical := by
  cases value with
  | object fields =>
    have refl (k : String) : JsString.le k k := lt_irrefl _
    rw [Json.canonical, Json.at?, Json.at?, Keyed.find?_insertionSort refl, find?_canonicalFields,
      Option.map_map, Option.map_map]
    rfl
  | null | bool | number | string | array => rfl

@[simp] theorem Json.string?_canonical (value : Json) : value.canonical.string? = value.string? := by
  cases value <;> rfl

@[simp] theorem Json.int?_canonical (value : Json) : value.canonical.int? = value.int? := by
  cases value <;> rfl

section Equal

variable {a b : Json}

theorem Json.deepEqual.iff (equal : a.deepEqual b) (c : Json) : a.deepEqual c ↔ b.deepEqual c :=
  ⟨fun left => (Eq.symm equal).trans left, fun right => Eq.trans equal right⟩

theorem Json.deepEqual.at? (equal : a.deepEqual b) (key : String) :
    (a.at? key).map Json.canonical = (b.at? key).map Json.canonical := by
  rw [← at?_canonical, ← at?_canonical, equal]

theorem Json.deepEqual.string? (equal : a.deepEqual b) (key : String) :
    (a.at? key).bind Json.string? = (b.at? key).bind Json.string? := by
  have same := congrArg (fun value => value.bind Json.string?) (equal.at? key)
  simpa [Option.bind_map, Function.comp_def] using same

theorem Json.deepEqual.int? (equal : a.deepEqual b) (key : String) :
    (a.at? key).bind Json.int? = (b.at? key).bind Json.int? := by
  have same := congrArg (fun value => value.bind Json.int?) (equal.at? key)
  simpa [Option.bind_map, Function.comp_def] using same

theorem Json.canonical_eq_string {value : Json} {text : String}
    (equal : value.canonical = .string text) : value = .string text := by
  cases value with
  | string => exact equal
  | null | bool | number | array | object => cases equal

theorem Json.deepEqual.at?_eq_string {key text : String} (equal : a.deepEqual b) :
    a.at? key = some (.string text) ↔ b.at? key = some (.string text) := by
  have one {a b : Json} (equal : a.deepEqual b) (found : a.at? key = some (.string text)) :
      b.at? key = some (.string text) := by
    have same := equal.at? key
    rw [found] at same
    obtain ⟨value, read, canonical⟩ := Option.map_eq_some_iff.mp same.symm
    rw [read, Json.canonical_eq_string canonical]
  exact ⟨one equal, one equal.symm⟩

end Equal

theorem Json.canonicalFields_append : ∀ left right : List (String × Json),
    canonicalFields (left ++ right) = canonicalFields left ++ canonicalFields right
  | [], _ => rfl
  | (key, value) :: rest, right => by
    rw [List.cons_append, Json.canonicalFields, Json.canonicalFields, canonicalFields_append rest,
      List.cons_append]

theorem Json.deepEqual_object {right : List (String × Json)} {key : String} {a b : Json}
    (left : List (String × Json)) (equal : a.deepEqual b) :
    (Json.object (left ++ (key, a) :: right)).deepEqual (.object (left ++ (key, b) :: right)) := by
  have same : a.canonical = b.canonical := equal
  unfold Json.deepEqual
  rw [Json.canonical, Json.canonical, canonicalFields_append, canonicalFields_append,
    Json.canonicalFields, Json.canonicalFields, same]

end Slide.Display
