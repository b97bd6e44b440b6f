import CompletionServer.Calendar
import CompletionServer.Decimal.Binary
import CompletionServer.Text.Point

/-!
# Decoded values

What a configuration file, a client or a backend may send: the values of JSON and, from
configuration files, dates, moments, bytes, sets, pairs and mappings whose keys are no texts.

A list or a mapping from a configuration file may contain itself. It is tied as a *knot*: the knot
has a label, and inside it the label stands for the whole again.

Whole numbers and floats are different values, and so are truth values. For the comparison of keys
and of small numbers they count as numbers all the same: `true`, `1` and `1.0` are equal there.
-/

namespace CompletionServer

/-- The label of a knot: the number of a node, and that of a part of it or zero. -/
abbrev Label := Nat × Nat

/-- A decoded value. A mapping keeps the order of its entries. -/
inductive Value where
  | null
  | bool (b : Bool)
  | int (n : Int)
  | float (x : Float)
  | str (s : String)
  /-- A text in which a half of a pair of surrogates stands alone. -/
  | broken (s : List Text.Point)
  | bytes (bs : List UInt8)
  | date (d : Date)
  | moment (m : Moment)
  | list (items : List Value)
  | map (entries : List (Value × Value))
  | set (members : List Value)
  | pair (first second : Value)
  /-- A collection that contains itself. -/
  | knot (label : Label) (body : Value)
  /-- The knot with this label, inside it. -/
  | again (label : Label)
deriving Inhabited

namespace Value

/-- The value of a decoded text. -/
def ofPoints (s : List Text.Point) : Value :=
  match Text.chars? s with
  | some cs => .str (String.ofList cs)
  | none => .broken s

@[simp] theorem ofPoints_points (s : List Char) :
    ofPoints (Text.points s) = .str (String.ofList s) := by
  simp [ofPoints]

theorem ofPoints_eq_str_iff {s : List Text.Point} {t : String} :
    ofPoints s = .str t ↔ s = Text.points t.toList := by
  refine ⟨fun h ↦ ?_, fun h ↦ by rw [h, ofPoints_points, String.ofList_toList]⟩
  unfold ofPoints at h
  split at h
  · next cs hcs =>
    cases h
    rw [Text.chars?_eq_some_iff.mp hcs, String.toList_ofList]
  · cases h

/-! ## Kinds -/

/-- Whether a value counts as given: null, false, zero and everything empty do not. -/
def isTruthy : Value → Bool
  | .null => false
  | .bool b => b
  | .int n => n != 0
  | .float x => x != 0.0
  | .str s => s != ""
  | .broken s => !s.isEmpty
  | .bytes bs => !bs.isEmpty
  | .list items => !items.isEmpty
  | .map entries => !entries.isEmpty
  | .set members => !members.isEmpty
  | .knot _ body => body.isTruthy
  | .date _ | .moment _ | .pair _ _ | .again _ => true

/-- The name of a value's kind in messages. -/
def kindName : Value → String
  | .null => "NoneType"
  | .bool _ => "bool"
  | .int _ => "int"
  | .float _ => "float"
  | .str _ | .broken _ => "str"
  | .bytes _ => "bytes"
  | .date _ => "date"
  | .moment _ => "datetime"
  | .list _ => "list"
  | .map _ => "dict"
  | .set _ => "set"
  | .pair _ _ => "tuple"
  | .knot _ body => body.kindName
  | .again _ => "list"

/-- The name of a value's kind with the place it is defined in. -/
def qualifiedKindName : Value → String
  | .date _ => "datetime.date"
  | .moment _ => "datetime.datetime"
  | v => v.kindName

/-! ## Keys -/

/-- A truth value or a whole number, as a whole number. -/
def asInt? : Value → Option Int
  | .bool b => some (if b then 1 else 0)
  | .int n => some n
  | _ => none

/-- Equality of keys: numbers by their value, other scalars with their like. Collections are no
keys and equal nothing. -/
def sameKey : Value → Value → Bool
  | .null, .null => true
  | .str s, .str t => s == t
  | .broken s, .broken t => s == t
  | .bytes s, .bytes t => s == t
  | .date d, .date e => d == e
  | .moment m, .moment n => m.isSame n
  | .float x, .float y => x == y
  | .float x, v => v.asInt?.isSome && Decimal.wholeOfFloat? x == v.asInt?
  | v, .float x => v.asInt?.isSome && Decimal.wholeOfFloat? x == v.asInt?
  | v, w => v.asInt?.isSome && v.asInt? == w.asInt?

@[simp] theorem sameKey_str (s t : String) : sameKey (.str s) (.str t) = (s == t) := rfl

/-- A text key is equal to no other kind of key. -/
theorem sameKey_str_iff {v : Value} {s : String} : sameKey v (.str s) = true ↔ v = .str s := by
  cases v <;> simp [sameKey, asInt?]

theorem sameKey_str_left_iff {v : Value} {s : String} :
    sameKey (.str s) v = true ↔ v = .str s := by
  cases v with
  | str t => rw [sameKey_str, beq_iff_eq, str.injEq, eq_comm]
  | _ => simp [sameKey, asInt?]

end Value

end CompletionServer
