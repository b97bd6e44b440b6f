import CompletionServer.Keyed
import CompletionServer.Value.Basic

/-!
# The parts of values

What a value holds, if it is of the kind that is asked for. A knot is opened first: the whole then
stands in all the places inside it that mean the whole again, so its parts are values of their own.
-/

namespace CompletionServer.Value

/-! ## Opening knots -/

mutual

/-- The value with `whole` in the places that mean the knot with a label. -/
def replaceAgain (label : Label) (whole : Value) : Value → Value
  | .again l => if l = label then whole else .again l
  | .knot l body => if l = label then .knot l body else .knot l (replaceAgain label whole body)
  | .list items => .list (replaceAgainEach label whole items)
  | .map entries => .map (replaceAgainBoth label whole entries)
  | .pair first second =>
    .pair (replaceAgain label whole first) (replaceAgain label whole second)
  | v => v

def replaceAgainEach (label : Label) (whole : Value) : List Value → List Value
  | [] => []
  | v :: rest => replaceAgain label whole v :: replaceAgainEach label whole rest

def replaceAgainBoth (label : Label) (whole : Value) : List (Value × Value) → List (Value × Value)
  | [] => []
  | (k, v) :: rest => (k, replaceAgain label whole v) :: replaceAgainBoth label whole rest

end

/-- The value without a knot around it. -/
def opened : Value → Value
  | .knot label body => replaceAgain label (.knot label body) body
  | v => v

/-! ## Parts -/

/-- The value under a text key. -/
def get? (key : String) (entries : List (Value × Value)) : Option Value :=
  Keyed.find? sameKey (.str key) entries

/-- The value under a text key, null where there is none. -/
def get (key : String) (entries : List (Value × Value)) : Value := (get? key entries).getD .null

/-- The entries of a mapping. -/
def entries? (v : Value) : Option (List (Value × Value)) :=
  match v.opened with
  | .map entries => some entries
  | _ => none

/-- The items of a list. -/
def items? (v : Value) : Option (List Value) :=
  match v.opened with
  | .list items => some items
  | _ => none

/-- The text that a value is. -/
def str? : Value → Option String
  | .str s => some s
  | _ => none

/-- The points of the text that a value is. -/
def points? : Value → Option (List Text.Point)
  | .str s => some (Text.points s.toList)
  | .broken s => some s
  | _ => none

theorem points?_ofPoints (s : List Text.Point) : points? (ofPoints s) = some s := by
  unfold ofPoints
  split
  · next cs hcs => rw [points?, String.toList_ofList, Text.chars?_eq_some_iff.mp hcs]
  · rfl

theorem ofPoints_injective {s t : List Text.Point} (h : ofPoints s = ofPoints t) : s = t := by
  rw [← Option.some_inj, ← points?_ofPoints s, h, points?_ofPoints]

/-- The truth value that a value is. -/
def bool? : Value → Option Bool
  | .bool b => some b
  | _ => none

/-- The whole number that a value is. -/
def int? : Value → Option Int
  | .int n => some n
  | _ => none

/-- The value under a text key of a mapping; null in every other value. -/
def field (key : String) (v : Value) : Value :=
  match v.entries? with
  | some entries => get key entries
  | none => .null

/-- A mapping with text keys. -/
def record (fields : List (String × Value)) : Value :=
  .map (fields.map fun f ↦ (.str f.1, f.2))

@[simp] theorem entries?_map (entries : List (Value × Value)) :
    entries? (.map entries) = some entries := rfl

@[simp] theorem items?_list (items : List Value) : items? (.list items) = some items := rfl

theorem field_record_cons_of_ne {name key : String} (h : name ≠ key) (v : Value)
    (fields : List (String × Value)) :
    (record ((name, v) :: fields)).field key = (record fields).field key := by
  have hkey : sameKey (.str name) (.str key) = false := beq_eq_false_iff_ne.mpr h
  change get key ((.str name, v) :: _) = get key _
  rw [get, get?, Keyed.find?, hkey]
  rfl

end CompletionServer.Value
