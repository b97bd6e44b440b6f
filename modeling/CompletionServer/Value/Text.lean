import CompletionServer.Decimal.Style
import CompletionServer.Text.Digit
import CompletionServer.Text.Quoted
import CompletionServer.Value.Parts

/-!
# The text of a value

Where a text is expected, any value will do: it is written out. A text stands for itself,
collections are written with brackets, and inside these every text is quoted. A knot is written
once; where it comes up again inside itself, three points stand for it.

A whole number with too many digits is not written at all. So not every value has a text;
`isWritable` says which have.
-/

namespace CompletionServer.Value

/-- What stands for a knot inside itself. -/
def dots : Value → String
  | .list _ => "[...]"
  | .map _ => "\x7b...\x7d"
  | .pair _ _ => "(...)"
  | _ => "..."

mutual

/-- A value as it stands inside a collection, and inside knots with these labels. -/
def quotedIn (knots : List (Label × String)) : Value → String
  | .null => "None"
  | .bool b => if b then "True" else "False"
  | .int n => toString n
  | .float x => Decimal.plain.write x
  | .str s => Text.quoted s
  | .broken s => String.ofList (Text.quotedPoints s)
  | .bytes bs => String.ofList (Text.quotedBytes bs)
  | .date d => d.quoted
  | .moment m => m.quoted
  | .list items => "[" ++ ", ".intercalate (quotedItems knots items) ++ "]"
  | .map entries => "\x7b" ++ ", ".intercalate (quotedEntries knots entries) ++ "\x7d"
  | .set [] => "set()"
  | .set (v :: rest) =>
    "\x7b" ++ ", ".intercalate (v.quotedIn knots :: quotedItems knots rest) ++ "\x7d"
  | .pair first second => "(" ++ first.quotedIn knots ++ ", " ++ second.quotedIn knots ++ ")"
  | .knot label body =>
    match knots.lookup label with
    | some dots => dots
    | none => body.quotedIn ((label, body.dots) :: knots)
  | .again label => (knots.lookup label).getD "..."

def quotedItems (knots : List (Label × String)) : List Value → List String
  | [] => []
  | v :: rest => v.quotedIn knots :: quotedItems knots rest

def quotedEntries (knots : List (Label × String)) : List (Value × Value) → List String
  | [] => []
  | (k, v) :: rest => (k.quotedIn knots ++ ": " ++ v.quotedIn knots) :: quotedEntries knots rest

end

/-- A value as it stands inside a collection. -/
def quoted (v : Value) : String := v.quotedIn []

/-- The text of a value. A half of a pair that stands alone is shown as U+FFFD in it. -/
def text : Value → String
  | .str s => s
  | .broken s => String.ofList (Text.shown s)
  | .date d => d.text
  | .moment m => m.text
  | v => v.quoted

@[simp] theorem text_str (s : String) : (Value.str s).text = s := rfl

/-! ## Values without a text -/

mutual

/-- Whether no whole number in a value has too many digits to be written. -/
def isWritable : Value → Bool
  | .int n => n.natAbs < Decimal.tenPow Text.digitLimit
  | .list items => areWritable items
  | .map entries => areWritableEntries entries
  | .set members => areWritable members
  | .pair first second => first.isWritable && second.isWritable
  | .knot _ body => body.isWritable
  | _ => true

def areWritable : List Value → Bool
  | [] => true
  | v :: rest => v.isWritable && areWritable rest

def areWritableEntries : List (Value × Value) → Bool
  | [] => true
  | (k, v) :: rest => k.isWritable && v.isWritable && areWritableEntries rest

end

@[simp] theorem isWritable_str (s : String) : (Value.str s).isWritable = true := rfl

end CompletionServer.Value
