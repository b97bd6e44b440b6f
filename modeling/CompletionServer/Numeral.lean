import CompletionServer.Value.Parts

/-!
# Numerals

Lines, columns, the base that a backend counts them from and the seconds it may take are numbers as
someone gave them: a whole number, a float, or a truth value that counts as zero or one. What was
given is kept, because it is written out again as it came.
-/

namespace CompletionServer

/-- A number as it was given. -/
inductive Numeral where
  | bool (b : Bool)
  | int (n : Int)
  | float (x : Float)
deriving Inhabited

namespace Numeral

/-- The number that a value is. -/
def ofValue? : Value → Option Numeral
  | .bool b => some (.bool b)
  | .int n => some (.int n)
  | .float x => some (.float x)
  | _ => none

def toValue : Numeral → Value
  | .bool b => .bool b
  | .int n => .int n
  | .float x => .float x

/-- The whole number that a numeral is, if it is no float. -/
def whole? : Numeral → Option Int
  | .bool b => some (if b then 1 else 0)
  | .int n => some n
  | .float _ => none

/-- The nearest float; none for a whole number beyond the range of floats. -/
def toFloat? : Numeral → Option Float
  | .bool b => some (if b then 1.0 else 0.0)
  | .int n => Decimal.floatOfInt n
  | .float x => some x

/-- The sum: a whole number unless a float takes part, and then none if the other part is beyond the
range of floats. -/
def add? (a b : Numeral) : Option Numeral :=
  match a.whole?, b.whole? with
  | some m, some n => some (.int (m + n))
  | _, _ => do return .float ((← a.toFloat?) + (← b.toFloat?))

/-- Whether `a` is less than `b`. Neither is rounded. -/
def isLess (a b : Numeral) : Bool :=
  match a, b with
  | .float x, .float y => x < y
  | .float x, b => Decimal.isFloatLess x (b.whole?.getD 0)
  | a, .float y => Decimal.isIntLess (a.whole?.getD 0) y
  | a, b => a.whole?.getD 0 < b.whole?.getD 0

@[simp] theorem ofValue?_toValue (a : Numeral) : ofValue? a.toValue = some a := by
  cases a <;> rfl

end Numeral

/-- A number of seconds: one that a float can hold. -/
structure Seconds where
  numeral : Numeral
  isHeld : numeral.toFloat?.isSome = true

namespace Seconds

/-- The seconds that a float is. -/
def ofFloat (x : Float) : Seconds := ⟨.float x, rfl⟩

/-- The seconds that a numeral is, if a float can hold it. -/
def ofNumeral? (a : Numeral) : Option Seconds :=
  if h : a.toFloat?.isSome then some ⟨a, h⟩ else none

instance : Inhabited Seconds := ⟨ofFloat 0.0⟩

def toValue (s : Seconds) : Value := s.numeral.toValue

end Seconds

end CompletionServer
