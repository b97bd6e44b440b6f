import CompletionServer.Decimal.Binary
import CompletionServer.Text.Blank
import CompletionServer.Text.Digit

/-!
# Reading decimals

A written number is an optional sign, digits with at most one point among them, and an optional
exponent. Its value is rounded once, to the nearest double; one that is too large is infinite.

Free text may also surround the number with blanks, use the digits of any script, put single
underscores between digits, and name infinity and the absent number.
-/

namespace CompletionServer.Decimal

open Text

/-- The double nearest to `±mantissa * 10 ^ exponent`. Beyond the range of doubles the power is not
computed. -/
def floatOfDecimal (negative : Bool) (mantissa : Nat) (exponent : Int) : Float :=
  let infinite := if negative then -1.0 / 0.0 else 1.0 / 0.0
  let nothing := if negative then -0.0 else 0.0
  if mantissa == 0 then nothing
  else
    -- A quarter and a third of the binary logarithm lie on either side of the decimal one.
    if 310 < exponent + mantissa.log2 / 4 then infinite
    else if exponent + mantissa.log2 / 3 < -340 then nothing
    else if 0 ≤ exponent then
      (floatOfRatio negative (mantissa * tenPow exponent.toNat) 1).getD infinite
    else (floatOfRatio negative mantissa (tenPow (-exponent).toNat)).getD infinite

/-- An optional sign and what follows it. -/
def takeSign : List Char → Bool × List Char
  | '-' :: s => (true, s)
  | '+' :: s => (false, s)
  | s => (false, s)

/-- The value of an exponent part, sign and digits; `none` where it is neither. -/
def readExponent (s : List Char) : Option Int :=
  let (negative, digits) := takeSign s
  if digits.isEmpty then none
  else (readDigits 10 asciiDigit? digits).map fun n ↦ if negative then -(n : Int) else n

/-- The value of an unsigned number of ASCII digits, with a point and an exponent as it may have. -/
def readUnsigned (negative : Bool) (s : List Char) : Option Float := do
  let whole := s.takeWhile isDigit
  let afterWhole := s.dropWhile isDigit
  let (fraction, tail) := match afterWhole with
    | '.' :: r => (r.takeWhile isDigit, r.dropWhile isDigit)
    | r => ([], r)
  if whole.isEmpty && fraction.isEmpty then none
  else
    let mantissa ← readDigits 10 asciiDigit? (whole ++ fraction)
    let exponent ← match tail with
      | [] => some 0
      | c :: r => if c == 'e' || c == 'E' then readExponent r else none
    some (floatOfDecimal negative mantissa (exponent - fraction.length))

/-- The digits of all scripts as ASCII digits; other characters as they are. -/
def asciiDigits (s : List Char) : List Char :=
  s.map fun c ↦ match digitValue? c with
    | some n => Char.ofNat (48 + n)
    | none => c

/-- The text without its underscores, if each of them stands between two digits. -/
def dropUnderscores : (afterDigit : Bool) → List Char → Option (List Char)
  | _, [] => some []
  | afterDigit, '_' :: s =>
    match s with
    | c :: _ => if afterDigit && isDigit c then dropUnderscores false s else none
    | [] => none
  | _, c :: s => (dropUnderscores (isDigit c) s).map (c :: ·)

/-- The value of a text as a number. -/
def readText (s : List Char) : Option Float := do
  let (negative, body) := takeSign (asciiDigits (trimWhere isMargin s))
  let name := String.ofList (body.map Char.toLower)
  if name == "inf" || name == "infinity" then
    return if negative then -1.0 / 0.0 else 1.0 / 0.0
  else if name == "nan" then return 0.0 / 0.0
  else readUnsigned negative (← dropUnderscores false body)

end CompletionServer.Decimal
