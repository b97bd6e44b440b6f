import CompletionServer.Decimal.Reading
import CompletionServer.Text.Base64
import CompletionServer.Text.Case
import CompletionServer.Value.Basic
import CompletionServer.Yaml.Error
import CompletionServer.Yaml.Schema

/-!
# The values of scalars

Once the tag of a scalar is known, its text gives the value, or there is none: a thirteenth month
has the form of a moment. A tag may also be written out before any text, so no form is taken for
granted.

Underscores in numbers do not count, and a number with colons is written in base sixty.
-/

namespace CompletionServer.Yaml

open Text

/-! ## Whole numbers -/

/-- The value of a digit or a letter below `base`. -/
def anyDigit? (base : Nat) (c : Char) : Option Nat :=
  let value := (hexDigit? c).orElse fun _ ↦ digitValue? c
  value.filter fun n ↦ n < base

/-- The digits after a mark of the base, if there is one. -/
def unmarked (base : Nat) : List Char → List Char
  | '0' :: c :: rest =>
    let mark := if base == 2 then ['b', 'B'] else if base == 8 then ['o', 'O']
      else if base == 16 then ['x', 'X'] else []
    if mark.contains c then rest else '0' :: c :: rest
  | s => s

/-- A whole number in a base, with blanks around it, a sign and a mark of the base as it may have.
-/
def readWhole (base : Nat) (text : List Point) : Except ScalarFault Int :=
  let (negative, body) := Decimal.takeSign (trimWhere isMargin (text.map Point.toChar))
  let digits := unmarked base body
  match digits.isEmpty, readDigits base (anyDigit? base) digits with
  | false, some n =>
    if base == 10 && digitLimit < digits.length then .error (.tooManyDigits digits.length)
    else .ok (if negative then -(n : Int) else n)
  | _, _ => .error (.wholeNumber base text)

def withoutUnderscores (s : List Point) : List Point := s.filter (· != .char '_')

/-- A scalar cut into its sign and the rest. There must be something before the sign is taken. -/
def signed : List Point → Except ScalarFault (Bool × List Point)
  | [] => .error .emptyNumber
  | .char '-' :: rest => .ok (true, rest)
  | .char '+' :: rest => .ok (false, rest)
  | s => .ok (false, s)

/-- The whole number of a scalar. -/
def whole (s : List Point) : Except ScalarFault Int := do
  let (negative, body) ← signed (withoutUnderscores s)
  let magnitude ←
    match body with
    | [] => throw .emptyNumber
    | [ .char '0'] => pure 0
    | .char '0' :: .char 'b' :: rest => readWhole 2 rest
    | .char '0' :: .char 'x' :: rest => readWhole 16 rest
    | .char '0' :: _ => readWhole 8 body
    | _ =>
      if body.contains (.char ':') then
        let digits ← (splitWhere (· == .char ':') body).mapM (readWhole 10)
        pure (digits.foldl (fun n d ↦ n * 60 + d) 0)
      else readWhole 10 body
  return if negative then -magnitude else magnitude

/-! ## Floats -/

def readFloat (text : List Point) : Except ScalarFault Float :=
  match Decimal.readText (text.map Point.toChar) with
  | some x => .ok x
  | none => .error (.float text)

/-- The sum of `digits` in base sixty, the least of them first, added up in that order. -/
def sexagesimal : (sum : Float) → (place : Nat) → List Float → Except ScalarFault Float
  | sum, _, [] => .ok sum
  | sum, place, d :: rest =>
    match Decimal.floatOfInt place with
    | some scale => sexagesimal (sum + d * scale) (place * 60) rest
    | none => .error .tooLarge

/-- The word for what is no number. -/
def notANumber : List Point := points ".nan".toList

/-- The float of a scalar. -/
def float (s : List Point) : Except ScalarFault Float := do
  let (negative, body) ← signed (lower (withoutUnderscores s))
  if body == notANumber then return 0.0 / 0.0
  let magnitude ←
    if body == points ".inf".toList then pure (1.0 / 0.0)
    else if body.contains (.char ':') then
      let digits ← (splitWhere (· == .char ':') body).mapM readFloat
      sexagesimal 0.0 1 digits.reverse
    else readFloat body
  return if negative then -1.0 * magnitude else magnitude

/-- Whether a float is written with the word for what is no number. -/
def isNotANumber (s : List Point) : Bool :=
  match signed (lower (withoutUnderscores s)) with
  | .ok (_, body) => body == notANumber
  | .error _ => false

/-! ## Days and moments -/

/-- The number that ASCII digits write; zero where there are none. -/
def count (digits : List Char) : Nat := (readDigits 10 asciiDigit? digits).getD 0

/-- The minutes by which a written zone is ahead of universal time. -/
def Timestamp.offset (t : Timestamp) : Option Int :=
  match t.zone with
  | none => none
  | some 'Z' => some 0
  | some sign =>
    let minutes : Int := count t.zoneHour * 60 + count t.zoneMinute
    some (if sign == '-' then -minutes else minutes)

/-- The microseconds of a written fraction, of which six digits count. -/
def microseconds (fraction : List Char) : Nat :=
  let digits := fraction.take 6
  count (digits ++ List.replicate (6 - digits.length) '0')

/-- The day or the moment of a scalar. A line feed at its end makes no difference. -/
def timestamp (s : List Point) : Except ScalarFault Value := do
  match readTimestamp (withoutLineFeed (s.map Point.toChar)) with
  | none => throw .timestampForm
  | some t =>
    let date : Date := ⟨count t.year, count t.month, count t.day⟩
    if t.hour.isEmpty then return .date (← date.check.mapError .calendar)
    else
      let moment : Moment :=
        ⟨date, count t.hour, count t.minute, count t.second, microseconds t.fraction, t.offset⟩
      return .moment (← moment.check.mapError .calendar)

/-! ## All scalars -/

/-- The truth value of a scalar. -/
def truth (text : List Point) : Except ScalarFault Bool :=
  let word := lower text
  match truthWords.find? fun w ↦ points w.1.toList == word with
  | some (_, b) => .ok b
  | none => .error (.truthWord word)

/-- The bytes of a scalar, which is ASCII text. -/
def bytesOf (text : List Point) : Except Defect (List UInt8) :=
  let isAscii := text.all (·.satisfies fun c ↦ c.toNat < 0x80)
  match isAscii, Base64.decode (text.map Point.toChar) with
  | true, some bs => .ok bs
  | _, _ => .error .base64

/-- Whether scalars with this tag have a value. -/
def Tag.isScalar : Tag → Bool
  | .null | .bool | .int | .float | .timestamp | .str | .binary => true
  | _ => false

/-- The value of a scalar with a tag of scalars; any other tag leaves the text. -/
def scalarValue (tag : Tag) (text : List Point) : Except Fault Value :=
  match tag with
  | .null => .ok .null
  | .bool => return .bool (← (truth text).mapError .impossible)
  | .int => return .int (← (whole text).mapError .impossible)
  | .float => return .float (← (float text).mapError .impossible)
  | .timestamp => (timestamp text).mapError .impossible
  | .binary => return .bytes (← (bytesOf text).mapError Defect.fault)
  | _ => .ok (.ofPoints text)

end CompletionServer.Yaml
