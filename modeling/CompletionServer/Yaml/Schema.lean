import CompletionServer.Text.Blank
import CompletionServer.Text.Digit
import CompletionServer.Yaml.Node

/-!
# What plain scalars stand for

A plain scalar without a tag is a truth value, a number, null or a moment if it has the form of one,
and a text otherwise. The forms are those of YAML 1.1: whole numbers in four bases and base sixty,
floats with a point, and truth values with nine spellings each.
-/

namespace CompletionServer.Yaml

open Text

/-! ## Forms -/

/-- The spellings of a truth value. -/
def truthWords : List (String × Bool) :=
  [("yes", true), ("no", false), ("true", true), ("false", false), ("on", true), ("off", false)]

/-- A word in lower case, with a capital, and in upper case. -/
def spellings (word : String) : List String := [word, word.capitalize, word.toUpper]

def isTruthWord (s : String) : Bool := truthWords.any fun w ↦ (spellings w.1).contains s

def isNullWord (s : String) : Bool := s == "" || s == "~" || (spellings "null").contains s

def digitsOf (base : Nat) (c : Char) : Bool :=
  match hexDigit? c with
  | some n => n < base
  | none => false

/-- Digits of a base and underscores, at least one character. -/
def isRun (base : Nat) (s : List Char) : Bool :=
  !s.isEmpty && s.all fun c ↦ c == '_' || digitsOf base c

/-- A digit with digits and underscores after it. -/
def isCount (s : List Char) : Bool :=
  match s with
  | c :: rest => isDigit c && rest.all fun c ↦ c == '_' || isDigit c
  | [] => false

/-- The text after a sign, if there is one. -/
def unsigned : List Char → List Char
  | '-' :: s => s
  | '+' :: s => s
  | s => s

/-- A number below sixty, in one digit or two. -/
def isSixtieth : List Char → Bool
  | [a] => isDigit a
  | [a, b] => digitsOf 6 a && isDigit b
  | _ => false

/-- A whole number. -/
def isWhole (s : List Char) : Bool :=
  let s := unsigned s
  match s with
  | '0' :: 'b' :: rest => isRun 2 rest
  | '0' :: 'x' :: rest => isRun 16 rest
  | ['0'] => true
  | '0' :: rest => isRun 8 rest
  | _ =>
    match splitWhere (· == ':') s with
    | first :: others => isCount first && others.all isSixtieth
    | [] => false

/-- Nothing, or an exponent with its sign. -/
def isExponent : List Char → Bool
  | [] => true
  | mark :: sign :: digits =>
    (mark == 'e' || mark == 'E') && (sign == '+' || sign == '-') && !digits.isEmpty
      && digits.all isDigit
  | _ => false

/-- The text after the digits and underscores at its start. -/
def afterRun (s : List Char) : List Char := s.dropWhile fun c ↦ c == '_' || isDigit c

/-- A float. -/
def isFloat (s : List Char) : Bool :=
  let body := unsigned s
  let before := body.takeWhile (· != '.')
  match body.dropWhile (· != '.') with
  | [] => false
  | _ :: after =>
    if before.isEmpty then
      (spellings "inf").contains (String.ofList after)
        || (body == s && ((String.ofList after == "nan" || String.ofList after == "NaN"
              || String.ofList after == "NAN")
            || ((after.head?.map isDigit).getD false && isExponent (afterRun after))))
    else
      match splitWhere (· == ':') before with
      | [whole] => isCount whole && isExponent (afterRun after)
      | whole :: others => isCount whole && others.all isSixtieth && (afterRun after).isEmpty
      | [] => false

/-! ## Moments -/

/-- The parts of a written day or moment. A part that is missing is empty. -/
structure Timestamp where
  year : List Char
  month : List Char
  day : List Char
  hour : List Char
  minute : List Char
  second : List Char
  fraction : List Char
  /-- The sign of the offset, `Z` for universal time. -/
  zone : Option Char
  zoneHour : List Char
  zoneMinute : List Char
deriving DecidableEq, Repr

/-- The digits at the start of a text, if there are between `least` and `most`, and what follows. -/
def takeDigits (least most : Nat) (s : List Char) : Option (List Char × List Char) :=
  let digits := s.takeWhile isDigit
  if least ≤ digits.length ∧ digits.length ≤ most then some (digits, s.drop digits.length) else none

/-- What follows `c`. -/
def expect (c : Char) : List Char → Option (List Char)
  | d :: rest => if c == d then some rest else none
  | [] => none

/-- The zone at the end of a moment, with gaps before it. -/
def readZone (t : Timestamp) (s : List Char) : Option Timestamp :=
  let isGap (c : Char) : Bool := c == ' ' || c == '\t'
  match s with
  | [] => some t
  | _ =>
    match s.dropWhile isGap with
    | ['Z'] => some { t with zone := some 'Z' }
    | sign :: rest =>
      if sign == '+' || sign == '-' then do
        let (hour, rest) ← takeDigits 1 2 rest
        match rest with
        | [] => some { t with zone := some sign, zoneHour := hour }
        | rest =>
          let (minute, rest) ← takeDigits 2 2 (← expect ':' rest)
          if rest.isEmpty then
            some { t with zone := some sign, zoneHour := hour, zoneMinute := minute }
          else none
      else none
    | [] => none

/-- The parts of a day or a moment. -/
def readTimestamp (s : List Char) : Option Timestamp := do
  let isGap (c : Char) : Bool := c == ' ' || c == '\t'
  let (year, rest) ← takeDigits 4 4 s
  let (month, rest) ← takeDigits 1 2 (← expect '-' rest)
  let (day, rest) ← takeDigits 1 2 (← expect '-' rest)
  match rest with
  | [] => some ⟨year, month, day, [], [], [], [], none, [], []⟩
  | c :: _ =>
    let clock ←
      if c == 'T' || c == 't' then some (rest.drop 1)
      else if isGap c then some (rest.dropWhile isGap)
      else none
    let (hour, rest) ← takeDigits 1 2 clock
    let (minute, rest) ← takeDigits 2 2 (← expect ':' rest)
    let (second, rest) ← takeDigits 2 2 (← expect ':' rest)
    let (fraction, rest) := match rest with
      | '.' :: rest => (rest.takeWhile isDigit, rest.dropWhile isDigit)
      | rest => ([], rest)
    readZone ⟨year, month, day, hour, minute, second, fraction, none, [], []⟩ rest

/-- Whether a scalar without a tag is a day or a moment. A lone day then has two digits for the
month and two for the day. -/
def isTimestamp (s : List Char) : Bool :=
  match readTimestamp s with
  | some t => !t.hour.isEmpty || (t.month.length == 2 && t.day.length == 2)
  | none => false

/-! ## Resolution -/

/-- What a line of characters stands for. -/
def resolveLine (s : List Char) : Tag :=
  let text := String.ofList s
  if isTruthWord text then .bool
  else if isFloat s then .float
  else if isWhole s then .int
  else if text == "<<" then .merge
  else if isNullWord text then .null
  else if isTimestamp s then .timestamp
  else if text == "=" then .value
  else .str

/-- A text without a line feed at its end. -/
def withoutLineFeed (s : List Char) : List Char :=
  if s.getLast? == some '\n' then s.dropLast else s

/-- What a scalar without a tag stands for. A line feed at its end makes no difference, unless it is
all there is. -/
def resolve (text : List Point) : Tag :=
  match chars? text with
  | none => .str
  | some ['\n'] => .str
  | some s => resolveLine (withoutLineFeed s)

end CompletionServer.Yaml
