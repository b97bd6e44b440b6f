import CompletionServer.Decimal.Reading
import CompletionServer.Json.Error
import CompletionServer.Value.Parts

/-!
# Reading JSON

A reader takes the characters that are left and returns what it read with the characters after it.
Besides the standard notation, `NaN` and the infinities are numbers. Of the values under one name in
an object the last counts, at the place of the first. A surrogate escape that does not belong to a
pair is kept as the half that it is.
-/

namespace CompletionServer.Json

open Text

/-- Stops before the characters `rest`. -/
def stop {α : Type} (d : Defect) (rest : List Char) : Except Stop (α × List Char) :=
  .error (.defect d rest.length)

/-- The blanks that may stand between tokens. -/
def isSpace (c : Char) : Bool := c == ' ' || c == '\t' || c == '\n' || c == '\r'

theorem eq_of_isSpace {c : Char} (h : isSpace c = true) :
    c = ' ' ∨ c = '\t' ∨ c = '\n' ∨ c = '\r' := by
  simpa [isSpace, or_assoc] using h

/-- The characters after the blanks. -/
def skip (s : List Char) : List Char := s.dropWhile isSpace

/-! ## Strings -/

/-- The character that a short escape stands for. -/
def shortEscape? : Char → Option Char
  | '"' => some '"'
  | '\\' => some '\\'
  | '/' => some '/'
  | 'b' => some '\x08'
  | 'f' => some '\x0c'
  | 'n' => some '\n'
  | 'r' => some '\r'
  | 't' => some '\t'
  | _ => none

/-- The number that four hexadecimal digits write. -/
def unit? (a b c d : Char) : Option Nat := readDigits 16 hexDigit? [a, b, c, d]

/-- The points of a string, from the characters after its opening quote. The halves of a pair are
not joined yet. `start` counts the characters left from that quote on. At least one character must
follow the digits of a unicode escape. -/
def pointsFrom (start : Nat) : List Char → Except Stop (List Point × List Char)
  | [] => .error (.defect .unterminatedString start)
  | '"' :: rest => .ok ([], rest)
  | '\\' :: [] => .error (.defect .unterminatedString start)
  | '\\' :: 'u' :: a :: b :: c :: d :: e :: rest =>
    match unit? a b c d with
    | none => stop .unicodeEscape ('u' :: a :: b :: c :: d :: e :: rest)
    | some n => do
      let (found, left) ← pointsFrom start (e :: rest)
      return (.ofNat n :: found, left)
  | '\\' :: c :: rest =>
    if c == 'u' then stop .unicodeEscape (c :: rest)
    else match shortEscape? c with
      | none => stop .escape ('\\' :: c :: rest)
      | some d => do
        let (found, left) ← pointsFrom start rest
        return (.char d :: found, left)
  | c :: rest =>
    if c.toNat < 32 then stop .controlCharacter (c :: rest)
    else do
      let (found, left) ← pointsFrom start rest
      return (.char c :: found, left)

/-- A string, from the characters after its opening quote. -/
def string (rest : List Char) : Except Stop (List Point × List Char) := do
  let (found, left) ← pointsFrom (rest.length + 1) rest
  return (joinPairs found, left)

/-! ## Numbers -/

/-- A point with digits after it, and the characters after these. -/
def fraction : List Char → List Char × List Char
  | '.' :: rest =>
    let digits := rest.takeWhile isDigit
    if digits.isEmpty then ([], '.' :: rest) else ('.' :: digits, rest.dropWhile isDigit)
  | rest => ([], rest)

/-- An exponent mark, a sign or none, and digits; and the characters after these. -/
def exponent : List Char → List Char × List Char
  | [] => ([], [])
  | mark :: rest =>
    if mark == 'e' || mark == 'E' then
      let (sign, digits) := match rest with
        | '-' :: r => (['-'], r)
        | '+' :: r => (['+'], r)
        | r => ([], r)
      let run := digits.takeWhile isDigit
      if run.isEmpty then ([], mark :: rest)
      else (mark :: sign ++ run, digits.dropWhile isDigit)
    else ([], mark :: rest)

/-- A number: whole, unless it has a fraction or an exponent. -/
def number (s : List Char) : Except Stop (Value × List Char) :=
  let (negative, unsigned) := match s with
    | '-' :: rest => (true, rest)
    | _ => (false, s)
  let (whole, rest) := match unsigned with
    | '0' :: rest => (['0'], rest)
    | _ => (unsigned.takeWhile isDigit, unsigned.dropWhile isDigit)
  if whole.isEmpty then stop .expectingValue s
  else
    let (point, rest) := fraction rest
    let (power, rest) := exponent rest
    if point.isEmpty && power.isEmpty then
      if digitLimit < whole.length then .error (.tooManyDigits whole.length)
      else
        let n : Int := (readDigits 10 asciiDigit? whole).getD 0
        .ok (.int (if negative then -n else n), rest)
    else
      .ok (.float ((Decimal.readUnsigned negative (whole ++ point ++ power)).getD 0), rest)

/-! ## Values -/

mutual

/-- One value. -/
def value : (fuel : Nat) → List Char → Except Stop (Value × List Char)
  | 0, s => stop .expectingValue s
  | fuel + 1, s =>
    match s with
    | '"' :: rest => do
      let (text, rest) ← string rest
      return (.ofPoints text, rest)
    | '\x7b' :: rest =>
      match skip rest with
      | '\x7d' :: rest => .ok (.map [], rest)
      | rest => do
        let (found, rest) ← members fuel rest
        return (.map (Keyed.ofList Value.sameKey found), rest)
    | '[' :: rest =>
      match skip rest with
      | ']' :: rest => .ok (.list [], rest)
      | rest => do
        let (found, rest) ← items fuel rest
        return (.list found, rest)
    | 'n' :: 'u' :: 'l' :: 'l' :: rest => .ok (.null, rest)
    | 't' :: 'r' :: 'u' :: 'e' :: rest => .ok (.bool true, rest)
    | 'f' :: 'a' :: 'l' :: 's' :: 'e' :: rest => .ok (.bool false, rest)
    | 'N' :: 'a' :: 'N' :: rest => .ok (.float (0.0 / 0.0), rest)
    | 'I' :: 'n' :: 'f' :: 'i' :: 'n' :: 'i' :: 't' :: 'y' :: rest =>
      .ok (.float (1.0 / 0.0), rest)
    | '-' :: 'I' :: 'n' :: 'f' :: 'i' :: 'n' :: 'i' :: 't' :: 'y' :: rest =>
      .ok (.float (-1.0 / 0.0), rest)
    | s => number s

/-- The items of a list, at least one, with the closing bracket. -/
def items : (fuel : Nat) → List Char → Except Stop (List Value × List Char)
  | 0, s => stop .expectingValue s
  | fuel + 1, s => do
    let (first, rest) ← value fuel s
    match skip rest with
    | ']' :: rest => return ([first], rest)
    | ',' :: rest =>
      let (others, rest) ← items fuel (skip rest)
      return (first :: others, rest)
    | rest => stop .expectingComma rest

/-- The members of an object, at least one, with the closing brace. -/
def members : (fuel : Nat) → List Char → Except Stop (List (Value × Value) × List Char)
  | 0, s => stop .expectingName s
  | fuel + 1, s =>
    match s with
    | '"' :: rest => do
      let (name, rest) ← string rest
      match skip rest with
      | ':' :: rest =>
        let (content, rest) ← value fuel (skip rest)
        match skip rest with
        | '\x7d' :: rest => return ([(.ofPoints name, content)], rest)
        | ',' :: rest =>
          let (others, rest) ← members fuel (skip rest)
          return ((.ofPoints name, content) :: others, rest)
        | rest => stop .expectingComma rest
      | rest => stop .expectingColon rest
    | s => stop .expectingName s

end

/-- A text that is one value with blanks around it. Every step into a value takes at most two steps
of fuel for each character, so the fuel never runs out. -/
def document (s : List Char) : Except Stop Value :=
  match s with
  | '\uFEFF' :: _ => .error (.defect .byteOrderMark s.length)
  | _ => do
    let (v, rest) ← value (2 * s.length + 2) (skip s)
    match skip rest with
    | [] => return v
    | rest => .error (.defect .extraData rest.length)

/-- The value that a text is. -/
def read (s : List Char) : Except Error Value := (document s).mapError (Stop.inText s)

end CompletionServer.Json
