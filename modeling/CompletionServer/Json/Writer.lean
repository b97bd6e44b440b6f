import CompletionServer.Value.Text

/-!
# Writing JSON

The written form is ASCII: every other character is a unicode escape, one beyond the basic plane a
pair of them. A comma and a colon are followed by one space.
-/

namespace CompletionServer.Json

open Text

/-- A unicode escape for one unit. -/
def unitEscape (n : Nat) : List Char := '\\' :: 'u' :: hexDigits 4 n

/-- One character inside a string. -/
def escapeChar (c : Char) : List Char :=
  if c == '"' then ['\\', '"']
  else if c == '\\' then ['\\', '\\']
  else if c == '\n' then ['\\', 'n']
  else if c == '\r' then ['\\', 'r']
  else if c == '\t' then ['\\', 't']
  else if c == '\x0c' then ['\\', 'f']
  else if c == '\x08' then ['\\', 'b']
  else if ' ' ≤ c ∧ c ≤ '~' then [c]
  else if c.toNat < 0x10000 then unitEscape c.toNat
  else
    let n := c.toNat - 0x10000
    unitEscape (0xD800 + n / 0x400) ++ unitEscape (0xDC00 + n % 0x400)

/-- A string with its quotes. -/
def writeString (s : String) : List Char :=
  '"' :: s.toList.flatMap escapeChar ++ ['"']

/-- One point inside a string. -/
def escapePoint : Point → List Char
  | .char c => escapeChar c
  | .half h => unitEscape h.unit

/-- A string of points with its quotes. -/
def writePoints (s : List Point) : List Char :=
  '"' :: s.flatMap escapePoint ++ ['"']

/-- How floats look in JSON. -/
def floatStyle : Decimal.Style :=
  { Decimal.plain with infinity := "Infinity", notANumber := "NaN" }

mutual

/-- The characters of a value. What JSON has no notation for is written as a list or by its text. -/
def writeChars : Value → List Char
  | .null => "null".toList
  | .bool b => (if b then "true" else "false").toList
  | .int n => (toString n).toList
  | .float x => (floatStyle.write x).toList
  | .str s => writeString s
  | .broken s => writePoints s
  | .date d => writeString d.text
  | .moment m => writeString m.text
  | .list [] => ['[', ']']
  | .list (v :: rest) => '[' :: writeChars v ++ writeItems rest
  | .map [] => ['\x7b', '\x7d']
  | .map ((k, v) :: rest) =>
    '\x7b' :: writeString k.text ++ ':' :: ' ' :: writeChars v ++ writeMembers rest
  | .pair first second =>
    '[' :: writeChars first ++ ',' :: ' ' :: writeChars second ++ [']']
  | v => writeString v.text

/-- The items after the first, with the closing bracket. -/
def writeItems : List Value → List Char
  | [] => [']']
  | v :: rest => ',' :: ' ' :: writeChars v ++ writeItems rest

/-- The members after the first, with the closing brace. -/
def writeMembers : List (Value × Value) → List Char
  | [] => ['\x7d']
  | (k, v) :: rest =>
    ',' :: ' ' :: writeString k.text ++ ':' :: ' ' :: writeChars v ++ writeMembers rest

end

/-- The text of a value. -/
def write (v : Value) : String := String.ofList (writeChars v)

end CompletionServer.Json
