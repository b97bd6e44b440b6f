import CompletionServer.Text.Digit
import CompletionServer.Text.Place

/-!
# Faults of JSON text

A fault has a place: the number of characters before it, and the line and column that follow from
them. Apart from faults of the notation there is one of size: a whole number with too many digits.
-/

namespace CompletionServer.Json

/-- What is wrong with a JSON text. -/
inductive Defect where
  | byteOrderMark
  | expectingValue
  | expectingName
  | expectingColon
  | expectingComma
  | extraData
  | unterminatedString
  | controlCharacter
  | escape
  | unicodeEscape
deriving DecidableEq, Repr

/-- Where a reader stops: a defect with `left` characters unread, or a whole number of `count`
digits. -/
inductive Stop where
  | defect (d : Defect) (left : Nat)
  | tooManyDigits (count : Nat)
deriving DecidableEq, Repr

/-- A stop of a reader of a whole text, with its place in the text. -/
inductive Error where
  | defect (d : Defect) (line column position : Nat)
  | tooManyDigits (count : Nat)
deriving DecidableEq, Repr

/-- The place of a stop in `text`. -/
def Stop.inText (text : List Char) : Stop → Error
  | .defect d left =>
    let position := Text.placeOf text left
    let (line, column) := Text.lineColumn (text.take position)
    .defect d line column position
  | .tooManyDigits count => .tooManyDigits count

def Defect.message : Defect → String
  | .byteOrderMark => "Unexpected UTF-8 BOM (decode using utf-8-sig)"
  | .expectingValue => "Expecting value"
  | .expectingName => "Expecting property name enclosed in double quotes"
  | .expectingColon => "Expecting ':' delimiter"
  | .expectingComma => "Expecting ',' delimiter"
  | .extraData => "Extra data"
  | .unterminatedString => "Unterminated string starting at"
  | .controlCharacter => "Invalid control character at"
  | .escape => "Invalid \\escape"
  | .unicodeEscape => "Invalid \\uXXXX escape"

def Error.message : Error → String
  | .defect d line column position =>
    s!"{d.message}: line {line} column {column} (char {position})"
  | .tooManyDigits count => Text.tooManyDigitsMessage count

end CompletionServer.Json
