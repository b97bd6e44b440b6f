import CompletionServer.Calendar
import CompletionServer.Text.Digit
import CompletionServer.Text.Quoted
import CompletionServer.Text.Utf8

/-!
# Faults of YAML text

A text may be no YAML document, or hold a scalar that has the shape of a value which does not exist,
such as a day in a thirteenth month. And a file may end in bytes that are no text.
-/

namespace CompletionServer.Yaml

/-- What is wrong with a YAML text. -/
inductive Defect where
  | character
  | tokenStart
  | simpleKey
  | indentation
  | directive
  | anchor
  | tag
  | blockHeader
  | escape
  | unclosedQuote
  | documentMarker
  | unexpectedToken
  | tagHandle
  | undefinedAlias
  | duplicateAnchor
  | severalDocuments
  | nodeKind
  | unknownTag
  | base64
  | entryCount
  | unhashableKey
  | mergeValue
deriving DecidableEq, Repr

/-- A defect, with the line and the column where it was found if they are known. -/
structure Error where
  defect : Defect
  place : Option (Nat × Nat)
deriving DecidableEq, Repr

def Defect.message : Defect → String
  | .character => "a character is not allowed"
  | .tokenStart => "a character cannot start a token"
  | .simpleKey => "a key has no ':' on its line"
  | .indentation => "an entry is not allowed here"
  | .directive => "a directive is malformed"
  | .anchor => "an anchor or alias is malformed"
  | .tag => "a tag is malformed"
  | .blockHeader => "the header of a block scalar is malformed"
  | .escape => "an escape in a quoted scalar is malformed"
  | .unclosedQuote => "a quoted scalar has no end"
  | .documentMarker => "a document marker stands inside a quoted scalar"
  | .unexpectedToken => "a token is not expected here"
  | .tagHandle => "a tag handle is not defined"
  | .undefinedAlias => "an alias has no anchor"
  | .duplicateAnchor => "an anchor is defined twice"
  | .severalDocuments => "there is more than one document"
  | .nodeKind => "a node does not have the kind that its tag asks for"
  | .unknownTag => "a tag is not known"
  | .base64 => "bytes are not written in base 64"
  | .entryCount => "an item does not have exactly one entry"
  | .unhashableKey => "a collection cannot be a key"
  | .mergeValue => "only mappings can be merged"

def Error.message (e : Error) : String :=
  match e.place with
  | none => e.defect.message
  | some (line, column) => s!"{e.defect.message} (line {line + 1}, column {column + 1})"

/-- A scalar whose tag names a kind of value, and whose text gives no value of that kind. -/
inductive ScalarFault where
  | calendar (f : CalendarFault)
  | wholeNumber (base : Nat) (text : List Text.Point)
  | float (text : List Text.Point)
  | tooManyDigits (count : Nat)
  | tooLarge
  | codePoint (n : Nat)
  | truthWord (text : List Text.Point)
  | emptyNumber
  | timestampForm
  /-- A moment that is a mapping. -/
  | timestampKind
deriving DecidableEq, Repr

/-- Why a text gives no value. -/
inductive Fault where
  | malformed (e : Error)
  | impossible (f : ScalarFault)
  | unreadable (f : Text.Utf8.Fault)
deriving DecidableEq, Repr

/-- A defect without a place. -/
def Defect.fault (d : Defect) : Fault := .malformed ⟨d, none⟩

/-- Whether an escaped code point is beyond what a machine word of 32 bits holds. -/
def isBeyondWord (n : Nat) : Bool := 0x80000000 ≤ n

/-- The kind of the fault, as it is reported to a client. -/
def ScalarFault.kind : ScalarFault → String
  | .calendar _ | .wholeNumber _ _ | .float _ | .tooManyDigits _ => "ValueError"
  | .tooLarge => "OverflowError"
  | .codePoint n => if isBeyondWord n then "OverflowError" else "ValueError"
  | .truthWord _ => "KeyError"
  | .emptyNumber => "IndexError"
  | .timestampForm => "AttributeError"
  | .timestampKind => "TypeError"

/-- A text in quotes, of which so many characters are shown at most. -/
def excerpt (length : Nat) (text : List Text.Point) : String :=
  String.ofList ((Text.quotedPoints text).take length)

def ScalarFault.message : ScalarFault → String
  | .calendar f => f.message
  | .wholeNumber base text =>
    s!"invalid literal for int() with base {base}: {excerpt 200 text}"
  | .float text =>
    "could not convert string to float: " ++ String.ofList (Text.quotedPoints text)
  | .tooManyDigits count => Text.tooManyDigitsMessage count
  | .tooLarge => "int too large to convert to float"
  | .codePoint n =>
    if isBeyondWord n then "Python int too large to convert to C int"
    else "chr() arg not in range(0x110000)"
  | .truthWord text => String.ofList (Text.quotedPoints text)
  | .emptyNumber => "string index out of range"
  | .timestampForm => "'NoneType' object has no attribute 'groupdict'"
  | .timestampKind => "expected string or bytes-like object, got 'list'"

end CompletionServer.Yaml
