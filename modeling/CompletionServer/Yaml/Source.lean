import CompletionServer.Yaml.Error

/-!
# Places in a YAML text

What is left of a text, with the line and the column reached. Line feeds, next-line characters and
the two Unicode separators end a line; a byte order mark takes no column.

A text need not end where its characters end: a file may go on with something that cannot be read.
That is a fault only where it is reached.
-/

namespace CompletionServer.Yaml

/-- The characters left, and how far the characters before them reach. -/
structure Source where
  rest : List Char
  index : Nat
  line : Nat
  column : Nat
  /-- What follows the last character, if that is not the end of the text. -/
  ending : Option Fault
deriving Repr

/-- Whether `c` ends a line. -/
def isBreak (c : Char) : Bool := c == '\n' || c == '\x85' || c == '\u2028' || c == '\u2029'

/-- A space or a tab. -/
def isGap (c : Char) : Bool := c == ' ' || c == '\t'

/-- Whether the characters begin with a gap or a line end, or are none. -/
def atGap : List Char → Bool
  | [] => true
  | c :: _ => isGap c || isBreak c

/-- Whether the characters begin with a space or a line end, or are none. -/
def atSpace : List Char → Bool
  | [] => true
  | c :: _ => c == ' ' || isBreak c

/-- Whether the characters begin with a line end, or are none. -/
def atLineEnd : List Char → Bool
  | [] => true
  | c :: _ => isBreak c

/-- Whether a document marker stands here. -/
def atMarker : List Char → Bool
  | '-' :: '-' :: '-' :: rest => atGap rest
  | '.' :: '.' :: '.' :: rest => atGap rest
  | _ => false

namespace Source

def ofText (s : List Char) (ending : Option Fault) : Source := ⟨s, 0, 0, 0, ending⟩

/-- The place after one character. -/
def next (s : Source) : Source :=
  match s.rest with
  | [] => s
  | c :: rest =>
    let (line, column) :=
      if isBreak c then (s.line + 1, 0)
      else if c == '\uFEFF' then (s.line, s.column)
      else (s.line, s.column + 1)
    { s with rest, index := s.index + 1, line, column }

/-- The place after `n` characters. -/
def drop (s : Source) : Nat → Source
  | 0 => s
  | n + 1 => s.next.drop n

/-- The longest stretch of characters that `p` allows, and the place after it. -/
def span (s : Source) (p : Char → Bool) : List Char × Source :=
  let taken := s.rest.takeWhile p
  (taken, s.drop taken.length)

/-- The place after the characters that `p` allows. -/
def skip (s : Source) (p : Char → Bool) : Source := (s.span p).2

/-- What is met here, if it is neither a character nor the end of the text. -/
def barrier? (s : Source) : Option Fault := if s.rest.isEmpty then s.ending else none

/-- A defect that is found here. -/
def fault (s : Source) (d : Defect) : Fault :=
  s.barrier?.getD (.malformed ⟨d, some (s.line, s.column)⟩)

def fail {α : Type} (s : Source) (d : Defect) : Except Fault α := .error (s.fault d)

/-- A line end, as it counts in a scalar, and the place after it. -/
def lineBreak? (s : Source) : Option (Char × Source) :=
  match s.rest with
  | [] => none
  | c :: _ =>
    if c == '\n' || c == '\x85' then some ('\n', s.next)
    else if isBreak c then some (c, s.next)
    else none

/-- The place after a comment, if one stands here. -/
def skipComment (s : Source) : Source :=
  if s.rest.head? == some '#' then s.skip fun c ↦ !isBreak c else s

end Source

end CompletionServer.Yaml
