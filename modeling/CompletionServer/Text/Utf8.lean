/-!
# UTF-8

Bytes are cut into *segments*: a scalar value, or a stretch of bytes that is malformed. A malformed
stretch is as long as it can be while it still begins some well-formed character, so one broken
character is one segment however many of its bytes are there. The strict reader stops at the first
malformed segment; the lenient one puts U+FFFD in place of each.

The cutting is one step per byte, from a state that says how many bytes are still owed.
-/

namespace CompletionServer.Text.Utf8

/-! ## Segments -/

/-- Why a stretch of bytes is no character. -/
inductive Defect where
  /-- A byte that begins no character. -/
  | startByte
  /-- A character that another byte cuts short. -/
  | continuationByte
  /-- A character that the end of the bytes cuts short. -/
  | truncated
deriving DecidableEq, Repr

/-- One character, or one malformed stretch with its first byte and its length. -/
inductive Segment where
  | char (c : Char)
  | malformed (defect : Defect) (first : UInt8) (length : Nat)
deriving DecidableEq, Repr

/-- Between two characters, or inside one: the bytes still owed, the bounds of the next of them,
the value so far, the first byte and the number of bytes read. -/
inductive State where
  | between
  | within (owed : Nat) (low high : UInt8) (value : Nat) (first : UInt8) (length : Nat)
deriving DecidableEq, Repr

/-- Reads the first byte of a character. -/
def begin (b : UInt8) : List Segment × State :=
  if b < 0x80 then ([.char (Char.ofNat b.toNat)], .between)
  else if b < 0xC2 then ([.malformed .startByte b 1], .between)
  else if b < 0xE0 then ([], .within 1 0x80 0xBF (b.toNat - 0xC0) b 1)
  else if b == 0xE0 then ([], .within 2 0xA0 0xBF 0 b 1)
  else if b == 0xED then ([], .within 2 0x80 0x9F 0xD b 1)
  else if b < 0xF0 then ([], .within 2 0x80 0xBF (b.toNat - 0xE0) b 1)
  else if b == 0xF0 then ([], .within 3 0x90 0xBF 0 b 1)
  else if b < 0xF4 then ([], .within 3 0x80 0xBF (b.toNat - 0xF0) b 1)
  else if b == 0xF4 then ([], .within 3 0x80 0x8F 4 b 1)
  else ([.malformed .startByte b 1], .between)

/-- Reads one byte. A byte that does not fit ends the stretch before it and is then a first byte. -/
def step : State → UInt8 → List Segment × State
  | .between, b => begin b
  | .within owed low high value first length, b =>
    if low ≤ b ∧ b ≤ high then
      let value := value * 64 + (b.toNat - 0x80)
      if owed ≤ 1 then ([.char (Char.ofNat value)], .between)
      else ([], .within (owed - 1) 0x80 0xBF value first (length + 1))
    else
      let (found, next) := begin b
      (.malformed .continuationByte first length :: found, next)

/-- The segments of `bytes`, read from a state. -/
def segmentsFrom : State → List UInt8 → List Segment
  | .between, [] => []
  | .within _ _ _ _ first length, [] => [.malformed .truncated first length]
  | state, b :: bytes => (step state b).1 ++ segmentsFrom (step state b).2 bytes

/-- The segments of `bytes`. -/
def segments (bytes : List UInt8) : List Segment := segmentsFrom .between bytes

/-! ## The two readers and the writer -/

/-- What the lenient reader makes of a segment. -/
def Segment.lenient : Segment → Char
  | .char c => c
  | .malformed .. => '\uFFFD'

/-- The text of `bytes`, with U+FFFD in place of every malformed segment. -/
def decodeLenient (bytes : List UInt8) : List Char := (segments bytes).map Segment.lenient

/-- Where and why the strict reader stops: the stretch from `start`, `length` bytes long. -/
structure Fault where
  defect : Defect
  first : UInt8
  start : Nat
  length : Nat
deriving DecidableEq, Repr

/-- The characters of the segments up to the first malformed one; `offset` bytes lie before them. -/
def strict : Nat → List Segment → Except Fault (List Char)
  | _, [] => .ok []
  | offset, .char c :: rest => return c :: (← strict (offset + c.utf8Size) rest)
  | offset, .malformed defect first length :: _ => .error ⟨defect, first, offset, length⟩

/-- The text of `bytes`, if every one of them belongs to a character. -/
def decode (bytes : List UInt8) : Except Fault (List Char) := strict 0 (segments bytes)

/-- The bytes of a text. -/
def encode (s : List Char) : List UInt8 := s.flatMap String.utf8EncodeChar

/-! ## Wording -/

def Defect.message : Defect → String
  | .startByte => "invalid start byte"
  | .continuationByte => "invalid continuation byte"
  | .truncated => "unexpected end of data"

/-- Two lower-case hexadecimal digits. -/
def hexByte (b : UInt8) : String :=
  String.ofList [Nat.digitChar (b.toNat / 16), Nat.digitChar (b.toNat % 16)]

/-- One byte is named with its value, several only by their positions. -/
def Fault.message (f : Fault) : String :=
  if f.length ≤ 1 then
    s!"'utf-8' codec can't decode byte 0x{hexByte f.first} in position {f.start}: "
      ++ f.defect.message
  else
    s!"'utf-8' codec can't decode bytes in position {f.start}-{f.start + f.length - 1}: "
      ++ f.defect.message

end CompletionServer.Text.Utf8
