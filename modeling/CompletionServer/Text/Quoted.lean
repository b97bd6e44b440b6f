import CompletionServer.Text.Point
import CompletionServer.Text.Printable

/-!
# Quoted text

A text as it stands inside a written collection: in single quotes, or in double quotes when it holds
a single quote and no double one. The quote in use, the backslash and every character that is not
printable are escaped, and so is a half of a pair of surrogates that stands alone. Bytes look like
ASCII text, with escapes for all other bytes.
-/

namespace CompletionServer.Text

/-- `n` in `width` lower-case hexadecimal digits. -/
def hexDigits : (width : Nat) → Nat → List Char
  | 0, _ => []
  | width + 1, n => hexDigits width (n / 16) ++ [Nat.digitChar (n % 16)]

/-- One character between quotes `quote`. -/
def quotedChar (quote c : Char) : List Char :=
  if c == quote || c == '\\' then ['\\', c]
  else if c == '\n' then ['\\', 'n']
  else if c == '\r' then ['\\', 'r']
  else if c == '\t' then ['\\', 't']
  else if isPrintable c then [c]
  else if c.toNat < 0x100 then '\\' :: 'x' :: hexDigits 2 c.toNat
  else if c.toNat < 0x10000 then '\\' :: 'u' :: hexDigits 4 c.toNat
  else '\\' :: 'U' :: hexDigits 8 c.toNat

/-- One point between quotes. -/
def quotedPoint (quote : Char) : Point → List Char
  | .char c => quotedChar quote c
  | .half h => '\\' :: 'u' :: hexDigits 4 h.unit

/-- The quotes that need the fewer escapes, the single ones if both do. -/
def quoteFor {α : Type} [BEq α] (ofChar : Char → α) (s : List α) : Char :=
  if s.contains (ofChar '\'') && !s.contains (ofChar '"') then '"' else '\''

/-- The points in quotes. -/
def quotedPoints (s : List Point) : List Char :=
  let quote := quoteFor .char s
  quote :: s.flatMap (quotedPoint quote) ++ [quote]

/-- The text in quotes. -/
def quoted (s : String) : String := String.ofList (quotedPoints (points s.toList))

/-! ## Bytes -/

/-- One byte between quotes. -/
def quotedByte (quote : Char) (b : UInt8) : List Char :=
  if 0x20 ≤ b ∧ b < 0x7F ∨ b = 9 ∨ b = 10 ∨ b = 13 then quotedChar quote (Char.ofNat b.toNat)
  else '\\' :: 'x' :: hexDigits 2 b.toNat

/-- The bytes in quotes, after a mark that says that they are no characters. -/
def quotedBytes (bs : List UInt8) : List Char :=
  let quote := quoteFor (fun c ↦ c.toNat.toUInt8) bs
  'b' :: quote :: bs.flatMap (quotedByte quote) ++ [quote]

end CompletionServer.Text
