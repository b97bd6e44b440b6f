/-!
# Base 64

Bytes written in sixty-four characters: four of them, the digits, stand for three bytes. Characters
that are no digits do not count. The last group may be short; then it is filled up with `=`, and
what follows that does not count either.
-/

namespace CompletionServer.Text.Base64

/-- The value of a digit. -/
def digit? (c : Char) : Option Nat :=
  if 'A' ≤ c ∧ c ≤ 'Z' then some (c.toNat - 65)
  else if 'a' ≤ c ∧ c ≤ 'z' then some (c.toNat - 71)
  else if '0' ≤ c ∧ c ≤ '9' then some (c.toNat + 4)
  else if c == '+' then some 62
  else if c == '/' then some 63
  else none

/-- The bytes of a written text, from inside a group: the number of its digits so far, the bits that
are not part of a byte yet, and the number of `=` since the last digit. None if the text ends inside
a group. -/
def decodeFrom (digits bits fillers : Nat) : List Char → Option (List UInt8)
  | [] => if digits = 0 then some [] else none
  | c :: rest =>
    if c == '=' then
      if digits < 2 then decodeFrom digits bits fillers rest
      else if 4 ≤ digits + fillers + 1 then some []
      else decodeFrom digits bits (fillers + 1) rest
    else match digit? c, digits with
      | none, _ => decodeFrom digits bits fillers rest
      | some d, 0 => decodeFrom 1 d 0 rest
      | some d, 1 => (decodeFrom 2 (d % 16) 0 rest).map ((bits * 4 + d / 16).toUInt8 :: ·)
      | some d, 2 => (decodeFrom 3 (d % 4) 0 rest).map ((bits * 16 + d / 4).toUInt8 :: ·)
      | some d, _ => (decodeFrom 0 0 0 rest).map ((bits * 64 + d).toUInt8 :: ·)

/-- The bytes that a text stands for. -/
def decode (s : List Char) : Option (List UInt8) := decodeFrom 0 0 0 s

end CompletionServer.Text.Base64
