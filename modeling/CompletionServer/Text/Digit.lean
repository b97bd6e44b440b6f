/-!
# Decimal digits

The characters of the Unicode 14 general category `Nd` come in runs of ten, zero to nine. A number
may be written with the digits of any of these scripts.
-/

namespace CompletionServer.Text

/-- The zeros of the scripts that have decimal digits. -/
def digitZeros : List Nat := [
    0x30, 0x660, 0x6f0, 0x7c0, 0x966, 0x9e6, 0xa66, 0xae6, 0xb66, 0xbe6, 0xc66, 0xce6, 0xd66,
    0xde6, 0xe50, 0xed0, 0xf20, 0x1040, 0x1090, 0x17e0, 0x1810, 0x1946, 0x19d0, 0x1a80, 0x1a90,
    0x1b50, 0x1bb0, 0x1c40, 0x1c50, 0xa620, 0xa8d0, 0xa900, 0xa9d0, 0xa9f0, 0xaa50, 0xabf0,
    0xff10, 0x104a0, 0x10d30, 0x11066, 0x110f0, 0x11136, 0x111d0, 0x112f0, 0x11450, 0x114d0,
    0x11650, 0x116c0, 0x11730, 0x118e0, 0x11950, 0x11c50, 0x11d50, 0x11da0, 0x16a60, 0x16ac0,
    0x16b50, 0x1d7ce, 0x1d7d8, 0x1d7e2, 0x1d7ec, 0x1d7f6, 0x1e140, 0x1e2f0, 0x1e950, 0x1fbf0]

/-- The value of a decimal digit of any script. -/
def digitValue? (c : Char) : Option Nat :=
  (digitZeros.find? fun start ↦ start ≤ c.toNat && c.toNat < start + 10).map (c.toNat - ·)

/-- The value of an ASCII digit. -/
def asciiDigit? (c : Char) : Option Nat :=
  if '0' ≤ c ∧ c ≤ '9' then some (c.toNat - 48) else none

/-- The value of a hexadecimal digit, of either case. -/
def hexDigit? (c : Char) : Option Nat :=
  if '0' ≤ c ∧ c ≤ '9' then some (c.toNat - 48)
  else if 'a' ≤ c ∧ c ≤ 'f' then some (c.toNat - 87)
  else if 'A' ≤ c ∧ c ≤ 'F' then some (c.toNat - 55)
  else none

theorem hexDigit?_eq_some {c : Char} {n : Nat} (h : hexDigit? c = some n) :
    (48 ≤ c.toNat ∧ c.toNat ≤ 57 ∧ c.toNat - 48 = n) ∨
      (97 ≤ c.toNat ∧ c.toNat ≤ 102 ∧ c.toNat - 87 = n) ∨
      (65 ≤ c.toNat ∧ c.toNat ≤ 70 ∧ c.toNat - 55 = n) := by
  unfold hexDigit? at h
  split at h
  · next hc => exact .inl ⟨hc.1, hc.2, Option.some.inj h⟩
  · split at h
    · next hc => exact .inr (.inl ⟨hc.1, hc.2, Option.some.inj h⟩)
    · split at h
      · next hc => exact .inr (.inr ⟨hc.1, hc.2, Option.some.inj h⟩)
      · cases h

theorem hexDigit?_lt {c : Char} {n : Nat} (h : hexDigit? c = some n) : n < 16 := by
  have h := hexDigit?_eq_some h
  omega

/-- Whether `c` is an ASCII digit. -/
def isDigit (c : Char) : Bool := (asciiDigit? c).isSome

theorem isDigit_iff {c : Char} : isDigit c = true ↔ 48 ≤ c.toNat ∧ c.toNat ≤ 57 := by
  unfold isDigit asciiDigit?
  split
  · next h => exact iff_of_true rfl h
  · next h => exact iff_of_false Bool.false_ne_true h

/-- Whether `c` is a hexadecimal digit. -/
def isHexDigit (c : Char) : Bool := (hexDigit? c).isSome

/-- The number that `digits` write in base `base`, each read by `value`; `none` where one is no
digit. -/
def readDigits (base : Nat) (value : Char → Option Nat) (digits : List Char) : Option Nat :=
  digits.foldlM (fun n c ↦ (value c).map (n * base + ·)) 0

/-! ## The limit -/

/-- The most digits that a whole number may have where it is read or written. -/
def digitLimit : Nat := 4300

/-- What is wrong with a written number of `count` digits. -/
def tooManyDigitsMessage (count : Nat) : String :=
  s!"Exceeds the limit ({digitLimit} digits) for integer string conversion: value has {count} "
    ++ "digits; use sys.set_int_max_str_digits() to increase the limit"

/-- What is wrong with a number that has too many digits to be written. -/
def unwritableMessage : String :=
  s!"Exceeds the limit ({digitLimit} digits) for integer string conversion; "
    ++ "use sys.set_int_max_str_digits() to increase the limit"

end CompletionServer.Text
