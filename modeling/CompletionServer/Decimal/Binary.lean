/-!
# Binary fractions

A finite double is `mantissa * 2 ^ exponent`. Rounding a ratio of natural numbers to such a number
is done here in exact arithmetic: the mantissa is the quotient to the nearest whole number, a tie
going to the even one, on the grid that leaves 53 bits or ends at `2 ^ -1074`. Reading a decimal and
turning a whole number into a float are both this rounding.
-/

namespace CompletionServer.Decimal

/-- A power of two. -/
def twoPow (n : Nat) : Nat := Nat.pow 2 n

/-- A power of ten. -/
def tenPow (n : Nat) : Nat := Nat.pow 10 n

theorem twoPow_succ (n : Nat) : twoPow (n + 1) = twoPow n * 2 := rfl

theorem twoPow_pos (n : Nat) : 0 < twoPow n := by
  induction n with
  | zero => decide
  | succ n ih => rw [twoPow_succ]; omega

/-- A magnitude `mantissa * 2 ^ exponent`. -/
structure Binary where
  mantissa : Nat
  exponent : Int
deriving DecidableEq, Repr

/-- Whether the sign bit is set. -/
def isNegative (bits : UInt64) : Bool := bits >>> 63 == 1

/-- The magnitude of the finite double with these bits. -/
def Binary.ofBits (bits : UInt64) : Binary :=
  let scale := ((bits >>> 52) &&& 0x7FF).toNat
  let fraction := (bits &&& 0xFFFFFFFFFFFFF).toNat
  if scale == 0 then ⟨fraction, -1074⟩ else ⟨fraction + twoPow 52, scale - 1075⟩

/-- The ratio as a whole number, a half going to the even neighbour. -/
def roundHalfEven (num den : Nat) : Nat :=
  let floor := num / den
  let twice := 2 * (num % den)
  if twice < den then floor
  else if den < twice then floor + 1
  else floor + floor % 2

/-- `num * 2 ^ (-shift) / den` to the nearest whole number. -/
def roundShifted (num den : Nat) (shift : Int) : Nat :=
  if 0 ≤ shift then roundHalfEven num (den * twoPow shift.toNat)
  else roundHalfEven (num * twoPow (-shift).toNat) den

/-- The exponent of the grid on which `num / den` has 53 bits, or 54 by a hair. -/
def gridExponent (num den : Nat) : Int :=
  max (-1074) ((num.log2 : Int) - den.log2 - 53)

/-- The bits of the double nearest to `num / den`; `none` where that is too large for a double. -/
def bitsOfRatio (num den : Nat) : Option UInt64 :=
  if num == 0 then some 0
  else
    -- The first grid may leave 54 bits; the next one then leaves 53.
    let first := gridExponent num den
    let exponent := if roundShifted num den first < twoPow 53 then first else first + 1
    let mantissa := roundShifted num den exponent
    -- Rounding up to the next power of two keeps one bit too many, all zeros but the first.
    let (mantissa, exponent) :=
      if mantissa == twoPow 53 then (twoPow 52, exponent + 1) else (mantissa, exponent)
    if 971 < exponent then none
    else if mantissa < twoPow 52 then some mantissa.toUInt64
    else some (((exponent + 1075).toNat * twoPow 52 + (mantissa - twoPow 52)).toUInt64)

/-- The double nearest to `±num / den`; `none` where it is too large. -/
def floatOfRatio (negative : Bool) (num den : Nat) : Option Float :=
  (bitsOfRatio num den).map fun bits ↦
    Float.ofBits (if negative then bits ||| 0x8000000000000000 else bits)

/-- The double nearest to a whole number; `none` where it is too large. -/
def floatOfInt (n : Int) : Option Float := floatOfRatio (n < 0) n.natAbs 1

/-- The whole number that a finite double is, if it is one. -/
def wholeOfFloat? (x : Float) : Option Int :=
  let bits := x.toBits
  if ((bits >>> 52) &&& 0x7FF) == 0x7FF then none
  else
    let b := Binary.ofBits bits
    let magnitude : Option Nat :=
      if 0 ≤ b.exponent then some (b.mantissa * twoPow b.exponent.toNat)
      else
        let den := twoPow (-b.exponent).toNat
        if b.mantissa % den == 0 then some (b.mantissa / den) else none
    magnitude.map fun n ↦ if isNegative bits then -(n : Int) else n

/-! ## Comparison with whole numbers -/

/-- The numerator and the denominator of a finite double. -/
def ratioOfFloat? (x : Float) : Option (Int × Nat) :=
  let bits := x.toBits
  if ((bits >>> 52) &&& 0x7FF) == 0x7FF then none
  else
    let b := Binary.ofBits bits
    let magnitude : Int := b.mantissa * twoPow b.exponent.toNat
    some (if isNegative bits then -magnitude else magnitude, twoPow (-b.exponent).toNat)

/-- Whether a whole number is less than a float, neither of them rounded. -/
def isIntLess (n : Int) (x : Float) : Bool :=
  match ratioOfFloat? x with
  | some (num, den) => n * den < num
  | none => 0.0 < x

/-- Whether a float is less than a whole number, neither of them rounded. -/
def isFloatLess (x : Float) (n : Int) : Bool :=
  match ratioOfFloat? x with
  | some (num, den) => num < n * den
  | none => x < 0.0

end CompletionServer.Decimal
