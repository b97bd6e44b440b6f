import CompletionServer.Decimal.Shortest

/-!
# Writing floats

A float is written with its shortest digits. A `Style` decides the rest: which numbers are written
positionally, and how an exponent looks.
-/

namespace CompletionServer.Decimal

/-- How floats look. The exponent meant is that of the first significant digit. -/
structure Style where
  /-- The least exponent written positionally. -/
  leastPositional : Int
  /-- The greatest exponent written positionally. -/
  greatestPositional : Int
  /-- What a positional whole number ends in. -/
  wholeEnding : String
  /-- The least number of digits of an exponent, which always has a sign. -/
  exponentWidth : Nat
  infinity : String
  notANumber : String

/-- The digits of a decimal without zeros at the end, and the exponent of the first of them. -/
def Scientific.significant (s : Scientific) : List Char × Int :=
  let digits := Nat.toDigits 10 s.digits
  let kept := (digits.reverse.dropWhile (· == '0')).reverse
  (kept, s.exponent + digits.length - 1)

def Style.exponent (style : Style) (e : Int) : String :=
  let digits := toString e.natAbs
  let zeros := String.ofList (List.replicate (style.exponentWidth - digits.length) '0')
  "e" ++ (if e < 0 then "-" else "+") ++ zeros ++ digits

/-- A number greater than zero, from its significant digits and the exponent of the first. -/
def Style.positive (style : Style) (digits : List Char) (e : Int) : String :=
  if style.leastPositional ≤ e ∧ e ≤ style.greatestPositional then
    if e < 0 then
      "0." ++ String.ofList (List.replicate (-e - 1).toNat '0') ++ String.ofList digits
    else
      let places := e.toNat + 1
      let whole := digits.take places ++ List.replicate (places - digits.length) '0'
      let fraction := digits.drop places
      String.ofList whole
        ++ (if fraction.isEmpty then style.wholeEnding else "." ++ String.ofList fraction)
  else
    let fraction := digits.drop 1
    String.ofList (digits.take 1)
      ++ (if fraction.isEmpty then "" else "." ++ String.ofList fraction) ++ style.exponent e

/-- The text of a float. -/
def Style.write (style : Style) (x : Float) : String :=
  let bits := x.toBits
  let scale := (bits >>> 52) &&& 0x7FF
  let fraction := bits &&& 0xFFFFFFFFFFFFF
  if scale == 0x7FF && fraction != 0 then style.notANumber
  else
    let sign := if isNegative bits then "-" else ""
    let magnitude :=
      if scale == 0x7FF then style.infinity
      else if scale == 0 && fraction == 0 then "0" ++ style.wholeEnding
      else
        let (digits, e) := (Binary.ofBits bits).shortest.significant
        style.positive digits e
    sign ++ magnitude

/-- Positional from 0.0001 up to sixteen digits before the point; otherwise one digit before the
point and an exponent of at least two. -/
def plain : Style where
  leastPositional := -4
  greatestPositional := 15
  wholeEnding := ".0"
  exponentWidth := 2
  infinity := "inf"
  notANumber := "nan"

end CompletionServer.Decimal
