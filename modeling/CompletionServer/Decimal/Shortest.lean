import CompletionServer.Decimal.Binary

/-!
# Shortest decimals

The fewest significant digits from which a double is read back, and of the candidates with so few
digits the one nearest to it. For one digit, then two, and so on, the two neighbours of the value on
the decimal grid with that many digits are tried; seventeen digits always suffice. A tie between the
two neighbours goes to the one with an even last digit.
-/

namespace CompletionServer.Decimal

/-- The number `digits * 10 ^ exponent`. -/
structure Scientific where
  digits : Nat
  exponent : Int
deriving DecidableEq, Repr

/-- The reals that are read as one double, over a common denominator: from `low` to `high`, the ends
included or not. -/
structure Interval where
  low : Nat
  value : Nat
  high : Nat
  den : Nat
  closed : Bool

/-- The reals nearest to `b`, which go half-way to the next doubles on both sides; below a power of
two the next double is nearer. Ties go to the even mantissa, so the ends belong to an even one. -/
def Binary.interval (b : Binary) : Interval :=
  let below := if b.mantissa == twoPow 52 && b.exponent != -1074 then 1 else 2
  let low := 4 * b.mantissa - below
  let high := 4 * b.mantissa + 2
  let closed := b.mantissa % 2 == 0
  let shift := b.exponent - 2
  if 0 ≤ shift then
    let unit := twoPow shift.toNat
    ⟨low * unit, 4 * b.mantissa * unit, high * unit, 1, closed⟩
  else ⟨low, 4 * b.mantissa, high, twoPow (-shift).toNat, closed⟩

/-- Whether `candidate * grid / den` lies in the interval, `grid` being a power of ten. -/
def Interval.holds (i : Interval) (candidate : Nat) : Bool :=
  let x := candidate * i.den
  if i.closed then i.low ≤ x && x ≤ i.high else i.low < x && x < i.high

/-- The interval with values measured in steps of `10 ^ exponent`. -/
def Interval.onGrid (i : Interval) (exponent : Int) : Interval :=
  if 0 ≤ exponent then { i with den := i.den * tenPow exponent.toNat }
  else
    let scale := tenPow (-exponent).toNat
    { i with low := i.low * scale, value := i.value * scale, high := i.high * scale }

/-- The neighbour of the value on the grid that lies in the interval, the nearer one of two. -/
def Interval.neighbour? (i : Interval) : Option Nat :=
  let floor := i.value / i.den
  let twice := 2 * (i.value % i.den)
  match i.holds floor && floor != 0, i.holds (floor + 1) with
  | true, false => some floor
  | false, true => some (floor + 1)
  | false, false => none
  | true, true =>
    if twice < i.den then some floor
    else if i.den < twice then some (floor + 1)
    else some (floor + floor % 2)

/-- The number of places after the point before the first digit of `num / den < 1`. -/
def leadingZeros (num den : Nat) : (fuel : Nat) → Nat
  | 0 => 0
  | fuel + 1 => if den ≤ num * 10 then 0 else leadingZeros (num * 10) den fuel + 1

/-- The `e` with `10 ^ (e - 1) ≤ value < 10 ^ e`. -/
def Interval.magnitude (i : Interval) : Int :=
  if i.den ≤ i.value then ((Nat.toDigits 10 (i.value / i.den)).length : Int)
  else -(leadingZeros i.value i.den 400 : Int)

/-- The first grid with a neighbour in the interval, from `count` digits on. -/
def Interval.shortest (i : Interval) (magnitude : Int) : (fuel count : Nat) → Scientific
  | 0, count => ⟨(i.onGrid (magnitude - count)).value / (i.onGrid (magnitude - count)).den,
      magnitude - count⟩
  | fuel + 1, count =>
    match (i.onGrid (magnitude - count)).neighbour? with
    | some digits => ⟨digits, magnitude - count⟩
    | none => i.shortest magnitude fuel (count + 1)

/-- The shortest decimal that is read back as a double greater than zero. -/
def Binary.shortest (b : Binary) : Scientific :=
  b.interval.shortest b.interval.magnitude 17 1

end CompletionServer.Decimal
