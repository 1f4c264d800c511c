import ScriptConsole.Number

/-!
# Shortest decimals

The shortest decimal that reads back as a given double, and of those of equal
length the nearest one.  All arithmetic is exact: the reals that round to a
double form an interval whose ends belong to it when the mantissa is even, and
the decimals with a given number of digits form a grid.  The first grid with a
point in the interval gives the answer.
-/

namespace ScriptConsole.Number

/-- Decimal digits, the first of which is not zero, as the fraction
`0.d₁d₂… · 10 ^ point`. -/
structure Decimal where
  digits : Nat
  point : Int
  deriving DecidableEq, Repr

/-- The reals that round to a double: the double itself and both ends, over a
common denominator. -/
structure Interval where
  low : Nat
  value : Nat
  high : Nat
  denominator : Nat
  closed : Bool
  deriving DecidableEq, Repr

namespace Magnitude

/-- The reals that round to a positive magnitude. -/
def interval (magnitude : Magnitude) : Interval :=
  let scale := if 2 ≤ magnitude.exponent then powerOfTwo (magnitude.exponent - 2).toNat else 1
  let denominator :=
    if 2 ≤ magnitude.exponent then 1 else powerOfTwo (2 - magnitude.exponent).toNat
  let below :=
    if magnitude.mantissa = powerOfTwo 52 ∧ magnitude.exponent ≠ -1074 then 1 else 2
  ⟨(4 * magnitude.mantissa - below) * scale, 4 * magnitude.mantissa * scale,
    (4 * magnitude.mantissa + 2) * scale, denominator, magnitude.mantissa % 2 = 0⟩

end Magnitude

namespace Interval

/-- The number of decimal digits before the point; for a value below one, the
negated number of zeros after it. -/
def pointFrom (interval : Interval) (fuel : Nat) (point : Int) : Int :=
  match fuel with
  | 0 => point
  | fuel + 1 =>
      let reached :=
        if 0 ≤ point then interval.value < interval.denominator * powerOfTen point.toNat
        else interval.value * powerOfTen (-point).toNat < interval.denominator
      if reached then point else interval.pointFrom fuel (point + 1)

def point (interval : Interval) : Int :=
  interval.pointFrom 700 (-330)

/-- Multiply a value over the denominator by a power of ten, as a fraction. -/
def scaled (interval : Interval) (value : Nat) (power : Int) : Nat × Nat :=
  if 0 ≤ power then (value * powerOfTen power.toNat, interval.denominator)
  else (value, interval.denominator * powerOfTen (-power).toNat)

/-- Whether a grid point `digits / 10 ^ power` lies in the interval. -/
def holds (interval : Interval) (power : Int) (digits : Nat) : Bool :=
  let (low, denominator) := interval.scaled interval.low power
  let (high, _) := interval.scaled interval.high power
  let point := digits * denominator
  if interval.closed then low ≤ point && point ≤ high else low < point && point < high

/-- The point of the grid of `10 ^ power` steps to one that lies in the interval
nearest to its value; of two equally near ones the upper. -/
def nearest? (interval : Interval) (power : Int) : Option Nat :=
  let (value, denominator) := interval.scaled interval.value power
  let below := value / denominator
  let nearerAbove := denominator ≤ 2 * (value % denominator)
  match interval.holds power below, interval.holds power (below + 1) with
  | true, true => some (if nearerAbove then below + 1 else below)
  | true, false => some below
  | false, true => some (below + 1)
  | false, false => none

/-- The first grid, by its number of digits, that has a point in the interval. -/
def shortestFrom (interval : Interval) (point : Int) (fuel count : Nat) : Decimal :=
  match fuel with
  | 0 => ⟨0, point⟩
  | fuel + 1 =>
      match interval.nearest? (count - point) with
      | some digits =>
          if digits = powerOfTen count then ⟨1, point + 1⟩ else ⟨digits, point⟩
      | none => interval.shortestFrom point fuel (count + 1)

end Interval

/-- The shortest decimal of a positive magnitude. -/
def Magnitude.shortest (magnitude : Magnitude) : Decimal :=
  let interval := magnitude.interval
  interval.shortestFrom interval.point 18 1

end ScriptConsole.Number
