/-!
# The shortest decimal of a double

A positive finite double is `mantissa * 2 ^ exponent`, and the reals that round
to it form an interval around it.  `shortest` looks for the coarsest power-of-ten
grid that has a point in that interval and takes the point nearest to the value,
all in exact natural arithmetic.
-/

namespace ScalarScript

/-- A number `mantissa * 2 ^ exponent`. -/
structure Dyadic where
  mantissa : Nat
  exponent : Int
deriving DecidableEq, Repr

namespace Dyadic

/-- The magnitude of a finite double, read off its bits. -/
def ofFloat (value : Float) : Dyadic :=
  let bits := value.toBits.toNat
  let biased : Nat := bits / Nat.pow 2 52 % Nat.pow 2 11
  let fraction : Nat := bits % Nat.pow 2 52
  if biased = 0 then
    { mantissa := fraction, exponent := -1074 }
  else
    { mantissa := Nat.pow 2 52 + fraction, exponent := (biased : Int) - 1075 }

/-- Whether the double just below lies closer than the double just above. -/
def narrowBelow (value : Dyadic) : Bool :=
  value.mantissa = Nat.pow 2 52 && value.exponent > -1074

end Dyadic

/-- A number `significand * 10 ^ exponent`. -/
structure Decimal where
  significand : Nat
  exponent : Int
deriving DecidableEq, Repr

/-- What is chosen between two candidates that are equally near. -/
inductive Tie where
  /-- The larger candidate. -/
  | up
  /-- The candidate with the even last digit. -/
  | even
deriving DecidableEq, Repr

namespace Decimal

/-- The interval of reals that round to one double, over a common denominator. -/
structure Interval where
  below : Nat
  center : Nat
  above : Nat
  denominator : Nat
  /-- Whether the end points themselves round to the double. -/
  closed : Bool
deriving DecidableEq, Repr

namespace Interval

/-- The rounding interval of a positive dyadic number. -/
def ofDyadic (value : Dyadic) : Interval :=
  let numerator := Nat.pow 2 (value.exponent - 2).toNat
  let center := 4 * value.mantissa
  { below := (center - if value.narrowBelow then 1 else 2) * numerator
    center := center * numerator
    above := (center + 2) * numerator
    denominator := Nat.pow 2 (2 - value.exponent).toNat
    closed := value.mantissa % 2 = 0 }

/-- Whether `numerator / denominator` lies in the interval. -/
def holds (interval : Interval) (numerator denominator : Nat) : Bool :=
  let point := numerator * interval.denominator
  let low := interval.below * denominator
  let high := interval.above * denominator
  if interval.closed then
    low ≤ point && point ≤ high
  else
    low < point && point < high

end Interval

/-- The number of decimal digits of a natural number, counting zero as one digit. -/
def width (n : Nat) : Nat :=
  (Nat.toDigits 10 n).length

/-- The least `k` with `numerator / denominator < 10 ^ k`, for positive quotients
above `10 ^ -400`. -/
def magnitude (numerator denominator : Nat) : Int :=
  (width (numerator * Nat.pow 10 400 / denominator) : Int) - 400

/-- The multiple of `10 ^ exponent` next to the center, if one lies in the interval;
of two, the nearer. -/
def onGrid (interval : Interval) (tie : Tie) (exponent : Int) : Option Decimal :=
  let scaleUp := Nat.pow 10 exponent.toNat
  let scaleDown := Nat.pow 10 (-exponent).toNat
  let unit := interval.denominator * scaleUp
  let low := interval.center * scaleDown / unit
  let high := low + 1
  let lowHolds := interval.holds (low * scaleUp) scaleDown
  let highHolds := interval.holds (high * scaleUp) scaleDown
  let rest := interval.center * scaleDown % unit
  let chosen : Nat :=
    if 2 * rest < unit then low
    else if unit < 2 * rest then high
    else match tie with
      | .up => high
      | .even => if low % 2 = 0 then low else high
  if lowHolds && highHolds then some ⟨chosen, exponent⟩
  else if lowHolds then some ⟨low, exponent⟩
  else if highHolds then some ⟨high, exponent⟩
  else none

/-- Removes trailing zeros of the significand, at most `fuel` of them. -/
def stripZeros : Nat → Decimal → Decimal
  | 0, decimal => decimal
  | fuel + 1, decimal =>
      if decimal.significand ≠ 0 ∧ decimal.significand % 10 = 0 then
        stripZeros fuel ⟨decimal.significand / 10, decimal.exponent + 1⟩
      else decimal

/-- The decimal with the fewest digits that reads back as the given positive
finite double, and of those the nearest.  Seventeen digits always suffice. -/
def shortest (tie : Tie) (value : Float) : Decimal :=
  let interval := Interval.ofDyadic (Dyadic.ofFloat value)
  let top := magnitude interval.center interval.denominator
  let found := (List.range 17).findSome? fun (count : Nat) =>
    onGrid interval tie (top - 1 - (count : Int))
  stripZeros 20 (found.getD ⟨0, 0⟩)

end Decimal
end ScalarScript
