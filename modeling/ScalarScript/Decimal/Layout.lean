import ScalarScript.Decimal.Shortest

/-!
# Layouts of floating-point numbers

The digits of a number come from `Decimal.shortest`.  A `Layout` says how they are
written: from which magnitude on with an exponent, with or without a final `.0`, and
how ties between equally near digits are broken.  The program writes numbers in three
layouts.
-/

namespace ScalarScript
namespace Decimal

/-- How the digits of a number are written. -/
structure Layout where
  /-- An integral number is written with a final `.0`. -/
  pointZero : Bool
  /-- The least power of ten that is written with an exponent. -/
  largeFrom : Option Int
  /-- Powers of ten below this one are written with an exponent. -/
  smallBelow : Option Int
  /-- A positive exponent is written with a plus sign. -/
  plus : Bool
  /-- The choice between two digit strings that are equally near. -/
  tie : Tie
deriving DecidableEq, Repr

namespace Layout

/-- The layout of printed values: positional only, and integral numbers without a point. -/
def plain : Layout where
  pointZero := false
  largeFrom := none
  smallBelow := none
  plus := false
  tie := .up

/-- The layout of constants in code listings and logs. -/
def literal : Layout where
  pointZero := true
  largeFrom := some 16
  smallBelow := some (-4)
  plus := false
  tie := .up

/-- The layout of numbers in JSON documents. -/
def json : Layout where
  pointZero := true
  largeFrom := some 16
  smallBelow := some (-5)
  plus := true
  tie := .even

/-- Whether a number whose leading digit stands for `10 ^ power` is written with an
exponent. -/
def usesExponent (layout : Layout) (power : Int) : Bool :=
  (layout.largeFrom.any fun bound => bound ≤ power) ||
    (layout.smallBelow.any fun bound => power < bound)

/-- Digits in positional form; the leading digit stands for `10 ^ power`. -/
def positional (layout : Layout) (digits : List Char) (power : Int) : List Char :=
  if power < 0 then
    '0' :: '.' :: List.replicate (-power - 1).toNat '0' ++ digits
  else
    let whole := power.toNat + 1
    if digits.length ≤ whole then
      digits ++ List.replicate (whole - digits.length) '0' ++
        (if layout.pointZero then ['.', '0'] else [])
    else
      digits.take whole ++ '.' :: digits.drop whole

/-- Digits in exponent form; the leading digit stands for `10 ^ power`. -/
def scientific (layout : Layout) (digits : List Char) (power : Int) : List Char :=
  let mantissa := match digits with
    | first :: second :: rest => first :: '.' :: second :: rest
    | short => short
  let sign := if power < 0 then ['-'] else if layout.plus then ['+'] else []
  mantissa ++ 'e' :: sign ++ Nat.toDigits 10 power.natAbs

/-- The characters of a positive finite double. -/
def magnitude (layout : Layout) (value : Float) : List Char :=
  let decimal := shortest layout.tie value
  let digits := Nat.toDigits 10 decimal.significand
  let power := decimal.exponent + (digits.length : Int) - 1
  if layout.usesExponent power then
    layout.scientific digits power
  else
    layout.positional digits power

/-- The text of any double. -/
def write (layout : Layout) (value : Float) : String :=
  if value.isNaN then "NaN"
  else
    let sign := if value.toBits ≥ 0x8000000000000000 then ['-'] else []
    let body :=
      if value.isInf then ['i', 'n', 'f']
      else if value == 0 then layout.positional ['0'] 0
      else layout.magnitude value
    String.ofList (sign ++ body)

end Layout

/-- The double nearest to `whole.fraction`, both given as lists of decimal digits. -/
def read (whole fraction : List Char) : Float :=
  let digits := whole ++ fraction
  let significand := digits.foldl (fun total digit => 10 * total + (digit.toNat - '0'.toNat)) 0
  Float.ofScientific significand true fraction.length

end Decimal
end ScalarScript
