import ScalarScript.Decimal.Layout

/-!
# Host functions

Functions that the host provides for declared names without a body, found by name and
number of arguments.  Two of them print.
-/

namespace ScalarScript
namespace Machine

/-- The remainder of the division of two finite numbers, toward zero, computed exactly on
a common power of two. -/
def exactRemainder (x y : Float) : Float :=
  let left := Dyadic.ofFloat x
  let right := Dyadic.ofFloat y
  let exponent := min left.exponent right.exponent
  let scaled (value : Dyadic) := value.mantissa * Nat.pow 2 (value.exponent - exponent).toNat
  (Float.ofNat (scaled left % scaled right)).scaleB exponent

/-- The remainder of a division, with the sign of the dividend. -/
def remainder (x y : Float) : Float :=
  if x.isNaN || y.isNaN || x.isInf || y == 0 then 0.0 / 0.0
  else if y.isInf then x
  else
    let magnitude := exactRemainder x y
    if x.toBits ≥ 0x8000000000000000 then -magnitude else magnitude

/-- The character with the given code, truncated and clamped to 32 bits, if there is
one. -/
def character? (code : Float) : Option Char :=
  let scalar := code.toUInt32
  if valid : scalar.isValidChar then some ⟨scalar, valid⟩ else none

/-- The result of a host function and the text that it prints. -/
structure HostCall where
  value : Float
  printed : Option String := none
deriving Repr

/-- Runs the host function of the given name, if the host has one for these arguments. -/
def host? : String → List Float → Option HostCall
  | "sin", [x] => some { value := x.sin }
  | "cos", [x] => some { value := x.cos }
  | "tan", [x] => some { value := x.tan }
  | "sqrt", [x] => some { value := x.sqrt }
  | "exp", [x] => some { value := x.exp }
  | "log", [x] => some { value := x.log }
  | "fabs", [x] => some { value := x.abs }
  | "floor", [x] => some { value := x.floor }
  | "ceil", [x] => some { value := x.ceil }
  | "pow", [x, y] => some { value := x.pow y }
  | "fmod", [x, y] => some { value := remainder x y }
  | "atan2", [y, x] => some { value := y.atan2 x }
  | "printd", [x] => some { value := 0, printed := some (Decimal.Layout.plain.write x ++ "\n") }
  | "putchard", [x] => some { value := 0, printed := (character? x).map String.singleton }
  | _, _ => none

end Machine
end ScalarScript
