import ScalarScript.Code
import ScalarScript.Decimal.Layout
import ScalarScript.Diagnostic

/-!
# Values and faults of the machine

A register holds a number or a truth value.  A call that yields no value yields a fault.
-/

namespace ScalarScript
namespace Machine

/-- A value in a register. -/
inductive Value where
  | double (value : Float)
  | bool (value : Bool)
deriving Repr

namespace Value

/-- The number, if it is one. -/
def double? : Value → Option Float
  | .double value => some value
  | .bool _ => none

/-- The truth value, if it is one. -/
def bool? : Value → Option Bool
  | .bool value => some value
  | .double _ => none

/-- The value as it is printed. -/
def describe : Value → String
  | .double value => Decimal.Layout.plain.write value
  | .bool true => "true"
  | .bool false => "false"

end Value

/-- The classes of faults. -/
inductive Fault.Kind where
  | unknownFunction
  | arityMismatch
  | noBody
  | stackOverflow
  | invalidBody
deriving DecidableEq, Repr

namespace Fault.Kind

/-- The name of the class. -/
def name : Kind → String
  | .unknownFunction => "UnknownFunction"
  | .arityMismatch => "ArityMismatch"
  | .noBody => "NoBody"
  | .stackOverflow => "StackOverflow"
  | .invalidBody => "InvalidBody"

/-- All classes. -/
def all : List Kind :=
  [.unknownFunction, .arityMismatch, .noBody, .stackOverflow, .invalidBody]

/-- How faults of the class may be mended. -/
def tip? : Kind → Option String
  | .noBody => some "Define the function with 'def' before calling it"
  | .stackOverflow => some "Check that the recursion has a base case"
  | _ => none

end Fault.Kind

/-- How a body can be malformed. -/
inductive Malformation where
  | noEntry
  | unknownBlock (index : Nat)
  | noTerminator (label : String)
  | unknownArgument (index : Nat)
  | unwrittenRegister (index : Nat)
  | unknownRegister (index : Nat)
  | notDouble
  | notBool
deriving DecidableEq, Repr

namespace Malformation

/-- The malformation in messages. -/
def message : Malformation → String
  | .noEntry => "body has no entry block"
  | .unknownBlock index => s!"branch to unknown block {index}"
  | .noTerminator label => s!"block '{label}' has no terminator"
  | .unknownArgument index => s!"argument {index} out of range"
  | .unwrittenRegister index => s!"register r{index} read before write"
  | .unknownRegister index => s!"write to unknown register r{index}"
  | .notDouble => "expected a double operand"
  | .notBool => "expected an i1 operand"

end Malformation

/-- Why a call yields no value. -/
inductive Fault where
  | unknownFunction (name : String)
  | arityMismatch (name : String) (takes given : Nat)
  /-- A function without a body that the host does not provide. -/
  | noBody (name : String)
  /-- Calls are nested deeper than the limit. -/
  | stackOverflow (limit : Nat) (name : String)
  | invalidBody (name : String) (malformation : Malformation)
deriving DecidableEq, Repr

namespace Fault

/-- The class of the fault. -/
def kind : Fault → Kind
  | .unknownFunction _ => .unknownFunction
  | .arityMismatch .. => .arityMismatch
  | .noBody _ => .noBody
  | .stackOverflow .. => .stackOverflow
  | .invalidBody .. => .invalidBody

/-- What is wrong. -/
def message : Fault → String
  | .unknownFunction name => s!"Unknown function '{name}'"
  | .arityMismatch name takes given => s!"'{name}' takes {takes} arguments, {given} given"
  | .noBody name => s!"'{name}' is declared but has no body"
  | .stackOverflow limit name => s!"call depth exceeded {limit} while calling '{name}'"
  | .invalidBody name malformation => s!"invalid body in @{name}: {malformation.message}"

/-- The part of the program that reports faults. -/
def issuer : String := "poly.vm"

/-- The fault as it is presented. -/
def diagnostic (fault : Fault) : Diagnostic where
  issuer := issuer
  message := fault.message
  tip := fault.kind.tip?

end Fault
end Machine
end ScalarScript
