import ScalarScript.Code.Listing

/-!
# Well-formed bodies

`Module.check` looks for the first defect of a function body.  A body without defects has
blocks that end in their only terminator, branches to existing blocks, registers written
once and read with the types that the ops ask for, and calls of declared functions with
the right number of arguments.
-/

namespace ScalarScript
namespace Code

/-- The place at which an operand is read. -/
inductive Role where
  | arithmetic
  | widening
  | condition
  | result
  | argument
deriving DecidableEq, Repr

namespace Role

/-- The place in messages. -/
def describe : Role → String
  | .arithmetic => "arithmetic"
  | .widening => "uitofp"
  | .condition => "conditional branch"
  | .result => "ret"
  | .argument => "call argument"

/-- The type that is read there. -/
def type : Role → ValueType
  | .arithmetic => .double
  | .widening => .bool
  | .condition => .bool
  | .result => .double
  | .argument => .double

end Role

/-- What is wrong with a body. -/
inductive Defect where
  | noBlocks
  | emptyBlock (label : String)
  | unterminatedBlock (label : String)
  | earlyTerminator (label : String)
  | unknownRegister (index : Nat)
  | rewrittenRegister (name : String)
  | unknownBlock (index : Nat)
  | wrongType (role : Role) (found : ValueType)
  | undefinedOperand (role : Role) (operand : Operand)
  | undeclaredCallee (callee : String)
  | argumentCount (callee : String) (passed expected : Nat)
  | unwrittenRegister (index : Nat)
deriving Repr

namespace Defect

/-- The defect in messages. -/
def message : Defect → String
  | .noBlocks => "function body has no blocks"
  | .emptyBlock label => s!"block '{label}' is empty"
  | .unterminatedBlock label => s!"block '{label}' does not end in a terminator"
  | .earlyTerminator label => s!"block '{label}' has a terminator before its end"
  | .unknownRegister index => s!"op writes unknown register r{index}"
  | .rewrittenRegister name => s!"register %{name} is written twice"
  | .unknownBlock index => s!"branch to unknown block {index}"
  | .wrongType role found =>
      s!"{role.describe} expects {role.type.describe} operand, found {found.describe}"
  | .undefinedOperand role operand =>
      s!"{role.describe} reads undefined operand {operand.describe}"
  | .undeclaredCallee callee => s!"call to undeclared function @{callee}"
  | .argumentCount callee passed expected =>
      s!"call to @{callee} passes {passed} arguments, expected {expected}"
  | .unwrittenRegister index => s!"register r{index} is read but never written"

end Defect

/-- A function with a defect. -/
structure VerifyError where
  function : String
  defect : Defect
deriving Repr

namespace VerifyError

/-- The error in messages. -/
def describe (error : VerifyError) : String :=
  s!"invalid function @{error.function}: {error.defect.message}"

end VerifyError

/-- Checks that the operand stands for a value of the type read at that place. -/
def checkOperand (function : Function) (role : Role) (operand : Operand) : Except Defect Unit :=
  match function.typeOf? operand with
  | some found => if found = role.type then .ok () else .error (.wrongType role found)
  | none => .error (.undefinedOperand role operand)

/-- Checks a list of operands read at the same kind of place. -/
def checkOperands (function : Function) (role : Role) : List Operand → Except Defect Unit
  | [] => .ok ()
  | operand :: operands => do
      checkOperand function role operand
      checkOperands function role operands

/-- Checks the register that an op writes, given those written before. -/
def checkDest (body : Body) (written : List Nat) (op : Op) : Except Defect (List Nat) :=
  match op.dest? with
  | none => .ok written
  | some dest =>
      match body.registers[dest]? with
      | none => .error (.unknownRegister dest)
      | some register =>
          if dest ∈ written then .error (.rewrittenRegister register.name)
          else .ok (dest :: written)

/-- Checks that branches go to existing blocks. -/
def checkTargets (body : Body) : List Nat → Except Defect Unit
  | [] => .ok ()
  | target :: targets =>
      if target < body.blocks.length then checkTargets body targets
      else .error (.unknownBlock target)

/-- Checks what an op reads and calls. -/
def checkReads (table : Module) (function : Function) : Op → Except Defect Unit
  | .arith _ _ lhs rhs => checkOperands function .arithmetic [lhs, rhs]
  | .compare _ _ lhs rhs => checkOperands function .arithmetic [lhs, rhs]
  | .widen _ src => checkOperand function .widening src
  | .branch condition _ _ => checkOperand function .condition condition
  | .ret (some value) => checkOperand function .result value
  | .ret none => .ok ()
  | .jump _ => .ok ()
  | .call _ callee args =>
      match table.find? callee with
      | none => .error (.undeclaredCallee callee)
      | some target =>
          if target.arity ≠ args.length then
            .error (.argumentCount callee args.length target.arity)
          else
            checkOperands function .argument args

/-- Checks ops in order and collects the registers that they write. -/
def checkOps (table : Module) (function : Function) (body : Body) (written : List Nat) :
    List Op → Except Defect (List Nat)
  | [] => .ok written
  | op :: ops => do
      let written ← checkDest body written op
      checkTargets body op.successors
      checkReads table function op
      checkOps table function body written ops

/-- Checks that a block ends in its only terminator. -/
def checkShape (block : Block) : Except Defect Unit :=
  match block.ops.getLast? with
  | none => .error (.emptyBlock block.label)
  | some last =>
      if !last.isTerminator then .error (.unterminatedBlock block.label)
      else if block.ops.dropLast.any Op.isTerminator then .error (.earlyTerminator block.label)
      else .ok ()

/-- Checks blocks in order and collects the registers that they write. -/
def checkBlocks (table : Module) (function : Function) (body : Body) (written : List Nat) :
    List Block → Except Defect (List Nat)
  | [] => .ok written
  | block :: blocks => do
      checkShape block
      let written ← checkOps table function body written block.ops
      checkBlocks table function body written blocks

/-- Checks that every register read is written somewhere. -/
def checkWritten (written : List Nat) : List Operand → Except Defect Unit
  | [] => .ok ()
  | .reg index :: operands =>
      if index ∈ written then checkWritten written operands
      else .error (.unwrittenRegister index)
  | _ :: operands => checkWritten written operands

/-- Everything that the ops of a body read, in order. -/
def Body.operands (body : Body) : List Operand :=
  body.blocks.flatMap fun block => block.ops.flatMap Op.operands

/-- Looks for the first defect of a body. -/
def checkBody (table : Module) (function : Function) (body : Body) : Except Defect Unit := do
  if body.blocks.isEmpty then
    throw .noBlocks
  let written ← checkBlocks table function body [] body.blocks
  checkWritten written body.operands

namespace Module

/-- Checks a function; a function without a body has no defect. -/
def verifyFunction (table : Module) (function : Function) : Except VerifyError Unit :=
  match function.body with
  | none => .ok ()
  | some body =>
      match checkBody table function body with
      | .ok _ => .ok ()
      | .error defect => .error ⟨function.name, defect⟩

/-- Checks functions in order. -/
def verifyAll (table : Module) : List Function → Except VerifyError Unit
  | [] => .ok ()
  | function :: functions => do
      table.verifyFunction function
      table.verifyAll functions

/-- Checks every function of the module. -/
def verify (table : Module) : Except VerifyError Unit :=
  table.verifyAll table.functions

end Module
end Code
end ScalarScript
