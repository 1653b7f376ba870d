import ScalarScript.Code
import ScalarScript.Decimal.Layout

/-!
# Code listings

The text of functions and modules as they are printed, and the text of single ops as they
are logged.
-/

namespace ScalarScript
namespace Code

/-- A constant in listings. -/
def constant (value : Float) : String :=
  Decimal.Layout.literal.write value

namespace Operand

/-- An operand in logs and messages. -/
def describe : Operand → String
  | .const value => s!"Const({constant value})"
  | .arg index => s!"Arg({index})"
  | .reg index => s!"Reg({index})"

end Operand

namespace Op

/-- An op in logs. -/
def describe : Op → String
  | .arith op dest lhs rhs =>
      s!"{op.name} \x7b dest: {dest}, lhs: {lhs.describe}, rhs: {rhs.describe} \x7d"
  | .compare dest predicate lhs rhs =>
      s!"FCmp \x7b dest: {dest}, pred: {predicate.name}, lhs: {lhs.describe}, rhs: {rhs.describe} \x7d"
  | .widen dest src => s!"UiToFp \x7b dest: {dest}, src: {src.describe} \x7d"
  | .call dest callee args =>
      let list := ", ".intercalate (args.map Operand.describe)
      s!"Call \x7b dest: {dest}, callee: \"{callee}\", args: [{list}] \x7d"
  | .jump target => s!"Br \x7b target: {target} \x7d"
  | .branch condition thenBlock elseBlock =>
      let blocks := s!"then_block: {thenBlock}, else_block: {elseBlock}"
      s!"CondBr \x7b cond: {condition.describe}, {blocks} \x7d"
  | .ret (some value) => s!"Ret \x7b value: Some({value.describe}) \x7d"
  | .ret none => "Ret \x7b value: None \x7d"

end Op

namespace Function

/-- An operand in the listing of a function. -/
def listOperand (function : Function) : Operand → String
  | .const value => constant value
  | .arg index =>
      match function.params[index]? with
      | some name => s!"%{name}"
      | none => s!"%arg{index}"
  | .reg index =>
      match function.body.bind fun body => body.registers[index]? with
      | some register => s!"%{register.name}"
      | none => s!"%r{index}"

/-- A block as the target of a branch. -/
def listTarget (function : Function) (index : Nat) : String :=
  match function.body.bind fun body => body.blocks[index]? with
  | some block => s!"%{block.label}"
  | none => s!"%bb{index}"

/-- An op in the listing of a function. -/
def listOp (function : Function) (op : Op) : String :=
  let operand := function.listOperand
  let target := function.listTarget
  let result (dest : Nat) := operand (.reg dest)
  match op with
  | .arith op dest lhs rhs =>
      s!"{result dest} = {op.mnemonic} double {operand lhs}, {operand rhs}"
  | .compare dest predicate lhs rhs =>
      s!"{result dest} = fcmp {predicate.mnemonic} double {operand lhs}, {operand rhs}"
  | .widen dest src => s!"{result dest} = uitofp i1 {operand src} to double"
  | .call dest callee args =>
      let list := ", ".intercalate (args.map fun arg => "double " ++ operand arg)
      s!"{result dest} = call double @{callee}({list})"
  | .jump block => s!"br label {target block}"
  | .branch condition thenBlock elseBlock =>
      s!"br i1 {operand condition}, label {target thenBlock}, label {target elseBlock}"
  | .ret (some value) => s!"ret double {operand value}"
  | .ret none => "ret void"

/-- A block in the listing of a function. -/
def listBlock (function : Function) (block : Block) : String :=
  block.label ++ ":\n" ++
    String.join (block.ops.map fun op => "  " ++ function.listOp op ++ "\n")

/-- The listing of a function. -/
def listing (function : Function) : String :=
  let params := ", ".intercalate (function.params.map fun param => "double %" ++ param)
  let signature := s!"double @{function.name}({params})"
  match function.body with
  | none => s!"declare {signature}\n"
  | some body =>
      s!"define {signature} \x7b\n" ++
        "\n".intercalate (body.blocks.map function.listBlock) ++ "\x7d\n"

end Function

namespace Module

/-- The listing of a module. -/
def listing (table : Module) : String :=
  s!"; ModuleID = '{table.name}'\n" ++
    String.join (table.functions.map fun function => "\n" ++ function.listing)

end Module
end Code
end ScalarScript
