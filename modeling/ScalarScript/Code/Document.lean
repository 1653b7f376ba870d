import ScalarScript.Code
import ScalarScript.Document

/-!
# Code as documents

Operands, ops, bodies, functions and modules as they appear in JSON documents.  `real`
says how numbers are written.
-/

namespace ScalarScript
namespace Code

/-- The document of an operand. -/
def Operand.document (real : Float → Document) : Operand → Document
  | .const value => .tagged "Const" (real value)
  | .arg index => .tagged "Arg" (.nat index)
  | .reg index => .tagged "Reg" (.nat index)

/-- The document of an op. -/
def Op.document (real : Float → Document) : Op → Document
  | .arith op dest lhs rhs =>
      .tagged op.name (.record [
        ("dest", .nat dest),
        ("lhs", lhs.document real),
        ("rhs", rhs.document real)])
  | .compare dest predicate lhs rhs =>
      .tagged "FCmp" (.record [
        ("dest", .nat dest),
        ("pred", .text predicate.name),
        ("lhs", lhs.document real),
        ("rhs", rhs.document real)])
  | .widen dest src =>
      .tagged "UiToFp" (.record [("dest", .nat dest), ("src", src.document real)])
  | .call dest callee args =>
      .tagged "Call" (.record [
        ("dest", .nat dest),
        ("callee", .text callee),
        ("args", .list (args.map (Operand.document real)))])
  | .jump target => .tagged "Br" (.record [("target", .nat target)])
  | .branch condition thenBlock elseBlock =>
      .tagged "CondBr" (.record [
        ("cond", condition.document real),
        ("then_block", .nat thenBlock),
        ("else_block", .nat elseBlock)])
  | .ret value =>
      .tagged "Ret" (.record [("value", .option (Operand.document real) value)])

/-- The document of a block. -/
def Block.document (real : Float → Document) (block : Block) : Document :=
  .record [
    ("label", .text block.label),
    ("ops", .list (block.ops.map (Op.document real)))]

/-- The document of a register. -/
def Register.document (register : Register) : Document :=
  .record [("name", .text register.name), ("ty", .text register.type.name)]

/-- The document of a body. -/
def Body.document (real : Float → Document) (body : Body) : Document :=
  .record [
    ("blocks", .list (body.blocks.map (Block.document real))),
    ("registers", .list (body.registers.map Register.document))]

/-- The document of a function. -/
def Function.document (real : Float → Document) (function : Function) : Document :=
  .record [
    ("name", .text function.name),
    ("params", .texts function.params),
    ("body", .option (Body.document real) function.body)]

/-- The document of a module. -/
def Module.document (real : Float → Document) (table : Module) : Document :=
  .record [
    ("name", .text table.name),
    ("functions", .list (table.functions.map (Function.document real)))]

/-- The text of the document of a module. -/
def Module.json (table : Module) : String :=
  (table.document .real).pretty

end Code
end ScalarScript
