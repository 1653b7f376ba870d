import ScalarScript.Token.Document
import ScalarScript.Tree

/-!
# Syntax trees as documents

Expressions and statements as they appear in JSON documents.  `real` says how numbers are
written.
-/

namespace ScalarScript

mutual

/-- The document of an expression. -/
def Expr.document (real : Float → Document) : Expr → Document
  | .num value span =>
      .record [("kind", .tagged "Number" (real value)), ("location", span.document)]
  | .var name span =>
      .record [("kind", .tagged "Variable" (.text name)), ("location", span.document)]
  | .binary op left right span =>
      .record [
        ("kind", .tagged "Binary" (.record [
          ("op", .text op.name),
          ("left", left.document real),
          ("right", right.document real)])),
        ("location", span.document)]
  | .call callee args span =>
      .record [
        ("kind", .tagged "Call" (.record [
          ("callee", .text callee),
          ("args", .list (Expr.documents real args))])),
        ("location", span.document)]

/-- The documents of expressions. -/
def Expr.documents (real : Float → Document) : List Expr → List Document
  | [] => []
  | expr :: exprs => expr.document real :: Expr.documents real exprs

end

/-- The document of a prototype. -/
def Prototype.document (proto : Prototype) : Document :=
  .record [
    ("name", .text proto.name),
    ("params", .texts proto.params),
    ("location", proto.span.document)]

/-- The document of a return. -/
def Return.document (real : Float → Document) (value : Return) : Document :=
  .record [
    ("value", .option (Expr.document real) value.value),
    ("location", value.span.document)]

mutual

/-- The document of a statement. -/
def Stmt.document (real : Float → Document) : Stmt → Document
  | .prototype proto => .tagged "Prototype" proto.document
  | .function proto body =>
      .tagged "Function" (.record [("proto", proto.document), ("body", body.document real)])
  | .block body => .tagged "Block" (body.document real)
  | .ret value => .tagged "Return" (value.document real)
  | .expression proto body =>
      .tagged "Expression"
        (.record [("proto", proto.document), ("body", body.document real)])
  | .branch condition thenBlock elseIf elseBlock span =>
      .tagged "If" (.record [
        ("condition", condition.document real),
        ("then_block", thenBlock.document real),
        ("else_if", match elseIf with
          | some statement => statement.document real
          | none => .null),
        ("else_block", match elseBlock with
          | some block => block.document real
          | none => .null),
        ("location", span.document)])

/-- The document of a block. -/
def Block.document (real : Float → Document) : Block → Document
  | .mk statements tail =>
      .record [
        ("statements", .list (Stmt.documents real statements)),
        ("tail_return", .option (Return.document real) tail)]

/-- The documents of statements. -/
def Stmt.documents (real : Float → Document) : List Stmt → List Document
  | [] => []
  | statement :: statements => statement.document real :: Stmt.documents real statements

end
end ScalarScript
