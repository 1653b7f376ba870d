import ScalarScript.Code.Builder
import ScalarScript.Lowering.LoweringError

/-!
# Lowering function bodies

Expressions and the statements inside functions are lowered into a builder.  The module is
consulted only to resolve calls.  A step that fails leaves in the builder what was added
before.
-/

namespace ScalarScript

/-- The names that stand for operands, inside the function that is being lowered. -/
structure Scope where
  function : Option String
  bindings : List (String × Code.Operand)
deriving Repr

namespace Scope

/-- Outside of every function nothing is bound. -/
def empty : Scope := ⟨none, []⟩

/-- The scope of a function before anything is bound. -/
def enter (function : String) : Scope := ⟨some function, []⟩

/-- Binds a name, hiding an earlier binding. -/
def bind (scope : Scope) (name : String) (operand : Code.Operand) : Scope :=
  { scope with bindings := (name, operand) :: scope.bindings }

/-- The operand bound to a name. -/
def lookup (scope : Scope) (name : String) : Option Code.Operand :=
  scope.bindings.lookup name

/-- The scope of a function whose parameters are bound to its arguments. -/
def ofParams (function : String) (params : List String) : Scope :=
  params.zipIdx.foldl (fun scope (param, index) => scope.bind param (.arg index))
    (enter function)

end Scope

namespace Lowering

/-- A step that adds to a builder and may fail. -/
abbrev Build := EStateM LoweringError Code.Builder

/-- A step made of a change to the builder. -/
def change {α : Type} (step : Code.Builder → α × Code.Builder) : Build α :=
  modifyGet step

/-- Adds an op at the insertion point. -/
def emit (op : Code.Op) : Build Unit :=
  modify fun builder => builder.emit op

/-- Adds an empty block. -/
def createBlock (hint : String) : Build Nat :=
  change fun builder => builder.createBlock hint

/-- The arithmetic operation of an operator. -/
def arith? : Token.Kind → Option Code.Arith
  | .plus => some .add
  | .minus => some .sub
  | .star => some .mul
  | .slash => some .div
  | _ => none

/-- The comparison of an operator. -/
def predicate? : Token.Kind → Option Code.Predicate
  | .lesser => some .ult
  | .greater => some .ugt
  | .lesserEqual => some .ule
  | .greaterEqual => some .uge
  | .equalEqual => some .ueq
  | .bangEqual => some .une
  | _ => none

/-- Applies an operator to two operands.  The truth value of a comparison is widened. -/
def binary (op : Token.Kind) (lhs rhs : Code.Operand) (span : Span) : Build Code.Operand :=
  match arith? op, predicate? op with
  | some arith, _ => change fun builder => builder.arith arith lhs rhs
  | none, some predicate => do
      let flag ← change fun builder => builder.compare predicate lhs rhs "cmptmp"
      change fun builder => builder.widen flag
  | none, none => throw (.invalidBinaryOperator op span)

mutual

/-- Lowers an expression to the operand that holds its value. -/
def lowerExpr (table : Code.Module) (scope : Scope) : Expr → Build Code.Operand
  | .num value _ => pure (.const value)
  | .var name span =>
      match scope.lookup name with
      | some operand => pure operand
      | none => throw (.unknownVariable name span)
  | .binary op left right span => do
      let lhs ← lowerExpr table scope left
      let rhs ← lowerExpr table scope right
      binary op lhs rhs span
  | .call callee args span =>
      match table.find? callee with
      | none => throw (.unknownFunction callee span)
      | some target =>
          if target.arity ≠ args.length then
            throw (.argumentCount callee target.arity args.length span)
          else do
            let values ← lowerArgs table scope args
            change fun builder => builder.call callee values

/-- Lowers arguments from left to right. -/
def lowerArgs (table : Code.Module) (scope : Scope) : List Expr → Build (List Code.Operand)
  | [] => pure []
  | arg :: args => do
      let value ← lowerExpr table scope arg
      let values ← lowerArgs table scope args
      pure (value :: values)

end

/-- Lowers a return. -/
def lowerReturn (table : Code.Module) (scope : Scope) (value : Return) : Build Unit :=
  match value.value with
  | some expr => do
      let operand ← lowerExpr table scope expr
      emit (.ret (some operand))
  | none => emit (.ret none)

/-- Lowers an arm of a conditional into a block, which goes on to `merge` unless it
returned. -/
def arm (index merge : Nat) (body : Build Unit) : Build Unit := do
  modify fun builder => builder.position index
  body
  if (← get).isTerminated then
    pure ()
  else
    emit (.jump merge)

/-- Lowers a conditional: a branch on the condition being neither zero nor NaN, one block
for each arm, and a block where the arms meet and lowering goes on. -/
def conditional (condition : Build Code.Operand) (thenArm : Build Unit)
    (elseArm : Option (Build Unit)) : Build Unit := do
  let value ← condition
  let flag ← change fun builder => builder.compare .one value (.const 0) "ifcond"
  let thenIndex ← createBlock "then"
  match elseArm with
  | none =>
      let merge ← createBlock "ifcont"
      emit (.branch flag thenIndex merge)
      arm thenIndex merge thenArm
      modify fun builder => builder.position merge
  | some elseArm =>
      let elseIndex ← createBlock "else"
      let merge ← createBlock "ifcont"
      emit (.branch flag thenIndex elseIndex)
      arm thenIndex merge thenArm
      arm elseIndex merge elseArm
      modify fun builder => builder.position merge

mutual

/-- Lowers a statement inside a function. -/
def lowerBodyStmt (table : Code.Module) (scope : Scope) : Stmt → Build Unit
  | .expression _ body => do
      let _ ← lowerExpr table scope body
  | .block body => lowerBlock table scope body
  | .ret value => lowerReturn table scope value
  | .branch condition thenBlock (some elseIf) _ _ =>
      conditional (lowerExpr table scope condition) (lowerBlock table scope thenBlock)
        (some (lowerBodyStmt table scope elseIf))
  | .branch condition thenBlock none (some elseBlock) _ =>
      conditional (lowerExpr table scope condition) (lowerBlock table scope thenBlock)
        (some (lowerBlock table scope elseBlock))
  | .branch condition thenBlock none none _ =>
      conditional (lowerExpr table scope condition) (lowerBlock table scope thenBlock) none
  | .prototype _ => throw (.insideFunction .prototypeStmt)
  | .function _ _ => throw (.insideFunction .functionStmt)

/-- Lowers the statements of a block and then its return. -/
def lowerBlock (table : Code.Module) (scope : Scope) : Block → Build Unit
  | .mk statements tail => do
      lowerStmts table scope statements
      match tail with
      | some value => lowerReturn table scope value
      | none => pure ()

/-- Lowers statements in order. -/
def lowerStmts (table : Code.Module) (scope : Scope) : List Stmt → Build Unit
  | [] => pure ()
  | statement :: statements => do
      lowerBodyStmt table scope statement
      lowerStmts table scope statements

end

/-- What the body of a function is made from. -/
inductive Source where
  | block (body : Block)
  | expr (body : Expr)

/-- Lowers the body of a function.  A block that does not return ends in an empty
return. -/
def lowerSource (table : Code.Module) (scope : Scope) : Source → Build Unit
  | .block body => do
      lowerBlock table scope body
      if (← get).isTerminated then
        pure ()
      else
        emit (.ret none)
  | .expr body => do
      let value ← lowerExpr table scope body
      emit (.ret (some value))

end Lowering
end ScalarScript
