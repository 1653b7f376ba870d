import ScalarScript.Proofs.Printing
import ScalarScript.Session

/-!
# Places matter for errors only

A tree and the same tree without spans are lowered to the same code, and run with the same
results, up to the places that errors name.  `Build.unlocated` is a step of lowering whose error
has lost its place; forgetting places goes through every way in which steps are put together.
-/

namespace ScalarScript

/-! ## Errors without places -/

/-- The error without its place. -/
def LexError.unlocated (error : LexError) : LexError :=
  { error with span := .zero }

/-- The error without its place. -/
def ParseError.unlocated : ParseError → ParseError
  | .expected what found => .expected what found.unlocated
  | .reservedName name _ => .reservedName name .zero
  | .duplicateParameter param function _ => .duplicateParameter param function .zero

/-- The error without its place. -/
def LoweringError.unlocated : LoweringError → LoweringError
  | .unknownVariable name _ => .unknownVariable name .zero
  | .unknownFunction name _ => .unknownFunction name .zero
  | .argumentCount name expected found _ => .argumentCount name expected found .zero
  | .invalidBinaryOperator op _ => .invalidBinaryOperator op .zero
  | .signatureMismatch name expected found _ => .signatureMismatch name expected found .zero
  | .functionRedefinition name _ => .functionRedefinition name .zero
  | .outsideFunction shape => .outsideFunction shape
  | .insideFunction shape => .insideFunction shape
  | .verification error _ => .verification error .zero

/-- The failure without its place. -/
def Failure.unlocated : Failure → Failure
  | .lexical error => .lexical error.unlocated
  | .grammatical error => .grammatical error.unlocated
  | .lowering error => .lowering error.unlocated
  | .running stop => .running stop

/-- The diagnostic without its place. -/
def Diagnostic.unlocated (diagnostic : Diagnostic) : Diagnostic :=
  { diagnostic with span := none }

/-- A failure without its place is presented as before, but for the place. -/
theorem Failure.diagnostic_unlocated (failure : Failure) :
    failure.unlocated.diagnostic.unlocated = failure.diagnostic.unlocated := by
  cases failure with
  | lexical error => rfl
  | grammatical error => cases error <;> rfl
  | lowering error => cases error <;> rfl
  | running stop => rfl

namespace Lowering

/-! ## Steps of lowering -/

/-- The step whose error has no place. -/
def Build.unlocated {α : Type} (build : Build α) : Build α :=
  EStateM.adaptExcept LoweringError.unlocated build

section Steps

variable {α β : Type}

@[simp] theorem unlocated_pure (value : α) :
    Build.unlocated (pure value : Build α) = pure value := rfl

@[simp] theorem unlocated_throw (error : LoweringError) :
    Build.unlocated (throw error : Build α) = throw error.unlocated := rfl

@[simp] theorem unlocated_change (step : Code.Builder → α × Code.Builder) :
    Build.unlocated (change step) = change step := rfl

@[simp] theorem unlocated_modify (step : Code.Builder → Code.Builder) :
    Build.unlocated (modify step) = modify step := rfl

@[simp] theorem unlocated_get : Build.unlocated (get : Build Code.Builder) = get := rfl

@[simp] theorem unlocated_createBlock (hint : String) :
    Build.unlocated (createBlock hint) = createBlock hint := rfl

@[simp] theorem unlocated_emit (op : Code.Op) :
    Build.unlocated (emit op) = emit op := rfl

/-- Forgetting places goes through steps one by one. -/
@[simp] theorem unlocated_bind
    (build : Build α)
    (next : α → Build β) :
    Build.unlocated (build >>= next) =
      Build.unlocated build >>= fun value => Build.unlocated (next value) := by
  funext builder
  change EStateM.adaptExcept _ (EStateM.bind _ _) builder =
    EStateM.bind (EStateM.adaptExcept _ _) _ builder
  cases built : build builder with
  | ok value after => simp only [EStateM.adaptExcept, EStateM.bind, Build.unlocated, built]
  | error error after => simp only [EStateM.adaptExcept, EStateM.bind, built]

end Steps

/-- The code of an operation does not depend on its place. -/
theorem unlocated_binary
    (op : Token.Kind)
    (lhs rhs : Code.Operand)
    (span : Span) :
    Build.unlocated (binary op lhs rhs span) = binary op lhs rhs .zero := by
  unfold binary
  cases arith? op with
  | some arith => rfl
  | none =>
      cases predicate? op with
      | some predicate => simp
      | none => rfl

@[simp] theorem length_unlocatedAll (exprs : List Expr) :
    (Expr.unlocatedAll exprs).length = exprs.length := by
  induction exprs with
  | nil => rfl
  | cons expr exprs inductionHypothesis => simp [Expr.unlocatedAll, inductionHypothesis]

mutual

/-- The code of an expression does not depend on its places. -/
theorem lowerExpr_unlocated
    (table : Code.Module)
    (scope : Scope)
    (expr : Expr) :
    lowerExpr table scope expr.unlocated = Build.unlocated (lowerExpr table scope expr) := by
  cases expr with
  | num value span => simp only [Expr.unlocated, lowerExpr, unlocated_pure]
  | var name span =>
      simp only [Expr.unlocated, lowerExpr]
      cases scope.lookup name with
      | some operand => rfl
      | none => rfl
  | binary op left right span =>
      simp only [Expr.unlocated, lowerExpr, lowerExpr_unlocated table scope left,
        lowerExpr_unlocated table scope right, unlocated_bind, unlocated_binary]
  | call callee args span =>
      simp only [Expr.unlocated, lowerExpr]
      cases table.find? callee with
      | none => rfl
      | some target =>
          simp only [length_unlocatedAll, lowerArgs_unlocated table scope args]
          split
          · rfl
          · simp only [unlocated_bind, unlocated_change]

/-- The code of arguments does not depend on their places. -/
theorem lowerArgs_unlocated
    (table : Code.Module)
    (scope : Scope)
    (args : List Expr) :
    lowerArgs table scope (Expr.unlocatedAll args) =
      Build.unlocated (lowerArgs table scope args) := by
  cases args with
  | nil => simp only [Expr.unlocatedAll, lowerArgs, unlocated_pure]
  | cons arg args =>
      simp only [Expr.unlocatedAll, lowerArgs, lowerExpr_unlocated table scope arg,
        lowerArgs_unlocated table scope args, unlocated_bind, unlocated_pure]

end

/-- The code of a return does not depend on its places. -/
theorem lowerReturn_unlocated
    (table : Code.Module)
    (scope : Scope)
    (value : Return) :
    lowerReturn table scope value.unlocated = Build.unlocated (lowerReturn table scope value) := by
  obtain ⟨value, span⟩ := value
  cases value with
  | none => rfl
  | some expr =>
      simp only [lowerReturn, Return.unlocated, Option.map_some, lowerExpr_unlocated,
        unlocated_bind, unlocated_emit]

theorem unlocated_arm
    (index merge : Nat)
    (body : Build Unit) :
    Build.unlocated (arm index merge body) = arm index merge (Build.unlocated body) := by
  simp only [arm, unlocated_bind, unlocated_modify, unlocated_get, apply_ite Build.unlocated,
    unlocated_pure, unlocated_emit]

/-- The code of a branch does not depend on its places. -/
theorem unlocated_conditional
    (condition : Build Code.Operand)
    (thenArm : Build Unit)
    (elseArm : Option (Build Unit)) :
    Build.unlocated (conditional condition thenArm elseArm) =
      conditional (Build.unlocated condition) (Build.unlocated thenArm)
        (elseArm.map Build.unlocated) := by
  cases elseArm with
  | none =>
      simp only [conditional, unlocated_bind, unlocated_change, unlocated_createBlock,
        unlocated_emit, unlocated_arm, unlocated_modify, Option.map_none]
  | some elseArm =>
      simp only [conditional, unlocated_bind, unlocated_change, unlocated_createBlock,
        unlocated_emit, unlocated_arm, unlocated_modify, Option.map_some]

mutual

/-- The code of a statement does not depend on its places. -/
theorem lowerBodyStmt_unlocated
    (table : Code.Module)
    (scope : Scope)
    (statement : Stmt) :
    lowerBodyStmt table scope statement.unlocated =
      Build.unlocated (lowerBodyStmt table scope statement) := by
  cases statement with
  | prototype proto | function proto body =>
      simp only [Stmt.unlocated, lowerBodyStmt, unlocated_throw, LoweringError.unlocated]
  | block body =>
      simp only [Stmt.unlocated, lowerBodyStmt, lowerBlock_unlocated table scope body]
  | ret value => simp only [Stmt.unlocated, lowerBodyStmt, lowerReturn_unlocated]
  | expression proto body =>
      simp only [Stmt.unlocated, lowerBodyStmt, lowerExpr_unlocated, unlocated_bind,
        unlocated_pure]
  | branch condition thenBlock elseIf elseBlock span =>
      have sameThen := lowerBlock_unlocated table scope thenBlock
      cases elseIf with
      | some other =>
          have sameOther := lowerBodyStmt_unlocated table scope other
          cases elseBlock with
          | none | some block =>
              simp only [Stmt.unlocated, lowerBodyStmt, unlocated_conditional,
                lowerExpr_unlocated, sameThen, sameOther, Option.map_some]
      | none =>
          cases elseBlock with
          | some block =>
              simp only [Stmt.unlocated, lowerBodyStmt, unlocated_conditional,
                lowerExpr_unlocated, sameThen, lowerBlock_unlocated table scope block,
                Option.map_some]
          | none =>
              simp only [Stmt.unlocated, lowerBodyStmt, unlocated_conditional,
                lowerExpr_unlocated, sameThen, Option.map_none]

/-- The code of a block does not depend on its places. -/
theorem lowerBlock_unlocated
    (table : Code.Module)
    (scope : Scope)
    (block : Block) :
    lowerBlock table scope block.unlocated = Build.unlocated (lowerBlock table scope block) := by
  obtain ⟨statements, tail⟩ := block
  have same := lowerStmts_unlocated table scope statements
  cases tail with
  | none =>
      simp only [Block.unlocated, lowerBlock, same, unlocated_bind, Option.map_none,
        unlocated_pure]
  | some value =>
      simp only [Block.unlocated, lowerBlock, same, unlocated_bind, Option.map_some,
        lowerReturn_unlocated]

theorem lowerStmts_unlocated
    (table : Code.Module)
    (scope : Scope)
    (statements : List Stmt) :
    lowerStmts table scope (Stmt.unlocatedAll statements) =
      Build.unlocated (lowerStmts table scope statements) := by
  cases statements with
  | nil => simp only [Stmt.unlocatedAll, lowerStmts, unlocated_pure]
  | cons statement statements =>
      simp only [Stmt.unlocatedAll, lowerStmts, unlocated_bind,
        lowerBodyStmt_unlocated table scope statement,
        lowerStmts_unlocated table scope statements]

end

/-- The source of a body without spans. -/
def Source.unlocated : Source → Source
  | .block body => .block body.unlocated
  | .expr body => .expr body.unlocated

/-- The code of a body does not depend on its places. -/
theorem lowerSource_unlocated
    (table : Code.Module)
    (scope : Scope)
    (source : Source) :
    lowerSource table scope source.unlocated =
      Build.unlocated (lowerSource table scope source) := by
  cases source with
  | block body =>
      simp only [Source.unlocated, lowerSource, lowerBlock_unlocated, unlocated_bind,
        unlocated_get, apply_ite Build.unlocated, unlocated_pure, unlocated_emit]
  | expr body =>
      simp only [Source.unlocated, lowerSource, lowerExpr_unlocated, unlocated_bind,
        unlocated_emit]

/-! ## Statements -/

/-- Lowering came to the same as before, with an error that has no place. -/
structure Forgets (bare located : Lowered) : Prop where
  table : bare.table = located.table
  scope : bare.scope = located.scope
  result : bare.result = located.result.mapError LoweringError.unlocated

@[simp] theorem name_unlocated (proto : Prototype) : proto.unlocated.name = proto.name := rfl

@[simp] theorem params_unlocated (proto : Prototype) :
    proto.unlocated.params = proto.params := rfl

/-- A function is announced without its place. -/
@[simp] theorem announce_unlocated
    (table : Code.Module)
    (proto : Prototype) :
    announce table proto.unlocated = announce table proto := rfl

/-- Verifying a function does not depend on its place. -/
theorem verifyDefined_unlocated
    (table : Code.Module)
    (proto : Prototype) :
    verifyDefined table proto.unlocated =
      (verifyDefined table proto).mapError LoweringError.unlocated := by
  simp only [verifyDefined, name_unlocated]
  cases table.find? proto.name with
  | none => rfl
  | some function =>
      dsimp only
      cases table.verifyFunction function with
      | ok _ => rfl
      | error error => rfl

/-- Defining a function without places gives the same table, and the same error without its place.
-/
theorem defineFunction_forgets
    (proto : Prototype)
    (source : Source)
    (table : Code.Module)
    (former : Option Code.Function) :
    Forgets (defineFunction proto.unlocated source.unlocated table former)
      (defineFunction proto source table former) := by
  have same := congrFun (lowerSource_unlocated (announce table proto)
    (Scope.ofParams proto.name proto.params) source) .opened
  cases built : lowerSource (announce table proto)
      (Scope.ofParams proto.name proto.params) source .opened with
  | error error builder =>
      simp only [Build.unlocated, EStateM.adaptExcept, built] at same
      constructor <;>
        simp only [defineFunction, announce_unlocated, name_unlocated, params_unlocated, same,
          built, Except.mapError]
  | ok _ builder =>
      simp only [Build.unlocated, EStateM.adaptExcept, built] at same
      cases verified : verifyDefined
          (((announce table proto).define? proto.name builder.body).getD (announce table proto))
          proto with
      | ok _ =>
          constructor <;>
            simp only [defineFunction, announce_unlocated, name_unlocated, params_unlocated, same,
              built, verifyDefined_unlocated, verified, Except.mapError]
      | error error =>
          constructor <;>
            simp only [defineFunction, announce_unlocated, name_unlocated, params_unlocated, same,
              built, verifyDefined_unlocated, verified, Except.mapError]

/-- Lowering a declaration without places gives the same table and scope. -/
theorem lowerPrototype_forgets
    (proto : Prototype)
    (table : Code.Module)
    (scope : Scope) :
    Forgets (lowerPrototype proto.unlocated table scope) (lowerPrototype proto table scope) := by
  simp only [lowerPrototype, name_unlocated, params_unlocated]
  cases table.find? proto.name with
  | none => exact ⟨rfl, rfl, rfl⟩
  | some function =>
      dsimp only
      by_cases differs : function.arity ≠ proto.arity
      · rw [if_pos differs, if_pos (show function.arity ≠ proto.unlocated.arity from differs)]
        exact ⟨rfl, rfl, rfl⟩
      · rw [if_neg differs, if_neg (show ¬function.arity ≠ proto.unlocated.arity from differs)]
        exact ⟨rfl, rfl, rfl⟩

/-- Lowering a definition without places gives the same table and scope, or the same error without
its place. -/
theorem lowerFunction_forgets
    (proto : Prototype)
    (source : Source)
    (table : Code.Module)
    (scope : Scope) :
    Forgets (lowerFunction proto.unlocated source.unlocated table scope)
      (lowerFunction proto source table scope) := by
  simp only [lowerFunction, name_unlocated]
  cases table.find? proto.name with
  | none => exact defineFunction_forgets proto source table none
  | some function =>
      dsimp only
      by_cases isDefined : function.isDefined = true
      · rw [if_pos isDefined, if_pos isDefined]
        exact ⟨rfl, rfl, rfl⟩
      · rw [if_neg isDefined, if_neg isDefined]
        by_cases differs : function.arity ≠ proto.arity
        · rw [if_pos differs, if_pos (show function.arity ≠ proto.unlocated.arity from differs)]
          exact ⟨rfl, rfl, rfl⟩
        · rw [if_neg differs, if_neg (show ¬function.arity ≠ proto.unlocated.arity from differs)]
          exact defineFunction_forgets proto source table (some function)

/-- Without spans a statement is lowered to the same code. -/
theorem lowerStmt_forgets
    (statement : Stmt)
    (table : Code.Module)
    (scope : Scope) :
    Forgets (lowerStmt statement.unlocated table scope) (lowerStmt statement table scope) := by
  cases statement with
  | prototype proto =>
      simp only [Stmt.unlocated, lowerStmt]
      exact lowerPrototype_forgets proto table scope
  | function proto body =>
      simp only [Stmt.unlocated, lowerStmt]
      exact lowerFunction_forgets proto (.block body) table scope
  | expression proto body =>
      simp only [Stmt.unlocated, lowerStmt]
      exact lowerFunction_forgets proto (.expr body) table scope
  | block body =>
      simp only [Stmt.unlocated, lowerStmt]
      exact ⟨rfl, rfl, rfl⟩
  | ret value =>
      simp only [Stmt.unlocated, lowerStmt]
      exact ⟨rfl, rfl, rfl⟩
  | branch condition thenBlock elseIf elseBlock span =>
      cases elseIf <;> cases elseBlock <;> simp only [Stmt.unlocated, lowerStmt] <;>
        exact ⟨rfl, rfl, rfl⟩

end Lowering

/-! ## Sessions -/

namespace Session

open Lowering

/-- What a session reports about a statement does not depend on its places. -/
theorem finish_unlocated
    (session : Session)
    (statement : Stmt)
    (name : String) :
    session.finish statement.unlocated name = session.finish statement name := by
  cases statement with
  | branch condition thenBlock elseIf elseBlock span =>
      cases elseIf <;> cases elseBlock <;> simp only [Stmt.unlocated, finish]
  | _ => simp only [Stmt.unlocated, finish]

/-- A statement that was lowered can only fail in the machine, which knows no places. -/
theorem mapError_finish
    (session : Session)
    (statement : Stmt)
    (name : String) :
    (session.finish statement name).result.mapError Failure.unlocated =
      (session.finish statement name).result := by
  cases statement with
  | expression proto body =>
      simp only [finish]
      split
      · simp only [finishExpression]
        split
        · cases (Machine.call session.table Machine.defaultLimit name []).result with
          | ok value => rfl
          | error stop => rfl
        · rfl
      · rfl
  | _ => rfl

/-- Without spans a statement comes to the same, with a failure that has no place. -/
theorem runStmt_unlocated
    (session : Session)
    (statement : Stmt) :
    (session.runStmt statement.unlocated).session = (session.runStmt statement).session ∧
      (session.runStmt statement.unlocated).result =
        (session.runStmt statement).result.mapError Failure.unlocated ∧
      (session.runStmt statement.unlocated).printed = (session.runStmt statement).printed := by
  obtain ⟨sameTable, sameScope, sameResult⟩ :=
    lowerStmt_forgets statement session.table session.scope
  have sameSession : session.advance (lowerStmt statement.unlocated session.table session.scope) =
      session.advance (lowerStmt statement session.table session.scope) := by
    simp only [advance, sameTable, sameScope]
  cases lowered : (lowerStmt statement session.table session.scope).result with
  | error error =>
      rw [lowered] at sameResult
      simp only [runStmt, sameResult, lowered, Except.mapError, sameSession, Failure.unlocated,
        and_self]
  | ok name =>
      rw [lowered] at sameResult
      simp only [runStmt, sameResult, lowered, Except.mapError, sameSession, finish_unlocated,
        true_and, and_true]
      exact (mapError_finish _ statement name).symm

/-- Without spans a chunk comes to the same, with failures that have no place. -/
theorem runStmts_unlocated
    (session : Session)
    (statements : List Stmt) :
    (session.runStmts (Stmt.unlocatedAll statements)).1 = (session.runStmts statements).1 ∧
      (session.runStmts (Stmt.unlocatedAll statements)).2.outcomes =
        (session.runStmts statements).2.outcomes ∧
      (session.runStmts (Stmt.unlocatedAll statements)).2.failures =
        (session.runStmts statements).2.failures.map Failure.unlocated ∧
      (session.runStmts (Stmt.unlocatedAll statements)).2.printed =
        (session.runStmts statements).2.printed := by
  induction statements generalizing session with
  | nil => exact ⟨rfl, rfl, rfl, rfl⟩
  | cons statement statements inductionHypothesis =>
      obtain ⟨sameSession, sameResult, samePrinted⟩ := session.runStmt_unlocated statement
      obtain ⟨last, outcomes, failures, printed⟩ :=
        inductionHypothesis (session.runStmt statement).session
      cases result : (session.runStmt statement).result with
      | ok outcome =>
          rw [result] at sameResult
          simp [Stmt.unlocatedAll, runStmts, Execution.cons, sameSession, sameResult, samePrinted,
            result, last, outcomes, failures, printed, Except.mapError, Except.toBool]
      | error failure =>
          rw [result] at sameResult
          cases keeps : session.keepGoing with
          | true =>
              simp [Stmt.unlocatedAll, runStmts, Execution.cons, sameSession, sameResult,
                samePrinted, result, last, outcomes, failures, printed, Except.mapError,
                Except.toOption, keeps]
          | false =>
              simp [Stmt.unlocatedAll, runStmts, Execution.cons, sameSession, sameResult,
                samePrinted, result, Except.mapError, Except.toBool, Except.toOption, keeps]

end Session
end ScalarScript
