import ScalarScript.Journal
import ScalarScript.Lowering.Body

/-!
# Lowering statements

A top-level statement declares or defines one function of the module.  A body is built
aside and attached only when all of it could be lowered; if that fails, or if the finished
body has a defect, the module is put back as it was.
-/

namespace ScalarScript

/-- What came of lowering a statement. -/
structure Lowered where
  table : Code.Module
  scope : Scope
  /-- The name of the function that was declared or defined. -/
  result : Except LoweringError String
  journal : List Journal.Entry

namespace Lowering

/-- Declares a prototype.  A function of the same name and arity is left as it is. -/
def lowerPrototype (proto : Prototype) (table : Code.Module) (scope : Scope) : Lowered :=
  match table.find? proto.name with
  | some function =>
      if function.arity ≠ proto.arity then
        ⟨table, scope,
          .error (.signatureMismatch proto.name function.arity proto.arity proto.span), []⟩
      else
        ⟨table, scope, .ok proto.name, []⟩
  | none =>
      ⟨table.declare proto.name proto.params, scope, .ok proto.name,
        [.declared proto.name proto.params]⟩

/-- Takes back the declaration of a function that could not be defined: its former
parameters come back, or it vanishes when it was not declared before. -/
def rollBack (table : Code.Module) (name : String) (former : Option Code.Function) :
    Code.Module :=
  match former with
  | some function => (table.discard name).setParams name function.params
  | none => table.erase name

/-- The entries about taking a declaration back. -/
def rollBackEntries (name : String) (former : Option Code.Function) (wasDefined : Bool)
    (error : LoweringError) : List Journal.Entry :=
  (match former with
    | some _ => if wasDefined then [.discarded name] else []
    | none => [.erased name]) ++ [.rolledBack name error]

/-- The module in which a function is declared with the parameters of its definition. -/
def announce (table : Code.Module) (proto : Prototype) : Code.Module :=
  (table.declare proto.name proto.params).setParams proto.name proto.params

/-- Checks the function that was just defined. -/
def verifyDefined (table : Code.Module) (proto : Prototype) : Except LoweringError Unit :=
  match table.find? proto.name with
  | none => .ok ()
  | some function =>
      match table.verifyFunction function with
      | .ok _ => .ok ()
      | .error error => .error (.verification error proto.span)

/-- Defines a function that is not defined yet; `former` is its declaration, if any. -/
def defineFunction (proto : Prototype) (source : Source) (table : Code.Module)
    (former : Option Code.Function) : Lowered :=
  let name := proto.name
  let announced := announce table proto
  let scope := Scope.ofParams name proto.params
  let declared : List Journal.Entry :=
    if former.isSome then [] else [.declared name proto.params]
  match lowerSource announced scope source .opened with
  | .error error builder =>
      ⟨rollBack announced name former, .empty, .error error,
        declared ++ Journal.ofBuilder builder ++ rollBackEntries name former false error⟩
  | .ok _ builder =>
      let defined := (announced.define? name builder.body).getD announced
      let journal := declared ++ Journal.ofBuilder builder ++
        [.defined name builder.body.blocks.length]
      match verifyDefined defined proto with
      | .ok _ => ⟨defined, .empty, .ok name, journal⟩
      | .error error =>
          ⟨rollBack defined name former, .empty, .error error,
            journal ++ rollBackEntries name former true error⟩

/-- Lowers the definition of a function. -/
def lowerFunction (proto : Prototype) (source : Source) (table : Code.Module)
    (scope : Scope) : Lowered :=
  match table.find? proto.name with
  | some function =>
      if function.isDefined then
        ⟨table, scope, .error (.functionRedefinition proto.name proto.span), []⟩
      else if function.arity ≠ proto.arity then
        ⟨table, scope,
          .error (.signatureMismatch proto.name function.arity proto.arity proto.span), []⟩
      else
        defineFunction proto source table (some function)
  | none => defineFunction proto source table none

/-- Lowers a top-level statement. -/
def lowerStmt (statement : Stmt) (table : Code.Module) (scope : Scope) : Lowered :=
  match statement with
  | .prototype proto => lowerPrototype proto table scope
  | .function proto body => lowerFunction proto (.block body) table scope
  | .expression proto body => lowerFunction proto (.expr body) table scope
  | .block _ => ⟨table, scope, .error (.outsideFunction .blockStmt), []⟩
  | .ret _ => ⟨table, scope, .error (.outsideFunction .returnStmt), []⟩
  | .branch .. => ⟨table, scope, .error (.outsideFunction .ifStmt), []⟩

/-- A module made from a program, or the error of the first statement that failed. -/
structure Program where
  result : Except LoweringError Code.Module
  journal : List Journal.Entry

/-- Lowers statements one after the other into a module.  Functions that wrap top-level
expressions are dropped once they went through. -/
def lowerInto (table : Code.Module) (scope : Scope) : List Stmt → Program
  | [] => ⟨.ok table, []⟩
  | statement :: statements =>
      let lowered := lowerStmt statement table scope
      match lowered.result with
      | .error error => ⟨.error error, lowered.journal⟩
      | .ok name =>
          if name = Prototype.anonymousName then
            let others := lowerInto (lowered.table.erase name) lowered.scope statements
            ⟨others.result, lowered.journal ++ .erased name :: others.journal⟩
          else
            let others := lowerInto lowered.table lowered.scope statements
            ⟨others.result, lowered.journal ++ others.journal⟩

/-- Lowers a program into a fresh module. -/
def lowerProgram (name : String) (statements : List Stmt) : Program :=
  lowerInto (.empty name) .empty statements

end Lowering
end ScalarScript
