import ScalarScript.Machine.Fault
import ScalarScript.Machine.Host
import ScalarScript.Tree

/-!
# The meaning of trees

A program can be run without making code of it: expressions are evaluated where they
stand, from left to right, statements one after the other, and a call looks its function
up among the statements of the program.  This is the meaning that code is compared with.

A tree that uses a name that is not bound, or a statement where it makes no sense, means
nothing; evaluating it gets stuck.
-/

namespace ScalarScript
namespace Walk

/-- Why an evaluation ends without a value. -/
inductive Halt where
  | fault (fault : Machine.Fault)
  /-- The tree means nothing. -/
  | stuck
deriving DecidableEq, Repr

/-- An evaluation with the texts printed so far, the latest first. -/
abbrev Eval := EStateM Halt (List String)

/-- Prints a text. -/
def say (text : String) : Eval Unit :=
  modify fun texts => text :: texts

/-- The number that stands for a truth value. -/
def truth (flag : Bool) : Float :=
  if flag then 1.0 else 0.0

/-- Whether one of two numbers is none. -/
def unordered (left right : Float) : Bool :=
  left.isNaN || right.isNaN

/-- The result of an operator.  Comparisons hold as well when a side is not a number. -/
def operate? (op : Token.Kind) (left right : Float) : Option Float :=
  match op with
  | .plus => some (left + right)
  | .minus => some (left - right)
  | .star => some (left * right)
  | .slash => some (left / right)
  | .lesser => some (truth (unordered left right || decide (left < right)))
  | .greater => some (truth (unordered left right || decide (right < left)))
  | .lesserEqual => some (truth (unordered left right || decide (left ≤ right)))
  | .greaterEqual => some (truth (unordered left right || decide (right ≤ left)))
  | .equalEqual => some (truth (unordered left right || left == right))
  | .bangEqual => some (truth (unordered left right || left != right))
  | _ => none

/-- Whether a condition lets its arm be taken: it is neither zero nor not a number. -/
def isTrue (condition : Float) : Bool :=
  !condition.isNaN && condition != 0

/-- The value of an optional result; without one the evaluation is stuck. -/
def orStuck {α : Type} : Option α → Eval α
  | some value => pure value
  | none => throw .stuck

section

variable (call : String → List Float → Eval Float) (env : String → Option Float)

mutual

/-- Evaluates an expression; `call` runs calls and `env` gives the values of names. -/
def expr : Expr → Eval Float
  | .num value _ => pure value
  | .var name _ => orStuck (env name)
  | .binary op left right _ => do
      let x ← expr left
      let y ← expr right
      orStuck (operate? op x y)
  | .call callee args _ => do
      let values ← exprs args
      call callee values

/-- Evaluates expressions from left to right. -/
def exprs : List Expr → Eval (List Float)
  | [] => pure []
  | arg :: args => do
      let value ← expr arg
      let values ← exprs args
      pure (value :: values)

end

/-- Evaluates a return; without an expression it returns zero. -/
def ret (value : Return) : Eval Float :=
  match value.value with
  | some body => expr call env body
  | none => pure 0

/-- Goes on with `next` unless a value was returned. -/
def unlessReturned (first next : Eval (Option Float)) : Eval (Option Float) := do
  match ← first with
  | some value => pure (some value)
  | none => next

/-- Takes one of two arms. -/
def choose (condition : Eval Float) (thenArm elseArm : Eval (Option Float)) :
    Eval (Option Float) := do
  if isTrue (← condition) then thenArm else elseArm

mutual

/-- Runs a statement inside a function, up to the value that it returns, if any. -/
def stmt : Stmt → Eval (Option Float)
  | .expression _ body => do
      let _ ← expr call env body
      pure none
  | .block body => block body
  | .ret value => some <$> ret call env value
  | .branch condition thenBlock (some elseIf) _ _ =>
      choose (expr call env condition) (block thenBlock) (stmt elseIf)
  | .branch condition thenBlock none (some elseBlock) _ =>
      choose (expr call env condition) (block thenBlock) (block elseBlock)
  | .branch condition thenBlock none none _ =>
      choose (expr call env condition) (block thenBlock) (pure none)
  | .prototype _ => throw .stuck
  | .function _ _ => throw .stuck

/-- Runs the statements of a block and then its return. -/
def block : Block → Eval (Option Float)
  | .mk statements tail =>
      unlessReturned (stmts statements)
        (match tail with
          | some value => some <$> ret call env value
          | none => pure none)

/-- Runs statements in order. -/
def stmts : List Stmt → Eval (Option Float)
  | [] => pure none
  | statement :: statements => unlessReturned (stmt statement) (stmts statements)

end

end

/-- A function as a program states it. -/
structure Definition where
  params : List String
  /-- A function that is only declared has no body. -/
  body : Option Block

/-- The definition of a name in one statement. -/
def definition? (name : String) : Stmt → Option Definition
  | .function proto body => if proto.name = name then some ⟨proto.params, some body⟩ else none
  | _ => none

/-- The declaration of a name in one statement. -/
def declaration? (name : String) : Stmt → Option Definition
  | .prototype proto => if proto.name = name then some ⟨proto.params, none⟩ else none
  | _ => none

/-- The function of the given name: its definition or else its declaration, wherever it
stands in the program. -/
def function? (statements : List Stmt) (name : String) : Option Definition :=
  (statements.findSome? (definition? name)).or (statements.findSome? (declaration? name))

/-- The value of a parameter. -/
def argument? (params : List String) (args : List Float) (name : String) : Option Float :=
  (params.zip args).lookup name

/-- Runs the host function of the given name. -/
def serve (name : String) (args : List Float) : Eval Float :=
  match Machine.host? name args with
  | none => throw (.fault (.noBody name))
  | some result => do
      match result.printed with
      | some text => say text
      | none => pure ()
      pure result.value

/-- Calls a function of the program when `room` further calls of defined functions may be
nested. -/
def invoke (statements : List Stmt) (limit : Nat) (room : Nat) (name : String)
    (args : List Float) : Eval Float :=
  match function? statements name with
  | none => throw (.fault (.unknownFunction name))
  | some function =>
      if function.params.length ≠ args.length then
        throw (.fault (.arityMismatch name function.params.length args.length))
      else
        match function.body with
        | none => serve name args
        | some body =>
            match room with
            | 0 => throw (.fault (.stackOverflow limit name))
            | room + 1 => do
                -- falling off the end returns zero
                let returned ← block (invoke statements limit room)
                  (argument? function.params args) body
                pure (returned.getD 0)

/-- What came of running a program. -/
structure Outcome where
  result : Except Halt Float
  /-- The texts that were printed, in order. -/
  texts : List String

/-- The printed text. -/
def Outcome.printed (outcome : Outcome) : String :=
  String.join outcome.texts

/-- Calls a function of a program, with at most `limit` nested calls. -/
def call (statements : List Stmt) (limit : Nat) (name : String) (args : List Float) : Outcome :=
  match invoke statements limit limit name args [] with
  | .ok value texts => ⟨.ok value, texts.reverse⟩
  | .error halt texts => ⟨.error halt, texts.reverse⟩

end Walk
end ScalarScript
