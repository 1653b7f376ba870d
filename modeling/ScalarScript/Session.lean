import ScalarScript.Lowering
import ScalarScript.Script

/-!
# Sessions

A session keeps one module and feeds it one chunk of text at a time.  A chunk is scanned
and parsed as a whole and then lowered statement by statement; top-level expressions are
run and dropped.
-/

namespace ScalarScript

/-- Everything that can be wrong with a chunk. -/
inductive Failure where
  | lexical (error : LexError)
  | grammatical (error : ParseError)
  | lowering (error : LoweringError)
  | running (stop : Machine.Stop)
deriving Repr

namespace Failure

/-- The failure as it is presented. -/
def diagnostic : Failure → Diagnostic
  | .lexical error => error.diagnostic
  | .grammatical error => error.diagnostic
  | .lowering error => error.diagnostic
  | .running (.fault fault) => fault.diagnostic
  | .running .outOfSteps =>
      { issuer := Machine.Fault.issuer, message := "call did not finish" }

end Failure

namespace Script

/-- A script turned into something, or the failure that prevented it. -/
structure Compilation (α : Type) where
  result : Except Failure α
  journal : List Journal.Entry

/-- Scans and parses a script.  The first lexical error comes before any other. -/
def parse (script : Script) : Compilation (List Stmt) :=
  let scanned := scan script.content
  match scanned.errors with
  | error :: _ => ⟨.error (.lexical error), Journal.ofScan scanned⟩
  | [] =>
      let parsed := Parse.ofTokens scanned.tokens
      let journal := Journal.ofScan scanned ++ Journal.ofParse parsed
      match parsed.result with
      | .error error => ⟨.error (.grammatical error), journal⟩
      | .ok statements => ⟨.ok statements, journal⟩

/-- Turns a script into a module of its name. -/
def compile (script : Script) : Compilation Code.Module :=
  let parsed := script.parse
  match parsed.result with
  | .error failure => ⟨.error failure, parsed.journal⟩
  | .ok statements =>
      let program := Lowering.lowerProgram script.name statements
      let journal := parsed.journal ++ program.journal
      match program.result with
      | .error error => ⟨.error (.lowering error), journal⟩
      | .ok table => ⟨.ok table, journal⟩

end Script

/-- What a statement that went through produced, with the listing of its function. -/
inductive Outcome where
  | declared (name listing : String)
  | defined (name listing : String)
  /-- A top-level expression, with its value if it was run. -/
  | evaluated (value : Option Float) (listing : String)
deriving Repr

namespace Outcome

/-- The listing of the function. -/
def listing : Outcome → String
  | .declared _ listing => listing
  | .defined _ listing => listing
  | .evaluated _ listing => listing

/-- The value of an expression that was run. -/
def value? : Outcome → Option Float
  | .evaluated value _ => value
  | _ => none

end Outcome

/-- A module that grows chunk by chunk. -/
structure Session where
  table : Code.Module
  scope : Scope
  /-- A chunk goes on after a statement that fails. -/
  keepGoing : Bool
  /-- Top-level expressions are run. -/
  evaluate : Bool

namespace Session

/-- A session with an empty module. -/
def start (name : String) (keepGoing evaluate : Bool) : Session :=
  ⟨.empty name, .empty, keepGoing, evaluate⟩

/-- What came of one statement. -/
structure Step where
  session : Session
  result : Except Failure Outcome
  journal : List Journal.Entry
  printed : String

/-- The session after a statement was lowered. -/
def advance (session : Session) (lowered : Lowered) : Session :=
  { session with table := lowered.table, scope := lowered.scope }

/-- The session without the given function. -/
def erase (session : Session) (name : String) : Session :=
  { session with table := session.table.erase name }

/-- Runs the function of a top-level expression, and drops it in any case. -/
def finishExpression (session : Session) (name listing : String) : Step :=
  if session.evaluate then
    let run := Machine.call session.table Machine.defaultLimit name []
    let journal := Journal.ofRun name [] run ++ [.erased name]
    match run.result with
    | .ok value =>
        ⟨session.erase name, .ok (.evaluated (some value) listing),
          journal ++ [.statementEvaluated (some value)], run.printed⟩
    | .error stop => ⟨session.erase name, .error (.running stop), journal, run.printed⟩
  else
    ⟨session.erase name, .ok (.evaluated none listing),
      [.erased name, .statementEvaluated none], ""⟩

/-- Finishes a statement that was lowered to the function of the given name. -/
def finish (session : Session) (statement : Stmt) (name : String) : Step :=
  let listing := ((session.table.find? name).map Code.Function.listing).getD ""
  match statement with
  | .prototype _ =>
      ⟨session, .ok (.declared name listing), [.statementDeclared name], ""⟩
  | .expression _ _ =>
      if name = Prototype.anonymousName then
        session.finishExpression name listing
      else
        ⟨session, .ok (.defined name listing), [.statementDefined name], ""⟩
  | _ => ⟨session, .ok (.defined name listing), [.statementDefined name], ""⟩

/-- Lowers a statement and runs it when it is a top-level expression. -/
def runStmt (session : Session) (statement : Stmt) : Step :=
  let lowered := Lowering.lowerStmt statement session.table session.scope
  let session := session.advance lowered
  match lowered.result with
  | .error error => ⟨session, .error (.lowering error), lowered.journal, ""⟩
  | .ok name =>
      let step := session.finish statement name
      { step with journal := lowered.journal ++ step.journal }

/-- What came of a chunk. -/
structure Execution where
  outcomes : List Outcome := []
  failures : List Failure := []
  journal : List Journal.Entry := []
  printed : String := ""

namespace Execution

/-- Whether nothing failed. -/
def isOk (execution : Execution) : Bool :=
  execution.failures.isEmpty

/-- The values of the expressions that were run. -/
def values (execution : Execution) : List Float :=
  execution.outcomes.filterMap Outcome.value?

/-- The execution with what came of one more statement in front. -/
def cons (step : Step) (others : Execution) : Execution :=
  { outcomes := step.result.toOption.toList ++ others.outcomes
    failures := (match step.result with
      | .error failure => [failure]
      | .ok _ => []) ++ others.failures
    journal := step.journal ++ others.journal
    printed := step.printed ++ others.printed }

end Execution

/-- Runs statements in order, stopping at the first failure unless the session keeps
going. -/
def runStmts (session : Session) : List Stmt → Session × Execution
  | [] => (session, {})
  | statement :: statements =>
      let step := session.runStmt statement
      if step.result.toBool || session.keepGoing then
        let others := runStmts step.session statements
        (others.1, .cons step others.2)
      else
        (step.session, .cons step {})

/-- Runs a chunk.  Lexical errors are all reported and keep the chunk from being parsed; a
grammatical error keeps it from being lowered. -/
def execute (session : Session) (script : Script) : Session × Execution :=
  let scanned := scan script.content
  let scanEntries := Journal.ofScan scanned
  if scanned.errors.isEmpty then
    let parsed := Parse.ofTokens scanned.tokens
    let entries := scanEntries ++ Journal.ofParse parsed
    match parsed.result with
    | .error error => (session, { failures := [.grammatical error], journal := entries })
    | .ok statements =>
        let ran := session.runStmts statements
        (ran.1, { ran.2 with journal := entries ++ ran.2.journal })
  else
    (session,
      { failures := scanned.errors.map .lexical
        journal := scanEntries ++ [.unreadable scanned.errors.length script.name] })

end Session
end ScalarScript
