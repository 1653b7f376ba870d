import ScalarScript.Proofs.KeepGoing

/-!
# Building and running agree

A script can be turned into a module in two ways: it is compiled as a whole, or it is executed
as the first chunk of a session that evaluates nothing.  Both scan, parse and lower, and drop
the functions of top-level expressions, each in its own manner; the result is the same module
or the same first failure.

Evaluating makes no difference to the module of a session either.  It decides what comes of
top-level expressions, and these leave nothing behind.
-/

namespace ScalarScript

open Lowering

namespace Session

/-! ## One statement -/

/-- The session that evaluates top-level expressions, or does not. -/
def evaluating (session : Session) (evaluate : Bool) : Session :=
  { session with evaluate := evaluate }

/-- What a statement leaves behind once it was lowered. -/
theorem session_runStmt
    {session : Session}
    {statement : Stmt}
    (outer : statement.Outer)
    {name : String}
    (lowered : (lowerStmt statement session.table session.scope).result = .ok name) :
    (session.runStmt statement).session =
      { session with
        table := settled name (lowerStmt statement session.table session.scope).table
        scope := (lowerStmt statement session.table session.scope).scope } := by
  have named := lowerStmt_name lowered
  simp only [runStmt, lowered, session_finish _ outer named, advance]

/-- A statement that could not be lowered fails for that reason. -/
theorem runStmt_unlowered
    {session : Session}
    {statement : Stmt}
    {error : LoweringError}
    (lowered : (lowerStmt statement session.table session.scope).result = .error error) :
    (session.runStmt statement).result = .error (.lowering error) := by
  simp only [runStmt, lowered]

/-- A statement that was lowered has an outcome when nothing is evaluated. -/
theorem runStmt_of_idle
    {session : Session}
    (idle : session.evaluate = false)
    {statement : Stmt}
    {name : String}
    (lowered : (lowerStmt statement session.table session.scope).result = .ok name) :
    ∃ outcome, (session.runStmt statement).result = .ok outcome := by
  by_cases isExpression : ∃ proto body, statement = .expression proto body
  · obtain ⟨proto, body, rfl⟩ := isExpression
    simp only [runStmt, lowered, finish]
    split
    · simp [finishExpression, advance, idle]
    · exact ⟨_, rfl⟩
  · simp only [not_exists] at isExpression
    exact session.runStmt_lowered isExpression lowered

/-! ## Building -/

/-- Lowering a program goes on with what its first statement leaves behind. -/
theorem lowerInto_of_ok
    {statement : Stmt}
    {table : Code.Module}
    {scope : Scope}
    {name : String}
    (lowered : (lowerStmt statement table scope).result = .ok name)
    (statements : List Stmt) :
    (lowerInto table scope (statement :: statements)).result =
      (lowerInto (settled name (lowerStmt statement table scope).table)
        (lowerStmt statement table scope).scope statements).result := by
  rw [lowerInto, settled]
  simp only [lowered]
  split <;> rfl

/-- What came of lowering a whole program is what came of it in a session: the same module, or
the same failure and no other. -/
def Agrees (built : Except LoweringError Code.Module) (ran : Session × Execution) : Prop :=
  match built with
  | .ok table => ran.2.failures = [] ∧ ran.1.table = table
  | .error error => ran.2.failures = [.lowering error]

/-- Running statements in a session that stops at failures and evaluates nothing is lowering
them one after the other. -/
theorem runStmts_agrees
    (session : Session)
    (stops : session.keepGoing = false)
    (idle : session.evaluate = false)
    {statements : List Stmt}
    (outer : ∀ statement ∈ statements, statement.Outer) :
    Agrees (lowerInto session.table session.scope statements).result
      (session.runStmts statements) := by
  induction statements generalizing session with
  | nil => exact ⟨rfl, rfl⟩
  | cons statement statements inductionHypothesis =>
      have outerHere := outer statement (.head _)
      have outerRest := fun other member => outer other (.tail statement member)
      cases lowered : (lowerStmt statement session.table session.scope).result with
      | error error =>
          have failed := runStmt_unlowered lowered
          simp [lowerInto, lowered, Agrees, runStmts, failed, stops, Execution.cons, Except.toBool]
      | ok name =>
          obtain ⟨outcome, passed⟩ := runStmt_of_idle idle lowered
          obtain ⟨sameGoing, sameEvaluate⟩ := session.runStmt_options statement
          have others := inductionHypothesis _ (sameGoing.trans stops)
            (sameEvaluate.trans idle) outerRest
          have continued : (session.runStmts (statement :: statements)).1 =
                ((session.runStmt statement).session.runStmts statements).1 ∧
              (session.runStmts (statement :: statements)).2.failures =
                ((session.runStmt statement).session.runStmts statements).2.failures := by
            simp [runStmts, passed, Except.toBool, Execution.cons]
          rw [lowerInto_of_ok lowered]
          unfold Agrees at others ⊢
          rw [continued.1, continued.2]
          rwa [session_runStmt outerHere lowered] at others ⊢

theorem compile_of_parse
    {script : Script}
    {statements : List Stmt}
    (parsed : script.parse.result = .ok statements) :
    script.compile.result = (lowerProgram script.name statements).result.mapError .lowering := by
  simp only [Script.compile, parsed]
  cases (lowerProgram script.name statements).result <;> rfl

theorem compile_of_unparsed
    {script : Script}
    {failure : Failure}
    (unparsed : script.parse.result = .error failure) :
    script.compile.result = .error failure := by
  simp only [Script.compile, unparsed]

/-- A chunk that does not scan and parse changes nothing; it has only failures, and the first
is the one that kept it from being parsed. -/
theorem execute_of_unparsed
    {script : Script}
    {failure : Failure}
    (unparsed : script.parse.result = .error failure)
    (session : Session) :
    (session.execute script).1 = session ∧
      (session.execute script).2.failures.head? = some failure ∧
      (session.execute script).2.outcomes = [] := by
  unfold Script.parse at unparsed
  cases errors : (scan script.content).errors with
  | cons error others =>
      simp only [errors, Except.error.injEq] at unparsed
      simp [execute, errors, unparsed]
  | nil =>
      cases read : (Parse.ofTokens (scan script.content).tokens).result with
      | error error =>
          simp only [errors, read, Except.error.injEq] at unparsed
          simp [execute, errors, read, unparsed]
      | ok statements =>
          simp only [errors, read] at unparsed
          cases unparsed

/-- Compiling a script and executing it agree on the module and on the first failure. -/
theorem compile_iff_execute (script : Script) :
    (∀ table, script.compile.result = .ok table ↔
      ((start script.name false false).execute script).2.failures = [] ∧
        ((start script.name false false).execute script).1.table = table) ∧
      ∀ failure, script.compile.result = .error failure →
        ((start script.name false false).execute script).2.failures.head? = some failure := by
  cases parsed : script.parse.result with
  | error failure =>
      obtain ⟨_, first, _⟩ := execute_of_unparsed parsed (start script.name false false)
      rw [compile_of_unparsed parsed]
      refine ⟨fun table => ⟨nofun, ?_⟩, ?_⟩
      · rintro ⟨noFailure, _⟩
        rw [noFailure] at first
        cases first
      · rintro other same
        cases same
        exact first
  | ok statements =>
      have outer := Parse.ofTokens_outer ((script.parse_eq_ok_iff statements).1 parsed).2
      have agrees := runStmts_agrees (.start script.name false false) rfl rfl outer
      obtain ⟨ranSession, _, ranFailures⟩ :=
        execute_of_parse parsed (start script.name false false)
      change Agrees (lowerProgram script.name statements).result _ at agrees
      rw [compile_of_parse parsed, ranSession, ranFailures]
      cases lowered : (lowerProgram script.name statements).result with
      | error error =>
          rw [lowered] at agrees
          change _ = [Failure.lowering error] at agrees
          rw [agrees]
          refine ⟨fun table => ⟨nofun, fun ran => nomatch ran.1⟩, ?_⟩
          rintro failure same
          cases same
          rfl
      | ok table =>
          rw [lowered] at agrees
          obtain ⟨noFailure, sameTable⟩ : _ = [] ∧ _ = table := agrees
          rw [noFailure, sameTable]
          refine ⟨fun other => by simp [Except.mapError], ?_⟩
          rintro failure same
          cases same

/-! ## Evaluating -/

end Session

/-- Whether the outcome is that of a prototype or of a definition. -/
def Outcome.declares : Outcome → Bool
  | .declared .. | .defined .. => true
  | .evaluated .. => false

namespace Session

/-- What came of the prototypes and definitions of a chunk that were accepted. -/
def Execution.accepted (execution : Execution) : List Outcome :=
  execution.outcomes.filter Outcome.declares

/-- A top-level expression is neither a prototype nor a definition. -/
theorem accepted_finishExpression
    (session : Session)
    (name listing : String) :
    (session.finishExpression name listing).result.toOption.toList.filter Outcome.declares =
      [] := by
  unfold finishExpression
  split
  · dsimp only
    split <;> rfl
  · rfl

/-- Evaluating makes no difference to the prototypes and definitions that are accepted. -/
theorem accepted_finish
    (session : Session)
    {statement : Stmt}
    (outer : statement.Outer)
    {name : String}
    (named : (heading? statement).map Prototype.name = some name)
    (evaluate : Bool) :
    ((session.evaluating evaluate).finish statement name).result.toOption.toList.filter
        Outcome.declares =
      (session.finish statement name).result.toOption.toList.filter Outcome.declares := by
  cases outer with
  | prototype ordinary => rfl
  | function ordinary grammatical => rfl
  | expression anonymous grammatical =>
      obtain rfl : Prototype.anonymousName = name := by
        simpa [heading?, anonymous.1] using named
      simp only [finish, if_true, accepted_finishExpression]

/-- Evaluating makes no difference to what a statement leaves behind, and none to what comes of
a prototype or a definition. -/
theorem runStmt_evaluating
    (session : Session)
    {statement : Stmt}
    (outer : statement.Outer)
    (evaluate : Bool) :
    ((session.evaluating evaluate).runStmt statement).session =
        (session.runStmt statement).session.evaluating evaluate ∧
      ((session.evaluating evaluate).runStmt statement).result.toOption.toList.filter
          Outcome.declares =
        (session.runStmt statement).result.toOption.toList.filter Outcome.declares := by
  cases lowered : (lowerStmt statement session.table session.scope).result with
  | error error =>
      have failed : ((session.evaluating evaluate).runStmt statement).result =
          .error (.lowering error) := runStmt_unlowered lowered
      refine ⟨?_, by rw [failed, runStmt_unlowered lowered]⟩
      simp only [runStmt, evaluating, advance, lowered]
  | ok name =>
      have named := lowerStmt_name lowered
      constructor
      · rw [session_runStmt outer lowered]
        exact session_runStmt outer lowered
      · have same := accepted_finish
          (session.advance (lowerStmt statement session.table session.scope)) outer named evaluate
        simpa only [runStmt, evaluating, advance, lowered] using same

theorem runStmts_evaluating
    {session : Session}
    (keeps : session.keepGoing = true)
    {statements : List Stmt}
    (outer : ∀ statement ∈ statements, statement.Outer)
    (evaluate : Bool) :
    ((session.evaluating evaluate).runStmts statements).1 =
        (session.runStmts statements).1.evaluating evaluate ∧
      ((session.evaluating evaluate).runStmts statements).2.accepted =
        (session.runStmts statements).2.accepted := by
  induction statements generalizing session with
  | nil => exact ⟨rfl, rfl⟩
  | cons statement statements inductionHypothesis =>
      have outerHere := outer statement (.head _)
      have outerRest := fun other member => outer other (.tail statement member)
      obtain ⟨sameSession, sameAccepted⟩ := runStmt_evaluating session outerHere evaluate
      obtain ⟨sameLast, sameOthers⟩ := inductionHypothesis
        ((session.runStmt_options statement).1.trans keeps) outerRest
      have keepsToo : (session.evaluating evaluate).keepGoing = true := keeps
      unfold Execution.accepted at sameOthers ⊢
      simp only [runStmts, keeps, keepsToo, Bool.or_true, if_true, Execution.cons,
        List.filter_append, sameSession, sameAccepted, sameLast, sameOthers, and_self]

theorem execute_evaluating
    {session : Session}
    (keeps : session.keepGoing = true)
    (script : Script)
    (evaluate : Bool) :
    ((session.evaluating evaluate).execute script).1 =
        (session.execute script).1.evaluating evaluate ∧
      ((session.evaluating evaluate).execute script).2.accepted =
        (session.execute script).2.accepted := by
  unfold Execution.accepted
  cases parsed : script.parse.result with
  | error failure =>
      obtain ⟨same, _, nothing⟩ := execute_of_unparsed parsed session
      obtain ⟨sameToo, _, nothingToo⟩ := execute_of_unparsed parsed (session.evaluating evaluate)
      rw [same, sameToo, nothing, nothingToo]
      exact ⟨rfl, rfl⟩
  | ok statements =>
      have outer := Parse.ofTokens_outer ((script.parse_eq_ok_iff statements).1 parsed).2
      obtain ⟨ran, outcomes, _⟩ := execute_of_parse parsed session
      obtain ⟨ranToo, outcomesToo, _⟩ := execute_of_parse parsed (session.evaluating evaluate)
      rw [ran, ranToo, outcomes, outcomesToo]
      exact runStmts_evaluating keeps outer evaluate

theorem execute_keepGoing
    (session : Session)
    (script : Script) :
    (session.execute script).1.keepGoing = session.keepGoing := by
  cases parsed : script.parse.result with
  | error failure => rw [(execute_of_unparsed parsed session).1]
  | ok statements => rw [(execute_of_parse parsed session).1, keepGoing_runStmts]

theorem executeAll_evaluating
    (session : Session)
    (keeps : session.keepGoing = true)
    (scripts : List Script)
    (evaluate : Bool) :
    ((session.evaluating evaluate).executeAll scripts).table =
        (session.executeAll scripts).table ∧
      ((session.evaluating evaluate).executions scripts).map Execution.accepted =
        (session.executions scripts).map Execution.accepted := by
  induction scripts generalizing session with
  | nil => exact ⟨rfl, rfl⟩
  | cons script scripts inductionHypothesis =>
      obtain ⟨sameSession, sameAccepted⟩ := execute_evaluating keeps script evaluate
      have keepsNext := (session.execute_keepGoing script).trans keeps
      obtain ⟨sameTable, sameOthers⟩ := inductionHypothesis _ keepsNext
      simp only [executeAll, executions, List.foldl_cons, List.map_cons, sameSession, sameAccepted,
        sameOthers, and_true]
      exact sameTable

/-- Building and running agree.  A script compiles to a module exactly when a session that stops
at failures and evaluates nothing executes it without failure and has that module then; and when
it does not compile, the reason is the first failure of the session.  Sessions that keep going,
one of which evaluates and the other not, have the same module after any scripts, and have
accepted the same prototypes and definitions of each. -/
theorem building_agrees_with_running :
    (∀ script : Script,
      (∀ table, script.compile.result = .ok table ↔
        ((start script.name false false).execute script).2.failures = [] ∧
          ((start script.name false false).execute script).1.table = table) ∧
        ∀ failure, script.compile.result = .error failure →
          ((start script.name false false).execute script).2.failures.head? = some failure) ∧
      ∀ (title : String) (scripts : List Script),
        ((start title true true).executeAll scripts).table =
            ((start title true false).executeAll scripts).table ∧
          ((start title true true).executions scripts).map Execution.accepted =
            ((start title true false).executions scripts).map Execution.accepted :=
  ⟨compile_iff_execute, fun title scripts =>
    executeAll_evaluating (.start title true false) rfl scripts true⟩

/-- The chunk that fails in each way does not compile, and one of its failures is that of a call
which only the session that evaluates makes. -/
theorem building_agrees_with_running_faulty :
    (∃ failure, faulty.compile.result = .error failure ∧
        ((start "faulty" false false).execute faulty).2.failures.head? = some failure) ∧
      ((start "faulty" true true).execute faulty).2.failures.length = 4 ∧
      ((start "faulty" true false).execute faulty).2.failures.length = 3 ∧
      ((start "faulty" true true).executeAll [faulty]).table =
        ((start "faulty" true false).executeAll [faulty]).table := by
  have refused : faulty.compile.result.toOption.isNone = true := by decide +kernel
  have evaluated : ((start "faulty" true true).execute faulty).2.failures.length = 4 := by
    decide +kernel
  have idle : ((start "faulty" true false).execute faulty).2.failures.length = 3 := by
    decide +kernel
  obtain ⟨builds, runs⟩ := building_agrees_with_running
  refine ⟨?_, evaluated, idle, (runs "faulty" [faulty]).1⟩
  cases built : faulty.compile.result with
  | error failure => exact ⟨failure, rfl, (builds faulty).2 failure built⟩
  | ok table =>
      rw [built] at refused
      cases refused

end Session
end ScalarScript
