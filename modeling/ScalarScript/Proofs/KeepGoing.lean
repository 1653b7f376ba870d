import ScalarScript.Proofs.SessionInvariant

/-!
# Failures leave no trace

A statement that fails, in lowering or in the machine, leaves the session as it was, and so
does every top-level expression.  A chunk that keeps going after failures is therefore worth
as much as the chunk made of those of its statements that went through; and a chunk that
stops at the first failure has come exactly as far as the one that keeps going had come by
then.  `trace` lists what came of each statement of a chunk that keeps going.
-/

namespace ScalarScript

open Lowering

/-- A script parses when it scans without errors and its tokens are a program. -/
theorem Script.parse_eq_ok_iff
    (script : Script)
    (statements : List Stmt) :
    script.parse.result = .ok statements ↔
      (scan script.content).errors = [] ∧
        (Parse.ofTokens (scan script.content).tokens).result = .ok statements := by
  unfold Script.parse
  cases errors : (scan script.content).errors with
  | cons error others => simp [errors]
  | nil =>
      cases read : (Parse.ofTokens (scan script.content).tokens).result with
      | error error => simp [errors, read]
      | ok others => simp [errors, read]

namespace Session

/-- The session that keeps going after failures, or does not. -/
def going (session : Session) (keepGoing : Bool) : Session :=
  { session with keepGoing := keepGoing }

@[simp] theorem table_going (session : Session) (keepGoing : Bool) :
    (session.going keepGoing).table = session.table := rfl

/-- The failure, if the statement failed. -/
def failure? : Except Failure Outcome → Option Failure
  | .error failure => some failure
  | .ok _ => none

/-- The statements of a chunk, each with what came of it, when the chunk goes on after
failures. -/
def trace (session : Session) : List Stmt → List (Stmt × Except Failure Outcome)
  | [] => []
  | statement :: statements =>
      let step := session.runStmt statement
      (statement, step.result) :: step.session.trace statements

/-- What came of the statements of a chunk that goes on after failures. -/
def results (session : Session) (statements : List Stmt) : List (Except Failure Outcome) :=
  (session.trace statements).map Prod.snd

/-- The statements of a chunk that do not fail. -/
def passing (session : Session) (statements : List Stmt) : List Stmt :=
  ((session.trace statements).filter fun entry => entry.2.toBool).map Prod.fst

@[simp] theorem results_nil (session : Session) : session.results [] = [] := rfl

@[simp] theorem results_cons
    (session : Session)
    (statement : Stmt)
    (statements : List Stmt) :
    session.results (statement :: statements) =
      (session.runStmt statement).result ::
        (session.runStmt statement).session.results statements := rfl

@[simp] theorem length_results
    (session : Session)
    (statements : List Stmt) :
    (session.results statements).length = statements.length := by
  induction statements generalizing session with
  | nil => rfl
  | cons statement statements inductionHypothesis => simp [inductionHypothesis]

theorem passing_of_ok
    {session : Session}
    {statement : Stmt}
    {outcome : Outcome}
    (passed : (session.runStmt statement).result = .ok outcome)
    (statements : List Stmt) :
    session.passing (statement :: statements) =
      statement :: (session.runStmt statement).session.passing statements := by
  simp [passing, trace, passed, Except.toBool]

theorem passing_of_error
    {session : Session}
    {statement : Stmt}
    {failure : Failure}
    (failed : (session.runStmt statement).result = .error failure)
    (statements : List Stmt) :
    session.passing (statement :: statements) =
      (session.runStmt statement).session.passing statements := by
  simp [passing, trace, failed, Except.toBool]

/-! ## Options -/

theorem finishExpression_going
    (session : Session)
    (keepGoing : Bool)
    (name listing : String) :
    ((session.going keepGoing).finishExpression name listing).result =
      (session.finishExpression name listing).result := by
  unfold finishExpression going
  cases session.evaluate with
  | false => rfl
  | true =>
      cases ran : (Machine.call session.table Machine.defaultLimit name []).result with
      | ok value => simp [ran]
      | error stop => simp [ran]

theorem session_finish_of_expression
    (session : Session)
    (proto : Prototype)
    (body : Expr)
    (name : String) :
    (session.finish (.expression proto body) name).session =
      if name = Prototype.anonymousName then session.erase name else session := by
  by_cases anonymous : name = Prototype.anonymousName
  · simp [finish, anonymous, session_finishExpression]
  · simp [finish, anonymous]

/-- What comes of a statement does not depend on whether the chunk keeps going. -/
theorem finish_going
    (session : Session)
    (keepGoing : Bool)
    (statement : Stmt)
    (name : String) :
    ((session.going keepGoing).finish statement name).result =
        (session.finish statement name).result ∧
      ((session.going keepGoing).finish statement name).session =
        (session.finish statement name).session.going keepGoing := by
  cases statement with
  | expression proto body =>
      simp only [session_finish_of_expression]
      by_cases anonymous : name = Prototype.anonymousName
      · refine ⟨?_, by simp [anonymous, going, erase]⟩
        simp only [finish, anonymous, if_true, table_going]
        exact finishExpression_going session keepGoing _ _
      · simp [finish, anonymous]
  | _ => exact ⟨rfl, rfl⟩

theorem runStmt_going
    (session : Session)
    (keepGoing : Bool)
    (statement : Stmt) :
    ((session.going keepGoing).runStmt statement).result = (session.runStmt statement).result ∧
      ((session.going keepGoing).runStmt statement).session =
        (session.runStmt statement).session.going keepGoing := by
  have finished := finish_going
    (session.advance (lowerStmt statement session.table session.scope)) keepGoing statement
  cases lowered : (lowerStmt statement session.table session.scope).result with
  | error error => simp [runStmt, going, advance, lowered]
  | ok name => simpa only [runStmt, going, advance, lowered] using finished name

/-- A statement changes no option. -/
theorem runStmt_options
    (session : Session)
    (statement : Stmt) :
    (session.runStmt statement).session.keepGoing = session.keepGoing ∧
      (session.runStmt statement).session.evaluate = session.evaluate := by
  cases lowered : (lowerStmt statement session.table session.scope).result with
  | error error => simp [runStmt, advance, lowered]
  | ok name =>
      simp only [runStmt, lowered]
      cases statement with
      | expression proto body =>
          rw [session_finish_of_expression]
          split <;> exact ⟨rfl, rfl⟩
      | _ => exact ⟨rfl, rfl⟩

/-- Nor does a chunk. -/
theorem keepGoing_runStmts
    (session : Session)
    (statements : List Stmt) :
    (session.runStmts statements).1.keepGoing = session.keepGoing := by
  induction statements generalizing session with
  | nil => rfl
  | cons statement statements inductionHypothesis =>
      have same := (session.runStmt_options statement).1
      simp only [runStmts]
      split
      · exact (inductionHypothesis _).trans same
      · exact same

theorem trace_going
    (session : Session)
    (keepGoing : Bool)
    (statements : List Stmt) :
    (session.going keepGoing).trace statements = session.trace statements := by
  induction statements generalizing session with
  | nil => rfl
  | cons statement statements inductionHypothesis =>
      obtain ⟨sameResult, sameSession⟩ := session.runStmt_going keepGoing statement
      simp only [trace, sameResult, sameSession, inductionHypothesis]

/-! ## Outcomes and failures -/

/-- A chunk that keeps going has the outcomes and failures of all its statements. -/
theorem runStmts_keepGoing
    (session : Session)
    (keeps : session.keepGoing = true)
    (statements : List Stmt) :
    (session.runStmts statements).2.outcomes =
        (session.results statements).filterMap Except.toOption ∧
      (session.runStmts statements).2.failures =
        (session.results statements).filterMap failure? := by
  induction statements generalizing session with
  | nil => exact ⟨rfl, rfl⟩
  | cons statement statements inductionHypothesis =>
      have keepsNext := (session.runStmt_options statement).1.trans keeps
      obtain ⟨outcomes, failures⟩ := inductionHypothesis _ keepsNext
      cases result : (session.runStmt statement).result with
      | ok outcome =>
          simp [runStmts, keeps, Execution.cons, result, outcomes, failures, Except.toOption,
            failure?, List.filterMap_cons]
      | error failure =>
          simp [runStmts, keeps, Execution.cons, result, outcomes, failures, Except.toOption,
            failure?, List.filterMap_cons]

/-- A chunk that stops at the first failure has the outcomes up to it, and that failure. -/
theorem runStmts_stopping
    (session : Session)
    (stops : session.keepGoing = false)
    (statements : List Stmt) :
    (session.runStmts statements).2.outcomes =
        ((session.results statements).takeWhile Except.toBool).filterMap Except.toOption ∧
      (session.runStmts statements).2.failures =
        ((session.results statements).filterMap failure?).take 1 := by
  induction statements generalizing session with
  | nil => exact ⟨rfl, rfl⟩
  | cons statement statements inductionHypothesis =>
      have stopsNext := (session.runStmt_options statement).1.trans stops
      obtain ⟨outcomes, failures⟩ := inductionHypothesis _ stopsNext
      cases result : (session.runStmt statement).result with
      | ok outcome =>
          simp [runStmts, Execution.cons, result, outcomes, failures, Except.toOption, failure?,
            Except.toBool, List.filterMap_cons, List.takeWhile_cons]
      | error failure =>
          simp [runStmts, stops, Execution.cons, result, Except.toOption, failure?, Except.toBool]

/-! ## What a statement leaves behind -/

/-- A prototype or a definition fails only in lowering. -/
theorem runStmt_lowered
    (session : Session)
    {statement : Stmt}
    (declares : ∀ proto body, statement ≠ .expression proto body)
    {name : String}
    (lowered : (lowerStmt statement session.table session.scope).result = .ok name) :
    ∃ outcome, (session.runStmt statement).result = .ok outcome := by
  cases statement with
  | prototype proto =>
      simp only [runStmt, lowered, finish]
      exact ⟨_, rfl⟩
  | function proto body =>
      simp only [runStmt, lowered, finish]
      exact ⟨_, rfl⟩
  | expression proto body => exact absurd rfl (declares proto body)
  | _ => cases lowered

/-- A statement that fails leaves the session as it was, and so does an expression. -/
theorem Settled.runStmt_unchanged
    {session : Session}
    (settledBefore : session.Settled)
    {statement : Stmt}
    (outer : statement.Outer)
    (idle : (∃ failure, (session.runStmt statement).result = .error failure) ∨
      ∃ proto body, statement = .expression proto body) :
    (session.runStmt statement).session = session := by
  have sameTable : (session.runStmt statement).session.table = session.table := by
    cases lowered : (lowerStmt statement session.table session.scope).result with
    | error error =>
        simpa only [Session.runStmt, lowered, advance] using lowerStmt_error lowered
    | ok name =>
        have applied := lowerStmt_ok settledBefore.sound.noAnonymous outer lowered
        have named := lowerStmt_name lowered
        have after : (session.runStmt statement).session.table =
            settled name (lowerStmt statement session.table session.scope).table := by
          simp only [Session.runStmt, lowered, session_finish _ outer named, advance]
        -- of the statements that were lowered only an expression can still fail
        have isExpression : ∃ proto body, statement = .expression proto body := by
          rcases idle with ⟨failure, failed⟩ | isExpression
          · by_contra declares
            simp only [not_exists] at declares
            obtain ⟨outcome, passed⟩ := session.runStmt_lowered declares lowered
            rw [failed] at passed
            cases passed
          · exact isExpression
        obtain ⟨proto, body, rfl⟩ := isExpression
        rw [after]
        generalize settled name _ = final at applied
        cases applied with
        | evaluated => rfl
  obtain ⟨scopeAfter, _⟩ := runStmt_cases settledBefore outer
  obtain ⟨sameGoing, sameEvaluate⟩ := session.runStmt_options statement
  have sameScope := scopeAfter.trans settledBefore.scope.symm
  calc (session.runStmt statement).session
      = ⟨session.table, session.scope, session.keepGoing, session.evaluate⟩ := by
        rw [← sameTable, ← sameScope, ← sameGoing, ← sameEvaluate]
    _ = session := rfl

/-- Whether a statement is a prototype or a definition. -/
def declares : Stmt → Bool
  | .prototype _ | .function _ _ => true
  | _ => false

/-- The table into which prototypes and definitions were lowered one after the other. -/
def applyAll (table : Code.Module) (statements : List Stmt) : Code.Module :=
  statements.foldl (fun table statement => (lowerStmt statement table .empty).table) table

/-- Running a prototype or a definition is lowering it. -/
theorem runStmt_table
    (session : Session)
    {statement : Stmt}
    (isDeclaration : declares statement = true) :
    (session.runStmt statement).session.table =
      (lowerStmt statement session.table session.scope).table := by
  cases lowered : (lowerStmt statement session.table session.scope).result with
  | error error => simp only [runStmt, lowered, advance]
  | ok name =>
      cases statement with
      | prototype proto => simp only [runStmt, lowered, finish, advance]
      | function proto body => simp only [runStmt, lowered, finish, advance]
      | _ => cases isDeclaration

/-! ## Chunks -/

/-- From a chunk that keeps going the statements that fail can be left out. -/
theorem Settled.runStmts_passing
    {session : Session}
    (settledBefore : session.Settled)
    (keeps : session.keepGoing = true)
    {statements : List Stmt}
    (outer : ∀ statement ∈ statements, statement.Outer) :
    (session.runStmts (session.passing statements)).1 = (session.runStmts statements).1 ∧
      (session.runStmts (session.passing statements)).2.outcomes =
        (session.runStmts statements).2.outcomes := by
  induction statements generalizing session with
  | nil => exact ⟨rfl, rfl⟩
  | cons statement statements inductionHypothesis =>
      have outerHere := outer statement (.head _)
      have outerRest := fun other member => outer other (.tail statement member)
      cases result : (session.runStmt statement).result with
      | error failure =>
          have unchanged := settledBefore.runStmt_unchanged outerHere (.inl ⟨failure, result⟩)
          obtain ⟨sameSession, sameOutcomes⟩ := inductionHypothesis settledBefore keeps outerRest
          rw [passing_of_error result, unchanged, sameSession, sameOutcomes]
          simp [runStmts, keeps, unchanged, Execution.cons, result, Except.toOption]
      | ok outcome =>
          have settledNext := settledBefore.runStmt outerHere
          have keepsNext := (session.runStmt_options statement).1.trans keeps
          obtain ⟨sameSession, sameOutcomes⟩ := inductionHypothesis settledNext keepsNext outerRest
          rw [passing_of_ok result]
          simp [runStmts, keeps, Execution.cons, sameSession, sameOutcomes]

/-- A chunk that keeps going leaves the table with the prototypes and definitions that went
through. -/
theorem Settled.runStmts_table
    {session : Session}
    (settledBefore : session.Settled)
    (keeps : session.keepGoing = true)
    {statements : List Stmt}
    (outer : ∀ statement ∈ statements, statement.Outer) :
    (session.runStmts statements).1.table =
      applyAll session.table ((session.passing statements).filter declares) := by
  induction statements generalizing session with
  | nil => rfl
  | cons statement statements inductionHypothesis =>
      have outerHere := outer statement (.head _)
      have outerRest := fun other member => outer other (.tail statement member)
      have settledNext := settledBefore.runStmt outerHere
      have keepsNext := (session.runStmt_options statement).1.trans keeps
      have others := inductionHypothesis settledNext keepsNext outerRest
      have continued : (session.runStmts (statement :: statements)).1.table =
          ((session.runStmt statement).session.runStmts statements).1.table := by
        simp [runStmts, keeps]
      rw [continued, others]
      cases result : (session.runStmt statement).result with
      | error failure =>
          rw [passing_of_error result,
            settledBefore.runStmt_unchanged outerHere (.inl ⟨failure, result⟩)]
      | ok outcome =>
          rw [passing_of_ok result]
          cases isDeclaration : declares statement with
          | true =>
              rw [List.filter_cons_of_pos isDeclaration, session.runStmt_table isDeclaration,
                settledBefore.scope]
              rfl
          | false =>
              have isExpression : ∃ proto body, statement = .expression proto body := by
                cases outerHere with
                | expression => exact ⟨_, _, rfl⟩
                | _ => cases isDeclaration
              rw [List.filter_cons_of_neg (by simp [isDeclaration]),
                settledBefore.runStmt_unchanged outerHere (.inr isExpression)]

/-- A chunk that scans and parses is run statement by statement. -/
theorem execute_of_parse
    {script : Script}
    {statements : List Stmt}
    (parsed : script.parse.result = .ok statements)
    (session : Session) :
    (session.execute script).1 = (session.runStmts statements).1 ∧
      (session.execute script).2.outcomes = (session.runStmts statements).2.outcomes ∧
      (session.execute script).2.failures = (session.runStmts statements).2.failures := by
  obtain ⟨scanned, read⟩ := (script.parse_eq_ok_iff statements).1 parsed
  simp [execute, scanned, read]

/-- A chunk of the given statements leaves no trace of those that fail. -/
structure LeavesNoTrace
    (session : Session)
    (script : Script)
    (statements : List Stmt) : Prop where
  /-- The outcomes of the chunk that keeps going, in the order of its statements. -/
  outcomes : ((session.going true).execute script).2.outcomes =
    (session.results statements).filterMap Except.toOption
  /-- The failures of the chunk that keeps going, in the order of its statements. -/
  failures : ((session.going true).execute script).2.failures =
    (session.results statements).filterMap failure?
  /-- Every statement has an outcome or a failure. -/
  counted : ((session.going true).execute script).2.outcomes.length +
    ((session.going true).execute script).2.failures.length = statements.length
  /-- The outcomes are those of the statements that do not fail, run on their own. -/
  outcomesAlone : ((session.going true).execute script).2.outcomes =
    ((session.going true).runStmts (session.passing statements)).2.outcomes
  /-- The final table is the one of the statements that do not fail, run on their own. -/
  tableAlone : ((session.going true).execute script).1.table =
    ((session.going true).runStmts (session.passing statements)).1.table
  /-- A chunk that stops has the outcomes before the first failure. -/
  outcomesStopped : ((session.going false).execute script).2.outcomes =
    ((session.results statements).takeWhile Except.toBool).filterMap Except.toOption
  /-- A chunk that stops has the first failure, if there is one, and no other. -/
  failuresStopped : ((session.going false).execute script).2.failures =
    ((session.going true).execute script).2.failures.take 1
  /-- The final table is the first one with the prototypes and definitions that do not fail. -/
  applied : ((session.going true).execute script).1.table =
    applyAll session.table ((session.passing statements).filter declares)
  /-- An expression, whether it fails or not, does not change the table. -/
  expressions : ∀ front proto body back, statements = front ++ .expression proto body :: back →
    let before := ((session.going true).runStmts front).1
    (before.runStmt (.expression proto body)).session.table = before.table

theorem length_outcomes_add_failures (results : List (Except Failure Outcome)) :
    (results.filterMap Except.toOption).length + (results.filterMap failure?).length =
      results.length := by
  induction results with
  | nil => rfl
  | cons result results inductionHypothesis =>
      cases result with
      | ok outcome =>
          simp only [List.filterMap_cons, Except.toOption, failure?, List.length_cons]
          omega
      | error failure =>
          simp only [List.filterMap_cons, Except.toOption, failure?, List.length_cons]
          omega

theorem Settled.leavesNoTrace
    {session : Session}
    (settledBefore : session.Settled)
    {script : Script}
    {statements : List Stmt}
    (parsed : script.parse.result = .ok statements) :
    LeavesNoTrace session script statements := by
  have outer := Parse.ofTokens_outer ((script.parse_eq_ok_iff statements).1 parsed).2
  have settledGoing : (session.going true).Settled := ⟨settledBefore.sound, settledBefore.scope⟩
  have sameResults (keepGoing : Bool) :
      (session.going keepGoing).results statements = session.results statements := by
    simp only [results, trace_going]
  have samePassing : (session.going true).passing statements = session.passing statements := by
    simp only [passing, trace_going]
  obtain ⟨ranSession, ranOutcomes, ranFailures⟩ := execute_of_parse parsed (session.going true)
  obtain ⟨_, stoppedOutcomes, stoppedFailures⟩ := execute_of_parse parsed (session.going false)
  obtain ⟨outcomes, failures⟩ := (session.going true).runStmts_keepGoing rfl statements
  obtain ⟨outcomesBefore, firstFailure⟩ := (session.going false).runStmts_stopping rfl statements
  obtain ⟨alone, outcomesAlone⟩ := settledGoing.runStmts_passing rfl outer
  rw [sameResults] at outcomes failures outcomesBefore firstFailure
  rw [samePassing] at alone outcomesAlone
  refine
    { outcomes := ranOutcomes.trans outcomes
      failures := ranFailures.trans failures
      counted := ?counted
      outcomesAlone := ranOutcomes.trans outcomesAlone.symm
      tableAlone := by rw [ranSession, alone]
      outcomesStopped := stoppedOutcomes.trans outcomesBefore
      failuresStopped := by rw [stoppedFailures, firstFailure, ranFailures, failures]
      applied := ?applied
      expressions := ?expressions }
  case counted =>
    rw [ranOutcomes, ranFailures, outcomes, failures, length_outcomes_add_failures,
      length_results]
  case applied =>
    rw [ranSession, settledGoing.runStmts_table rfl outer, samePassing, table_going]
  case expressions =>
    rintro front proto body back rfl
    obtain ⟨settledHere, _⟩ := runStmts_applied settledGoing
      fun statement member => outer statement (List.mem_append_left _ member)
    have outerHere := outer (.expression proto body) (by simp)
    exact congrArg Session.table
      (settledHere.runStmt_unchanged outerHere (.inr ⟨proto, body, rfl⟩))

/-- In any state of a session and with any options, failing statements leave no trace. -/
theorem execute_leaves_no_trace
    (title : String)
    (keptGoing evaluated : Bool)
    (past : List Script)
    (evaluate : Bool)
    {script : Script}
    {statements : List Stmt}
    (parsed : script.parse.result = .ok statements) :
    LeavesNoTrace
      { (start title keptGoing evaluated).executeAll past with evaluate := evaluate }
      script statements := by
  obtain ⟨settledPast, _⟩ := executeAll_applied (settled_start title keptGoing evaluated) past
  have settledBefore : Settled
      { (start title keptGoing evaluated).executeAll past with evaluate := evaluate } :=
    ⟨settledPast.sound, settledPast.scope⟩
  exact settledBefore.leavesNoTrace parsed

/-- A chunk that fails in each way: an unknown name, a redefinition, another arity, and a call
that the machine cannot serve. -/
def faulty : Script :=
  .ofSource "faulty" "extern gone(a) def id(x) return x end no(1) def id(y) end extern id(p, q)
    gone(1) id(2)"

theorem faulty_leaves_no_trace :
    ∃ statements, faulty.parse.result = .ok statements ∧ statements.length = 7 ∧
      ((start "faulty" true true).passing statements).length = 3 ∧
      LeavesNoTrace
        { (start "faulty" true true).executeAll [] with evaluate := true } faulty statements := by
  have counts : (faulty.parse.result.toOption.map fun statements =>
      (statements.length, ((start "faulty" true true).passing statements).length)) =
        some (7, 3) := by decide +kernel
  cases parsed : faulty.parse.result with
  | error failure =>
      rw [parsed] at counts
      cases counts
  | ok statements =>
      rw [parsed] at counts
      simp only [Except.toOption, Option.map_some, Option.some.injEq, Prod.mk.injEq] at counts
      exact ⟨statements, rfl, counts.1, counts.2,
        execute_leaves_no_trace "faulty" true true [] true parsed⟩

end Session
end ScalarScript
