import ScalarScript.Proofs.JoinedText
import ScalarScript.Proofs.Relocation

/-!
# Chunks may be joined

It makes no difference whether texts are fed to a session one by one or joined by newlines, if
each of them parses, none but the first begins with a parenthesis, and no failure stops the
session.  The joined text is read as the same statements at other places, and statements leave
nothing to the next chunk but the session.
-/

namespace ScalarScript
namespace Session

/-! ## Chunks one after the other -/

/-- The failures of a chunk begin with those of its first statements. -/
theorem failures_runStmts_append
    (session : Session)
    (front back : List Stmt) :
    (session.runStmts front).2.failures <+: (session.runStmts (front ++ back)).2.failures := by
  induction front generalizing session with
  | nil => exact List.nil_prefix
  | cons statement front inductionHypothesis =>
      simp only [List.cons_append, runStmts]
      split
      · exact (List.prefix_append_right_inj _).2 (inductionHypothesis _)
      · exact List.prefix_rfl

/-- Statements that are not stopped are followed by the others. -/
theorem runStmts_append
    {session : Session}
    {front : List Stmt}
    (goesOn : session.keepGoing = true ∨ (session.runStmts front).2.failures = [])
    (back : List Stmt) :
    let first := session.runStmts front
    let second := first.1.runStmts back
    (session.runStmts (front ++ back)).1 = second.1 ∧
      (session.runStmts (front ++ back)).2.outcomes = first.2.outcomes ++ second.2.outcomes ∧
      (session.runStmts (front ++ back)).2.failures = first.2.failures ++ second.2.failures ∧
      (session.runStmts (front ++ back)).2.printed = first.2.printed ++ second.2.printed := by
  induction front generalizing session with
  | nil => simp [runStmts]
  | cons statement front inductionHypothesis =>
      by_cases goes : ((session.runStmt statement).result.toBool || session.keepGoing) = true
      · have goesOnNext : (session.runStmt statement).session.keepGoing = true ∨
            ((session.runStmt statement).session.runStmts front).2.failures = [] := by
          refine goesOn.imp (session.runStmt_options statement).1.trans fun noFailure => ?_
          simp only [runStmts, goes, if_true, Execution.cons, List.append_eq_nil_iff] at noFailure
          exact noFailure.2
        obtain ⟨last, outcomes, failures, printed⟩ := inductionHypothesis goesOnNext
        simp only [List.cons_append, runStmts, goes, if_true, Execution.cons, last, outcomes,
          failures, printed, List.append_assoc, String.append_assoc, and_self]
      · -- a statement stops the chunk only by failing
        exfalso
        cases result : (session.runStmt statement).result with
        | ok outcome => simp [result, Except.toBool] at goes
        | error failure =>
            rcases goesOn with keeps | noFailure
            · simp [keeps] at goes
            · simp only [runStmts, if_neg goes] at noFailure
              simp [Execution.cons, result] at noFailure

theorem printed_execute_of_parse
    {script : Script}
    {statements : List Stmt}
    (parsed : script.parse.result = .ok statements)
    (session : Session) :
    (session.execute script).2.printed = (session.runStmts statements).2.printed := by
  obtain ⟨scanned, read⟩ := (script.parse_eq_ok_iff statements).1 parsed
  simp [execute, scanned, read]

/-- The programs of scripts one after the other come to what the scripts come to. -/
theorem runStmts_flatten
    {scripts : List Script}
    {programs : List (List Stmt)}
    (parsed : List.Forall₂ (fun script statements => script.parse.result = .ok statements)
      scripts programs)
    (session : Session)
    (goesOn : session.keepGoing = true ∨
      (∀ execution ∈ session.executions scripts, execution.failures = []) ∨
      (session.runStmts programs.flatten).2.failures = []) :
    (session.runStmts programs.flatten).1 = session.executeAll scripts ∧
      (session.runStmts programs.flatten).2.outcomes =
        (session.executions scripts).flatMap Execution.outcomes ∧
      (session.runStmts programs.flatten).2.failures =
        (session.executions scripts).flatMap Execution.failures ∧
      (session.runStmts programs.flatten).2.printed =
        String.join ((session.executions scripts).map Execution.printed) := by
  induction parsed generalizing session with
  | nil => simp [runStmts, executeAll, executions]
  | @cons script program scripts programs parsedHere _ inductionHypothesis =>
      obtain ⟨ran, ranOutcomes, ranFailures⟩ := execute_of_parse parsedHere session
      have ranPrinted := printed_execute_of_parse parsedHere session
      rw [List.flatten_cons] at goesOn ⊢
      have goesOnHere : session.keepGoing = true ∨ (session.runStmts program).2.failures = [] := by
        refine goesOn.imp_right fun noFailure => ?_
        rcases noFailure with apart | together
        · rw [← ranFailures]
          exact apart _ (.head _)
        · have front := session.failures_runStmts_append program programs.flatten
          rw [together] at front
          exact List.prefix_nil.1 front
      obtain ⟨last, outcomes, failures, printed⟩ := runStmts_append goesOnHere programs.flatten
      have goesOnNext : (session.execute script).1.keepGoing = true ∨
          (∀ execution ∈ (session.execute script).1.executions scripts,
            execution.failures = []) ∨
          ((session.execute script).1.runStmts programs.flatten).2.failures = [] := by
        refine goesOn.imp (fun keeps => ?_) (Or.imp (fun apart => ?_) fun together => ?_)
        · rw [ran, keepGoing_runStmts, keeps]
        · exact fun execution member => apart execution (.tail _ member)
        · rw [failures, List.append_eq_nil_iff] at together
          rw [ran]
          exact together.2
      obtain ⟨lastNext, outcomesNext, failuresNext, printedNext⟩ := inductionHypothesis _ goesOnNext
      rw [← ran] at last outcomes failures printed
      rw [last, outcomes, failures, printed, lastNext, outcomesNext, failuresNext, printedNext,
        ← ranOutcomes, ← ranFailures, ← ranPrinted]
      simp only [executeAll, executions, List.foldl_cons, List.flatMap_cons, List.map_cons,
        String.join_cons, and_self]

/-! ## Joined chunks -/

/-- An execution is made of others, up to the places of failures. -/
structure Concatenates (whole : Execution) (parts : List Execution) : Prop where
  /-- Outcomes hold the values and the listings. -/
  outcomes : whole.outcomes = parts.flatMap Execution.outcomes
  failures : whole.failures.map Failure.unlocated =
    (parts.flatMap Execution.failures).map Failure.unlocated
  reports : whole.failures.map (fun failure => failure.diagnostic.unlocated) =
    (parts.flatMap Execution.failures).map fun failure => failure.diagnostic.unlocated
  printed : whole.printed = String.join (parts.map Execution.printed)

theorem map_diagnostic_of_map_unlocated
    {failures others : List Failure}
    (same : failures.map Failure.unlocated = others.map Failure.unlocated) :
    failures.map (fun failure => failure.diagnostic.unlocated) =
      others.map fun failure => failure.diagnostic.unlocated := by
  have reports := congrArg (List.map fun failure => failure.diagnostic.unlocated) same
  simpa only [List.map_map, Function.comp_def, Failure.diagnostic_unlocated] using reports

theorem exists_programs
    {scripts : List Script}
    (readable : ∀ script ∈ scripts, ∃ statements, script.parse.result = .ok statements) :
    ∃ programs, List.Forall₂ (fun script statements => script.parse.result = .ok statements)
      scripts programs := by
  induction scripts with
  | nil => exact ⟨[], .nil⟩
  | cons script scripts inductionHypothesis =>
      obtain ⟨readableHere, readableRest⟩ := List.forall_mem_cons.1 readable
      obtain ⟨statements, parsed⟩ := readableHere
      obtain ⟨programs, others⟩ := inductionHypothesis readableRest
      exact ⟨statements :: programs, .cons parsed others⟩

/-- In any session, texts that are joined by newlines come to what they come to one by one: the
same session with the same module, the same outcomes and the same printed text, and failures
that differ at most in places.  The texts parse, those behind the first do not begin with a
parenthesis, and the session keeps going or meets no failure. -/
theorem execute_joined
    (session : Session)
    (name : String)
    {scripts : List Script}
    (readable : ∀ script ∈ scripts, ∃ statements, script.parse.result = .ok statements)
    (apart : ∀ script ∈ scripts.tail, script.StartsApart)
    (goesOn : session.keepGoing = true ∨
      (∀ execution ∈ session.executions scripts, execution.failures = []) ∨
      (session.execute (.joined name scripts)).2.failures = []) :
    (session.execute (.joined name scripts)).1 = session.executeAll scripts ∧
      Concatenates (session.execute (.joined name scripts)).2 (session.executions scripts) := by
  obtain ⟨programs, parsed⟩ := exists_programs readable
  obtain ⟨statements, parsedJoined, same⟩ := Script.parse_joined name parsed apart
  obtain ⟨ran, ranOutcomes, ranFailures⟩ := execute_of_parse parsedJoined session
  have ranPrinted := printed_execute_of_parse parsedJoined session
  -- without spans, the joined text and the programs one after the other are the same statements
  obtain ⟨lastBare, outcomesBare, failuresBare, printedBare⟩ :=
    session.runStmts_unlocated statements
  obtain ⟨last, outcomes, failures, printed⟩ := session.runStmts_unlocated programs.flatten
  rw [same] at lastBare outcomesBare failuresBare printedBare
  have sameFailures : (session.execute (.joined name scripts)).2.failures.map Failure.unlocated =
      (session.runStmts programs.flatten).2.failures.map Failure.unlocated := by
    rw [ranFailures, ← failuresBare, failures]
  have goesOnFlat : session.keepGoing = true ∨
      (∀ execution ∈ session.executions scripts, execution.failures = []) ∨
      (session.runStmts programs.flatten).2.failures = [] := by
    refine goesOn.imp_right (Or.imp_right fun noFailure => ?_)
    rw [noFailure] at sameFailures
    exact List.map_eq_nil_iff.1 sameFailures.symm
  obtain ⟨lastApart, outcomesApart, failuresApart, printedApart⟩ :=
    runStmts_flatten parsed session goesOnFlat
  rw [failuresApart] at sameFailures
  refine ⟨by rw [ran, ← lastBare, last, lastApart], ?_⟩
  exact
    { outcomes := by rw [ranOutcomes, ← outcomesBare, outcomes, outcomesApart]
      failures := sameFailures
      reports := map_diagnostic_of_map_unlocated sameFailures
      printed := by rw [ranPrinted, ← printedBare, printed, printedApart] }

/-- Texts with a parenthesis in front of the first, a comment at its end, a call that the machine
cannot serve, and a name that is not bound. -/
def typed : List Script :=
  [.ofSource "first" "(1) extern printd(a) extern gone(a) // no more on this line",
    .ofSource "second" "printd(2) gone(2) no def id(x) return x end",
    .ofSource "third" "printd(id(4))"]

theorem execute_joined_typed :
    ((start "typed" true true).executions typed).map
        (fun execution => (execution.outcomes.length, execution.failures.length)) =
      [(3, 0), (2, 2), (1, 0)] ∧
      ((start "typed" true true).execute (.joined "typed" typed)).2.printed = "2\n4\n" ∧
      ((start "typed" true true).execute (.joined "typed" typed)).1 =
        (start "typed" true true).executeAll typed ∧
      Concatenates ((start "typed" true true).execute (.joined "typed" typed)).2
        ((start "typed" true true).executions typed) := by
  have allRead : (typed.all fun script => script.parse.result.toBool) = true := by decide +kernel
  have readable : ∀ script ∈ typed, ∃ statements, script.parse.result = .ok statements := by
    intro script member
    have read := List.all_eq_true.1 allRead script member
    cases parsed : script.parse.result with
    | ok statements => exact ⟨statements, rfl⟩
    | error failure =>
        rw [parsed] at read
        cases read
  have allApart : (typed.tail.all fun script =>
      (scan script.content).tokens.head?.all fun token => token.kind ≠ .leftParen) = true := by
    decide +kernel
  have apart : ∀ script ∈ typed.tail, script.StartsApart := by
    intro script member token isFirst
    have avoids := List.all_eq_true.1 allApart script member
    rw [Option.mem_def.1 isFirst] at avoids
    simpa using avoids
  exact ⟨by decide +kernel, by decide +kernel,
    execute_joined _ "typed" readable apart (.inl rfl)⟩

end Session
end ScalarScript
