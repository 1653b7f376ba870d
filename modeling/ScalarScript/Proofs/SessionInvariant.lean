import ScalarScript.Proofs.Statement
import ScalarScript.Proofs.Straight
import ScalarScript.Session

/-!
# What every session keeps

A session goes from chunk to chunk whatever the chunks contain.  Its table is changed only
by the statements that went through, so everything that `Applied` keeps is kept by every
session; and the scope is empty whenever no statement is being lowered.
-/

namespace ScalarScript

open Lowering

namespace Session

/-- A session between statements: its table is sound, and no function is being lowered. -/
structure Settled (session : Session) : Prop where
  sound : Sound session.table
  scope : session.scope = .empty

theorem settled_start
    (name : String)
    (keepGoing evaluate : Bool) :
    (start name keepGoing evaluate).Settled where
  sound := .empty name
  scope := rfl

/-- The session after a sequence of chunks. -/
def executeAll (session : Session) (scripts : List Script) : Session :=
  scripts.foldl (fun session script => (session.execute script).1) session

/-- What came of each chunk of a sequence. -/
def executions (session : Session) : List Script → List Execution
  | [] => []
  | script :: scripts =>
      (session.execute script).2 :: (session.execute script).1.executions scripts

/-! ## One statement -/

theorem session_finishExpression
    (session : Session)
    (name listing : String) :
    (session.finishExpression name listing).session = session.erase name := by
  unfold finishExpression
  split
  · dsimp only
    split <;> rfl
  · rfl

/-- Finishing a statement drops the function of an expression and nothing else. -/
theorem session_finish
    (session : Session)
    {statement : Stmt}
    (outer : statement.Outer)
    {name : String}
    (named : (heading? statement).map Prototype.name = some name) :
    (session.finish statement name).session =
      { session with table := settled name session.table } := by
  cases outer with
  | prototype ordinary =>
      obtain rfl : _ = name := by simpa [heading?] using named
      simp [finish, settled, ordinary]
  | function ordinary grammatical =>
      obtain rfl : _ = name := by simpa [heading?] using named
      simp [finish, settled, ordinary]
  | expression anonymous grammatical =>
      obtain rfl : _ = name := by simpa [heading?] using named
      simp [finish, settled, anonymous.1, session_finishExpression, Session.erase]

/-- What can come of a statement: it goes through and does what `Applied` says, or it
fails and the table stays as it was. -/
theorem runStmt_cases
    {session : Session}
    (settledBefore : session.Settled)
    {statement : Stmt}
    (outer : statement.Outer) :
    (session.runStmt statement).session.scope = .empty ∧
      (Applied statement session.table (session.runStmt statement).session.table ∨
        (session.runStmt statement).session.table = session.table) := by
  have scopeAfter : (lowerStmt statement session.table session.scope).scope = .empty := by
    have kept := lowerStmt_scope statement session.table session.scope
    rw [settledBefore.scope] at kept ⊢
    exact kept.elim id id
  cases lowered : (lowerStmt statement session.table session.scope).result with
  | error error =>
      simp only [runStmt, lowered, advance]
      exact ⟨scopeAfter, .inr (lowerStmt_error lowered)⟩
  | ok name =>
      have named := lowerStmt_name lowered
      simp only [runStmt, lowered, session_finish _ outer named, advance]
      exact ⟨scopeAfter,
        .inl (lowerStmt_ok settledBefore.sound.noAnonymous outer lowered)⟩

theorem Settled.runStmt
    {session : Session}
    (settledBefore : session.Settled)
    {statement : Stmt}
    (outer : statement.Outer) :
    (session.runStmt statement).session.Settled := by
  obtain ⟨scope, applied | unchanged⟩ := runStmt_cases settledBefore outer
  · exact ⟨applied.sound outer settledBefore.sound, scope⟩
  · exact ⟨unchanged ▸ settledBefore.sound, scope⟩

/-! ## Chunks -/

/-- A chunk applies some of its statements, in their order. -/
theorem runStmts_applied
    {session : Session}
    (settledBefore : session.Settled)
    {statements : List Stmt}
    (outer : ∀ statement ∈ statements, statement.Outer) :
    (session.runStmts statements).1.Settled ∧
      ∃ passed, passed.Sublist statements ∧
        AppliedAll passed session.table (session.runStmts statements).1.table := by
  induction statements generalizing session with
  | nil => exact ⟨settledBefore, [], List.nil_sublist _, .nil _⟩
  | cons statement statements inductionHypothesis =>
      have outerHere := outer statement (.head _)
      have outerRest := fun other member => outer other (.tail statement member)
      have settledNext := settledBefore.runStmt outerHere
      have ⟨_, stepped⟩ := runStmt_cases settledBefore outerHere
      -- the statements of the rest of the chunk that go through, if the chunk goes on
      have rest : (session.runStmts (statement :: statements)).1.Settled ∧
          ∃ passed, passed.Sublist statements ∧
            AppliedAll passed (session.runStmt statement).session.table
              (session.runStmts (statement :: statements)).1.table := by
        simp only [runStmts]
        split
        · exact inductionHypothesis settledNext outerRest
        · exact ⟨settledNext, [], List.nil_sublist _, .nil _⟩
      obtain ⟨settledAfter, passed, sublist, applied⟩ := rest
      refine ⟨settledAfter, ?_⟩
      rcases stepped with appliedHere | unchanged
      · exact ⟨statement :: passed, sublist.cons_cons statement, .cons appliedHere applied⟩
      · rw [unchanged] at applied
        exact ⟨passed, sublist.cons statement, applied⟩

theorem execute_applied
    {session : Session}
    (settledBefore : session.Settled)
    (script : Script) :
    (session.execute script).1.Settled ∧
      ∃ passed, (∀ statement ∈ passed, statement.Outer) ∧
        AppliedAll passed session.table (session.execute script).1.table := by
  have nothing : session.Settled ∧ ∃ passed : List Stmt,
      (∀ statement ∈ passed, statement.Outer) ∧
        AppliedAll passed session.table session.table :=
    ⟨settledBefore, [], by simp, .nil _⟩
  simp only [execute]
  split
  · split
    · exact nothing
    · rename_i statements parsed
      have outer := Parse.ofTokens_outer parsed
      obtain ⟨settledAfter, passed, sublist, applied⟩ := runStmts_applied settledBefore outer
      exact ⟨settledAfter, passed,
        fun statement member => outer statement (sublist.subset member), applied⟩
  · exact nothing

/-- Any sequence of chunks applies some statements of programs, and the session that it
leaves is settled. -/
theorem executeAll_applied
    {session : Session}
    (settledBefore : session.Settled)
    (scripts : List Script) :
    (session.executeAll scripts).Settled ∧
      ∃ passed, (∀ statement ∈ passed, statement.Outer) ∧
        AppliedAll passed session.table (session.executeAll scripts).table := by
  induction scripts generalizing session with
  | nil => exact ⟨settledBefore, [], by simp, .nil _⟩
  | cons script scripts inductionHypothesis =>
      obtain ⟨settledNext, front, frontOuter, frontApplied⟩ :=
        execute_applied settledBefore script
      obtain ⟨settledAfter, back, backOuter, backApplied⟩ := inductionHypothesis settledNext
      refine ⟨settledAfter, front ++ back, ?_, frontApplied.append backApplied⟩
      intro statement member
      rcases List.mem_append.1 member with inFront | inBack
      · exact frontOuter statement inFront
      · exact backOuter statement inBack

/-! ## The next expression -/

/-- Building the function of an expression fails only because of what is in it. -/
theorem buildBody_expr_error
    {table : Code.Module}
    {proto : Prototype}
    {body : Expr}
    {error : LoweringError}
    {builder : Code.Builder}
    (stopped : buildBody table proto (.expr body) = .error error builder) :
    IsUnresolved error := by
  unfold buildBody at stopped
  rw [lowerSource, Build.bind_eq_error_iff] at stopped
  rcases stopped with exprFailed | ⟨operand, middle, _, emitFailed⟩
  · rw [lowerExpr_eq_build] at exprFailed
    exact exprCode_failsOnly _ _ body _ _ (Straight.build_eq_error exprFailed)
  · cases emitFailed

/-- In a settled session a top-level expression fails in lowering only because of what is
in it, or because the finished code has a defect. -/
theorem lowerStmt_expression_error
    {session : Session}
    (settledBefore : session.Settled)
    {proto : Prototype}
    (anonymous : proto.IsAnonymous)
    {body : Expr}
    {error : LoweringError}
    (failed : (lowerStmt (.expression proto body) session.table session.scope).result =
      .error error) :
    IsUnresolved error ∨ error.kind = .verification := by
  have absent : session.table.find? proto.name = none := by
    rw [anonymous.1]
    exact settledBefore.sound.noAnonymous
  have came := lowerFunction_definition session.table proto (.expr body)
    session.scope
  change (lowerFunction proto (.expr body) session.table session.scope).result = _ at failed
  rw [failed] at came
  generalize (lowerFunction proto (.expr body) session.table session.scope).table = final at came
  cases came with
  | redefined found isDefined => simp [absent] at found
  | mismatched found differs => simp [absent] at found
  | unbuilt definable stopped => exact .inl (buildBody_expr_error stopped)
  | rejected definable built defect => exact .inr rfl

/-- Finishing a top-level expression yields no lowering error. -/
theorem finish_expression_result
    (session : Session)
    {proto : Prototype}
    (body : Expr)
    (error : LoweringError) :
    (session.finish (.expression proto body) Prototype.anonymousName).result ≠
      .error (.lowering error) := by
  simp only [finish, if_true, finishExpression]
  split
  · split <;> simp
  · simp

theorem runStmt_expression_error
    {session : Session}
    (settledBefore : session.Settled)
    {proto : Prototype}
    (anonymous : proto.IsAnonymous)
    {body : Expr}
    {error : LoweringError}
    (failed : (session.runStmt (.expression proto body)).result = .error (.lowering error)) :
    IsUnresolved error ∨ error.kind = .verification := by
  cases lowered : (lowerStmt (.expression proto body) session.table session.scope).result with
  | error other =>
      obtain rfl : other = error := by simpa [runStmt, lowered] using failed
      exact lowerStmt_expression_error settledBefore anonymous lowered
  | ok name =>
      have named := lowerStmt_name lowered
      obtain rfl : Prototype.anonymousName = name := by
        simpa [heading?, anonymous.1] using named
      simp only [runStmt, lowered] at failed
      exact absurd failed (finish_expression_result _ body error)

/-- After any sequence of chunks, with any options, the names in the table are distinct,
none is the one of top-level expressions, no function has a defect and nothing is being
lowered.  A top-level expression that comes next, also after further statements of its own
chunk, is therefore never refused as a redefinition. -/
theorem executeAll_settled
    (name : String)
    (keepGoing evaluate : Bool)
    (scripts : List Script) :
    ((start name keepGoing evaluate).executeAll scripts).Settled ∧
      ∀ (tokens : List Token) (front back : List Stmt) (proto : Prototype) (body : Expr)
        (error : LoweringError),
        (Parse.ofTokens tokens).result = .ok (front ++ .expression proto body :: back) →
        ((((start name keepGoing evaluate).executeAll scripts).runStmts front).1.runStmt
          (.expression proto body)).result = .error (.lowering error) →
        error.kind ≠ .functionRedefinition := by
  obtain ⟨settledAfter, _⟩ := executeAll_applied (settled_start name keepGoing evaluate) scripts
  refine ⟨settledAfter, ?_⟩
  intro tokens front back proto body error parsed failed
  have outer := Parse.ofTokens_outer parsed
  obtain ⟨settledHere, _⟩ := runStmts_applied settledAfter
    fun statement member => outer statement (List.mem_append_left _ member)
  have anonymous : proto.IsAnonymous := by
    have outerExpression := outer (.expression proto body) (by simp)
    cases outerExpression with
    | expression anonymous grammatical => exact anonymous
  have cause := runStmt_expression_error settledHere anonymous failed
  rintro redefinition
  simp [IsUnresolved, redefinition] at cause

end Session
end ScalarScript
