import ScalarScript.Proofs.Blame
import ScalarScript.Proofs.BuildAndRun
import ScalarScript.Proofs.Places

/-!
# Where diagnostics point

Every failure of a script goes back to its text: a lexical error is a piece of the text, a
grammatical error points to a token, and a lowering error to a span in the tree, which is the
span of a token.  So every span lies in the text of the script, on boundaries of characters, and
resolving it never fails.

A report takes the column from where a span starts and the line from where it stops.  The two
are on one line unless the span is that of a string.
-/

namespace ScalarScript

open Text

/-! ## Tokens on one line -/

theorem Decimal.oneLine_of_parse?
    {spelling : List Char}
    {value : Float}
    (parsed : parse? spelling = some value) :
    '\n' ∉ spelling := by
  intro newline
  rw [← List.takeWhile_append_dropWhile (p := Char.isDigit) (l := spelling), List.mem_append]
    at newline
  have notDigit : ∀ digits : List Char, digits.all Char.isDigit → '\n' ∉ digits :=
    fun digits all member => absurd (List.all_eq_true.1 all _ member) (by decide)
  rcases newline with inWhole | inRest
  · exact notDigit _ (List.all_takeWhile) inWhole
  · unfold parse? at parsed
    dsimp only at parsed
    split at parsed
    · cases parsed
    · split at parsed
      · rename_i nothing
        rw [nothing] at inRest
        cases inRest
      · rename_i fraction point
        split at parsed
        · rename_i digits
          rw [point] at inRest
          rcases List.mem_cons.1 inRest with same | inFraction
          · exact absurd same (by decide)
          · exact notDigit _ digits.2 inFraction
        · cases parsed
      · cases parsed

namespace Piece

/-- Only strings go over several lines. -/
theorem Fits.oneLine_of_reads
    {piece : Piece}
    {after spelling : List Char}
    (fits : piece.Fits after)
    {kind : Token.Kind}
    {payload : Option Token.Payload}
    (reads : piece.Reads spelling kind payload)
    (noString : kind ≠ .string) :
    '\n' ∉ spelling := by
  have word : ∀ letters : List Char, (Piece.word letters).Fits after → '\n' ∉ letters := by
    rintro _ (_ | _) newline
    rename_i c letters starts continues ends
    rcases List.mem_cons.1 newline with rfl | later
    · exact absurd starts (by decide)
    · exact absurd (continues _ later) (by decide)
  cases reads with
  | symbol punctuates spelled =>
      have oneLine : ∀ kind ∈ punctuation, '\n' ∉ kind.lexeme.toList := by decide
      exact spelled ▸ oneLine kind punctuates
  | keyword => exact word spelling fits
  | identifier => exact word spelling fits
  | number parsed => exact Decimal.oneLine_of_parse? parsed
  | string => exact absurd rfl noString

theorem Fits.oneLine_of_faults
    {piece : Piece}
    {after spelling : List Char}
    (fits : piece.Fits after)
    {cause : LexError.Cause}
    (faults : piece.Faults spelling cause)
    (closed : cause ≠ .unterminated) :
    '\n' ∉ spelling := by
  cases faults with
  | stray c =>
      cases fits with
      | stray _ noBlank =>
          intro newline
          obtain rfl := List.mem_singleton.1 newline
          exact absurd noBlank (by decide)
  | openString body => exact absurd rfl closed

end Piece

/-! ## Spans of a scanned text -/

namespace Segment

theorem exists_of_emits
    {α : Type}
    {emits : Segment → α → Prop}
    {segments : List Segment}
    {emitted : List α}
    (related : List.Forall₂ emits segments emitted)
    {found : α}
    (member : found ∈ emitted) :
    ∃ segment ∈ segments, emits segment found := by
  obtain ⟨⟨index, bound⟩, rfl⟩ := List.mem_iff_get.1 member
  have inSegments : index < segments.length := related.length_eq ▸ bound
  exact ⟨_, List.get_mem segments ⟨index, inSegments⟩, related.get inSegments bound⟩

end Segment

open Segment in
/-- The span of a token cuts some characters out of the text, all on one line unless the token
is a string. -/
theorem scan_token_locates
    {source : String}
    {token : Token}
    (member : token ∈ (scan source).tokens) :
    ∃ spelling, token.span.Locates source.toList spelling ∧
      (token.kind ≠ .string → '\n' ∉ spelling) := by
  have tiled := Piece.tiled_pieces source.toList
  obtain ⟨_, sits⟩ := partition_ofPieces tiled []
  obtain ⟨tokens, _⟩ := emits_lexemes tiled []
  rcases List.mem_append.1 member with inText | isEnd
  · obtain ⟨segment, inSegments, spelling, locates, _, reads⟩ := exists_of_emits tokens inText
    obtain ⟨_, _, _, _, _, fits⟩ := sits segment (List.mem_of_mem_filter inSegments)
    exact ⟨spelling, locates, fits.oneLine_of_reads reads⟩
  · obtain rfl := List.mem_singleton.1 isEnd
    have located := Span.locates_append source.toList [] []
    simp only [List.append_nil, byteLength_nil, Nat.add_zero] at located
    refine ⟨[], ?_, fun _ => List.not_mem_nil⟩
    simpa only [Scan.eof, scan, Cursor.spanTo, Cursor.origin_past] using located

open Segment in
/-- The span of a lexical error cuts some characters out of the text, all on one line unless
they are a string that is never closed. -/
theorem scan_error_locates
    {source : String}
    {error : LexError}
    (member : error ∈ (scan source).errors) :
    ∃ spelling, error.span.Locates source.toList spelling ∧
      (error.cause ≠ .unterminated → '\n' ∉ spelling) := by
  have tiled := Piece.tiled_pieces source.toList
  obtain ⟨_, sits⟩ := partition_ofPieces tiled []
  obtain ⟨_, errors⟩ := emits_lexemes tiled []
  obtain ⟨segment, inSegments, spelling, locates, _, faults⟩ := exists_of_emits errors member
  obtain ⟨_, _, _, _, _, fits⟩ := sits segment (List.mem_of_mem_filter inSegments)
  exact ⟨spelling, locates, fits.oneLine_of_faults faults⟩

theorem finalOf_scan_mem (source : String) :
    Parse.finalOf (scan source).tokens ∈ (scan source).tokens := by
  unfold Parse.finalOf
  cases found : (scan source).tokens.find? fun token => token.kind = .eof with
  | some token => exact List.mem_of_find?_eq_some found
  | none =>
      have atEnd : (scan source).eof ∈ (scan source).tokens :=
        List.mem_append_right _ (List.mem_singleton.2 rfl)
      exact absurd (decide_eq_true rfl) (List.find?_eq_none.1 found _ atEnd)

/-! ## Where failures come from -/

open Lowering

namespace Script

/-- A failure of a script: one of those that it causes in a session, whatever came before, or
the one that keeps it from being compiled. -/
inductive Raises (script : Script) : Failure → Prop where
  | executing (session : Session) {failure : Failure} :
      failure ∈ (session.execute script).2.failures → Raises script failure
  | compiling {failure : Failure} :
      script.compile.result = .error failure → Raises script failure

/-- What a failure goes back to in the tokens of a script. -/
inductive Causes (script : Script) : Failure → Prop where
  | lexical {error : LexError} :
      error ∈ (scan script.content).errors → Causes script (.lexical error)
  | grammatical {error : ParseError} :
      error.Cites (· ∈ (scan script.content).tokens) → Causes script (.grammatical error)
  | lowering {error : LoweringError} :
      PointsTo (Cited (· ∈ (scan script.content).tokens)) error → Causes script (.lowering error)
  | running (stop : Machine.Stop) : Causes script (.running stop)

theorem parse_sources (script : Script) :
    (∀ error, (Parse.ofTokens (scan script.content).tokens).result = .error error →
        error.Cites (· ∈ (scan script.content).tokens)) ∧
      ∀ statements, (Parse.ofTokens (scan script.content).tokens).result = .ok statements →
        ∀ statement ∈ statements, statement.Located (Cited (· ∈ (scan script.content).tokens)) :=
  Parse.ofTokens_sources (finalOf_scan_mem script.content) fun _ member => member

end Script

namespace Session

/-- A statement fails in lowering or in the machine. -/
theorem runStmt_failure
    {session : Session}
    {statement : Stmt}
    {failure : Failure}
    (failed : (session.runStmt statement).result = .error failure) :
    (∃ error, failure = .lowering error ∧
        (lowerStmt statement session.table session.scope).result = .error error) ∨
      ∃ stop, failure = .running stop := by
  cases lowered : (lowerStmt statement session.table session.scope).result with
  | error error =>
      rw [runStmt_unlowered lowered] at failed
      cases failed
      exact .inl ⟨error, rfl, rfl⟩
  | ok name =>
      right
      by_cases isExpression : ∃ proto body, statement = .expression proto body
      · obtain ⟨proto, body, rfl⟩ := isExpression
        simp only [runStmt, lowered, finish, finishExpression] at failed
        split at failed
        · split at failed
          · split at failed
            · cases failed
            · cases failed
              exact ⟨_, rfl⟩
          · cases failed
        · cases failed
      · simp only [not_exists] at isExpression
        obtain ⟨outcome, passed⟩ := session.runStmt_lowered isExpression lowered
        rw [passed] at failed
        cases failed

theorem Execution.mem_failures_cons
    {step : Step}
    {others : Execution}
    {failure : Failure}
    (member : failure ∈ (cons step others).failures) :
    step.result = .error failure ∨ failure ∈ others.failures := by
  unfold cons at member
  cases result : step.result with
  | ok outcome =>
      simp only [result] at member
      exact .inr member
  | error other =>
      simp only [result, List.singleton_append] at member
      exact (List.mem_cons.1 member).imp_left fun same => congrArg Except.error same.symm

/-- Every failure of a chunk is the failure of one of its statements. -/
theorem runStmts_failure
    {session : Session}
    {statements : List Stmt}
    {failure : Failure}
    (member : failure ∈ (session.runStmts statements).2.failures) :
    ∃ statement ∈ statements, ∃ before : Session,
      (before.runStmt statement).result = .error failure := by
  induction statements generalizing session with
  | nil => cases member
  | cons statement statements inductionHypothesis =>
      rw [runStmts] at member
      split at member
      · rcases Execution.mem_failures_cons member with failed | later
        · exact ⟨statement, .head _, session, failed⟩
        · obtain ⟨other, among, before, failed⟩ := inductionHypothesis later
          exact ⟨other, .tail _ among, before, failed⟩
      · rcases Execution.mem_failures_cons member with failed | nothing
        · exact ⟨statement, .head _, session, failed⟩
        · cases nothing

end Session

namespace Lowering

/-- The error of a program is the error of one of its statements. -/
theorem lowerInto_failure
    {statements : List Stmt}
    {table : Code.Module}
    {scope : Scope}
    {error : LoweringError}
    (failed : (lowerInto table scope statements).result = .error error) :
    ∃ statement ∈ statements, ∃ before inside,
      (lowerStmt statement before inside).result = .error error := by
  induction statements generalizing table scope with
  | nil => cases failed
  | cons statement statements inductionHypothesis =>
      cases lowered : (lowerStmt statement table scope).result with
      | error other =>
          simp only [lowerInto, lowered] at failed
          cases failed
          exact ⟨statement, .head _, table, scope, lowered⟩
      | ok name =>
          rw [Session.lowerInto_of_ok lowered] at failed
          obtain ⟨other, among, before, inside, failed⟩ := inductionHypothesis failed
          exact ⟨other, .tail _ among, before, inside, failed⟩

end Lowering

namespace Script

/-- A text with lexical errors fails with those only. -/
theorem Raises.lexical
    {script : Script}
    {failure : Failure}
    (raised : script.Raises failure)
    {first : LexError}
    {others : List LexError}
    (scanned : (scan script.content).errors = first :: others) :
    ∃ error ∈ (scan script.content).errors, failure = .lexical error := by
  cases raised with
  | executing session member =>
      simp only [Session.execute, scanned, List.isEmpty_cons] at member
      obtain ⟨error, among, rfl⟩ := List.mem_map.1 member
      exact ⟨error, scanned ▸ among, rfl⟩
  | compiling failed =>
      simp only [compile, parse, scanned] at failed
      cases failed
      exact ⟨first, scanned ▸ .head _, rfl⟩

/-- Tokens that are no program fail with the error of the parser only. -/
theorem Raises.grammatical
    {script : Script}
    {failure : Failure}
    (raised : script.Raises failure)
    (scanned : (scan script.content).errors = [])
    {error : ParseError}
    (read : (Parse.ofTokens (scan script.content).tokens).result = .error error) :
    failure = .grammatical error := by
  cases raised with
  | executing session member => simpa [Session.execute, scanned, read] using member
  | compiling failed =>
      simp only [compile, parse, scanned, read] at failed
      cases failed
      rfl

/-- A program fails in one of its statements or in the machine. -/
theorem Raises.ofStatements
    {script : Script}
    {failure : Failure}
    (raised : script.Raises failure)
    {statements : List Stmt}
    (parsed : script.parse.result = .ok statements) :
    (∃ error, failure = .lowering error ∧ ∃ statement ∈ statements, ∃ table scope,
        (lowerStmt statement table scope).result = .error error) ∨
      ∃ stop, failure = .running stop := by
  cases raised with
  | executing session member =>
      obtain ⟨_, _, failures⟩ := Session.execute_of_parse parsed session
      obtain ⟨statement, among, before, failed⟩ := Session.runStmts_failure (failures ▸ member)
      rcases Session.runStmt_failure failed with ⟨error, rfl, lowered⟩ | ran
      · exact .inl ⟨error, rfl, statement, among, _, _, lowered⟩
      · exact .inr ran
  | compiling failed =>
      rw [Session.compile_of_parse parsed] at failed
      cases lowered : (lowerProgram script.name statements).result with
      | ok table =>
          rw [lowered] at failed
          cases failed
      | error error =>
          rw [lowered] at failed
          cases failed
          exact .inl ⟨error, rfl, lowerInto_failure lowered⟩

theorem Raises.causes
    {script : Script}
    {failure : Failure}
    (raised : script.Raises failure) :
    script.Causes failure := by
  obtain ⟨ofError, ofStatements⟩ := script.parse_sources
  cases scanned : (scan script.content).errors with
  | cons first others =>
      obtain ⟨error, among, rfl⟩ := raised.lexical scanned
      exact .lexical among
  | nil =>
      cases read : (Parse.ofTokens (scan script.content).tokens).result with
      | error error =>
          obtain rfl := raised.grammatical scanned read
          exact .grammatical (ofError error read)
      | ok statements =>
          have parsed := (script.parse_eq_ok_iff statements).2 ⟨scanned, read⟩
          rcases raised.ofStatements parsed with
            ⟨error, rfl, statement, among, table, scope, lowered⟩ | ⟨stop, rfl⟩
          · have located := ofStatements statements read statement among
            exact .lowering (lowerStmt_pointsTo located lowered)
          · exact .running stop

end Script

/-- The failure points to a string: one that is never closed, or one in place of something
else. -/
inductive Failure.AtString : Failure → Prop where
  | unterminated (span : Span) : AtString (.lexical ⟨.unterminated, span⟩)
  | unwanted (what : Expectation) {found : Token} :
      found.kind = .string → AtString (.grammatical (.expected what found))

namespace Script

/-- The span of a failure cuts some characters out of the text, all on one line unless the
failure points to a string. -/
theorem Causes.locates
    {script : Script}
    {failure : Failure}
    (caused : script.Causes failure)
    {span : Span}
    (pointed : failure.diagnostic.span = some span) :
    ∃ spelling, span.Locates script.content.toList spelling ∧
      ('\n' ∈ spelling → failure.AtString) := by
  have ofCited : Cited (· ∈ (scan script.content).tokens) span →
      ∃ spelling, span.Locates script.content.toList spelling ∧
        ('\n' ∈ spelling → failure.AtString) := by
    rintro ⟨token, member, noString, rfl⟩
    obtain ⟨spelling, locates, oneLine⟩ := scan_token_locates member
    exact ⟨spelling, locates, fun newline => absurd newline (oneLine noString)⟩
  cases caused with
  | @lexical error member =>
      obtain ⟨cause, place⟩ := error
      cases pointed
      obtain ⟨spelling, locates, oneLine⟩ := scan_error_locates member
      refine ⟨spelling, locates, fun newline => ?_⟩
      by_cases unterminated : cause = .unterminated
      · subst unterminated
        exact .unterminated place
      · exact absurd newline (oneLine unterminated)
  | @grammatical error cites =>
      cases cites with
      | @expected what found member =>
          cases pointed
          obtain ⟨spelling, locates, oneLine⟩ := scan_token_locates member
          refine ⟨spelling, locates, fun newline => ?_⟩
          by_cases isString : found.kind = .string
          · exact .unwanted what isString
          · exact absurd newline (oneLine isString)
      | reservedName name cited =>
          cases pointed
          exact ofCited cited
      | duplicateParameter param function cited =>
          cases pointed
          exact ofCited cited
  | lowering points => exact ofCited (points span pointed)
  | running stop =>
      cases stop with
      | fault fault => cases pointed
      | outOfSteps => cases pointed

/-- A failure that points somewhere points to two places of the text, on one line unless it
points to a string. -/
theorem Raises.places
    {script : Script}
    {failure : Failure}
    (raised : script.Raises failure)
    {span : Span}
    (pointed : failure.diagnostic.span = some span) :
    ∃ start stop : Place script.content.toList,
      start.offset = span.start ∧ stop.offset = span.stop ∧ start.offset ≤ stop.offset ∧
        span.line = stop.number ∧ (start.number ≠ stop.number → failure.AtString) := by
  obtain ⟨spelling, locates, oneLine⟩ := raised.causes.locates pointed
  obtain ⟨start, stop, startsHere, stopsHere, between, line⟩ := locates.places
  refine ⟨start, stop, startsHere, stopsHere, ?_, line, ?_⟩
  · rw [Place.offset, Place.offset, between, byteLength_append]
    omega
  · intro different
    by_contra noString
    have nothing : spelling.count '\n' = 0 := List.count_eq_zero.2 fun newline =>
      noString (oneLine newline)
    rw [Place.number, Place.number, between, List.count_append, nothing] at different
    exact different rfl

end Script

/-! ## Reports -/

namespace Report

/-- The report points at a place of the script: it has the place's line number and column, and
the line that it shows is the line of the place. -/
structure PointsAt
    (report : Report)
    (script : Script)
    (place : Place script.content.toList) : Prop where
  position : report.position = some ⟨script.name, place.number, place.column⟩
  sourceLine : ∀ shown, report.sourceLine = some shown → place.Shows shown

theorem resolve?_of_places
    {script : Script}
    {diagnostic : Diagnostic}
    {span : Span}
    (pointed : diagnostic.span = some span)
    {start stop : Place script.content.toList}
    (startsHere : start.offset = span.start)
    (line : span.line = stop.number) :
    ∃ report, resolve? diagnostic script = some report ∧
      report.position = some ⟨script.name, stop.number, start.column⟩ ∧
      report.sourceLine = script.line? stop.number := by
  simp only [resolve?, pointed, script.locate?_place start startsHere.symm, line, Option.map_some]
  exact ⟨_, rfl, rfl, rfl⟩

end Report

/-- A failure of a script points to a range of its bytes that begins and ends between two
characters, or points nowhere.  So it can be resolved against the script, and a column that it
gets is inside the text or just behind it. -/
theorem diagnostic_resolves
    {script : Script}
    {failure : Failure}
    (raised : script.Raises failure) :
    (∀ span, failure.diagnostic.span = some span →
        span.start ≤ span.stop ∧ span.stop ≤ script.content.utf8ByteSize ∧
          String.Pos.Raw.IsValid script.content ⟨span.start⟩ ∧
          String.Pos.Raw.IsValid script.content ⟨span.stop⟩) ∧
      ∃ report, Report.resolve? failure.diagnostic script = some report ∧
        report.position.isSome = failure.diagnostic.span.isSome ∧
        ∀ position, report.position = some position →
          1 ≤ position.column ∧ position.column ≤ script.content.utf8ByteSize + 1 := by
  constructor
  · intro span pointed
    obtain ⟨start, stop, startsHere, stopsHere, ordered, _, _⟩ := raised.places pointed
    have inside := stop.offset_le
    rw [byteLength_toList, stopsHere] at inside
    rw [startsHere, stopsHere] at ordered
    exact ⟨ordered, inside, startsHere ▸ start.isValid_offset, stopsHere ▸ stop.isValid_offset⟩
  · cases pointed : failure.diagnostic.span with
    | none =>
        simp only [Report.resolve?, pointed]
        exact ⟨_, rfl, rfl, nofun⟩
    | some span =>
        obtain ⟨start, stop, startsHere, _, _, line, _⟩ := raised.places pointed
        obtain ⟨report, resolved, position, _⟩ :=
          Report.resolve?_of_places pointed startsHere line
        refine ⟨report, resolved, by rw [position]; rfl, ?_⟩
        rw [position, ← byteLength_toList]
        rintro _ ⟨⟩
        exact ⟨Nat.le_add_right .., start.column_le⟩

/-- Two lines, both with characters of several bytes, the last of which starts no token. -/
def accented : Script :=
  .ofSource "m" "// ✓\né"

theorem accented_resolves :
    ∃ failure ∈ ((Session.start "m" true true).execute accented).2.failures,
      failure.diagnostic.span = some ⟨7, 9, 2⟩ ∧
        String.Pos.Raw.IsValid accented.content ⟨7⟩ ∧
        String.Pos.Raw.IsValid accented.content ⟨9⟩ ∧
        ∃ report, Report.resolve? failure.diagnostic accented = some report ∧
          report.position.isSome = true := by
  have reported : (LexError.mk (.unexpected 'é') ⟨7, 9, 2⟩).diagnostic ∈
      ((Session.start "m" true true).execute accented).2.failures.map Failure.diagnostic := by
    decide +kernel
  obtain ⟨failure, member, shows⟩ := List.mem_map.1 reported
  obtain ⟨inText, report, resolved, placed, _⟩ := diagnostic_resolves (.executing _ member)
  have pointed : failure.diagnostic.span = some ⟨7, 9, 2⟩ := congrArg Diagnostic.span shows
  obtain ⟨_, _, startValid, stopValid⟩ := inText _ pointed
  rw [pointed] at placed
  exact ⟨failure, member, pointed, startValid, stopValid, report, resolved, placed⟩

/-- A report has its column from the place where the failure starts, and its line, both the
number and the text, from the place where it stops.  It points at the former exactly if the two
are on one line, and they are unless the failure points to a string. -/
theorem report_places
    {script : Script}
    {failure : Failure}
    (raised : script.Raises failure)
    {span : Span}
    (pointed : failure.diagnostic.span = some span) :
    ∃ (report : Report) (start stop : Place script.content.toList),
      Report.resolve? failure.diagnostic script = some report ∧
        start.offset = span.start ∧ stop.offset = span.stop ∧
        report.position = some ⟨script.name, stop.number, start.column⟩ ∧
        (∀ shown, report.sourceLine = some shown → stop.Shows shown) ∧
        (report.sourceLine = none → stop.line = [] ∧ stop.later = []) ∧
        (report.PointsAt script start ↔ start.number = stop.number) ∧
        (¬failure.AtString → report.PointsAt script start) := by
  obtain ⟨start, stop, startsHere, stopsHere, _, line, oneLine⟩ := raised.places pointed
  obtain ⟨report, resolved, position, sourceLine⟩ :=
    Report.resolve?_of_places pointed startsHere line
  have pointsAt : report.PointsAt script start ↔ start.number = stop.number := by
    constructor
    · intro pointing
      have samePosition := pointing.position.symm.trans position
      simp only [Option.some.injEq, Position.mk.injEq] at samePosition
      exact samePosition.2.1
    · intro sameLine
      refine ⟨sameLine ▸ position, ?_⟩
      rw [sourceLine, ← sameLine]
      exact (script.line?_number start).1
  refine ⟨report, start, stop, resolved, startsHere, stopsHere, position, ?_, ?_, pointsAt, ?_⟩
  · exact sourceLine ▸ (script.line?_number stop).1
  · exact sourceLine ▸ (script.line?_number stop).2
  · intro noString
    exact pointsAt.2 (by_contra fun different => noString (oneLine different))

/-- A function that uses a name it does not know. -/
def unknownName : Script :=
  .ofSource "m" "def f(x)\n  return x + y\nend"

theorem unknown_name_pointed_at :
    ∃ failure ∈ ((Session.start "m" true true).execute unknownName).2.failures,
      ∃ report, Report.resolve? failure.diagnostic unknownName = some report ∧
        report.position = some ⟨"m", 2, 14⟩ ∧ report.sourceLine = some "  return x + y" ∧
        ∃ start, start.offset = 22 ∧ report.PointsAt unknownName start := by
  have reported : (LoweringError.unknownVariable "y" ⟨22, 23, 2⟩).diagnostic ∈
      ((Session.start "m" true true).execute unknownName).2.failures.map Failure.diagnostic := by
    decide +kernel
  obtain ⟨failure, member, shows⟩ := List.mem_map.1 reported
  have noString : ¬failure.AtString := by
    have issuer : failure.diagnostic.issuer = "poly.lowering (unknown variable)" :=
      congrArg Diagnostic.issuer shows
    rintro (span | ⟨what, isString⟩)
    · exact absurd (show LexError.issuer = _ from issuer) (by decide)
    · change what.issuer = _ at issuer
      cases what <;> simp [Expectation.issuer] at issuer
  obtain ⟨report, start, stop, resolved, startsHere, _, _, _, _, _, pointsAt⟩ :=
    report_places (.executing _ member) (congrArg Diagnostic.span shows)
  have resolvedAs : (Report.resolve? failure.diagnostic unknownName).map
      (fun report => (report.position, report.sourceLine)) =
        some (some ⟨"m", 2, 14⟩, some "  return x + y") := by
    rw [shows]
    decide +kernel
  simp only [resolved, Option.map_some, Option.some.injEq, Prod.mk.injEq] at resolvedAs
  exact ⟨failure, member, report, resolved, resolvedAs.1, resolvedAs.2, start, startsHere,
    pointsAt noString⟩

/-- A string of two lines where an expression should be. -/
def twoLineString : Script :=
  .ofSource "m" "\"a\nb\""

/-- Not every report points at the place where its failure starts: that of a string on two lines
has the number and the text of the second line with the column of the first. -/
theorem report_off_line :
    ¬∀ (script : Script) (failure : Failure) (span : Span) (report : Report),
      script.Raises failure → failure.diagnostic.span = some span →
        Report.resolve? failure.diagnostic script = some report →
          ∃ place, place.offset = span.start ∧ report.PointsAt script place := by
  intro everywhere
  have reported :
      (ParseError.expected .expression ⟨.string, some (.text "a\nb"), ⟨1, 4, 2⟩⟩).diagnostic ∈
        ((Session.start "m" true true).execute twoLineString).2.failures.map
          Failure.diagnostic := by
    decide +kernel
  obtain ⟨failure, member, shows⟩ := List.mem_map.1 reported
  have position : (Report.resolve? failure.diagnostic twoLineString).bind Report.position =
      some ⟨"m", 2, 2⟩ := by
    rw [shows]
    decide +kernel
  obtain ⟨report, resolved, position⟩ := Option.bind_eq_some_iff.1 position
  obtain ⟨place, startsHere, pointsAt⟩ :=
    everywhere _ _ _ report (.executing _ member) (congrArg Diagnostic.span shows) resolved
  -- one byte comes before the place, and it is the quote
  have split : twoLineString.content.toList = ['"'] ++ ['a', '\n', 'b', '"'] := by decide
  obtain ⟨other, afterQuote⟩ := Place.exists_of_append split
  have sameOffset : place.offset = other.offset := by
    rw [startsHere, Place.offset, afterQuote]
    decide
  have first : place.number = 1 := by
    rw [Place.number, Place.before_eq_of_offset_eq sameOffset, afterQuote]
    decide
  have samePosition := pointsAt.position.symm.trans position
  simp only [Option.some.injEq, Position.mk.injEq, first] at samePosition
  exact absurd samePosition.2.1 (by decide)

end ScalarScript
