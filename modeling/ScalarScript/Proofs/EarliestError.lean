import ScalarScript.Proofs.Acceptance
import ScalarScript.Proofs.Prediction
import ScalarScript.Proofs.Printing

/-!
# Errors at the earliest token

When a token is found where something else was expected, then the tokens before it begin a program,
and with it they do not.  Two conditions are left aside: a function may have the reserved name, and
parameters may be repeated.  What the error says depends on nothing behind the token.
-/

namespace ScalarScript
namespace Grammar

open Reading

/-! ## Tokens of phrases -/

/-- The number of marks of the end of input. -/
def ends (tokens : List Token) : Nat :=
  tokens.countP fun token => token.kind = .eof

theorem ends_cons
    {token : Token}
    (isOther : token.kind ≠ .eof)
    (rest : List Token) :
    ends (token :: rest) = ends rest := by
  simp [ends, isOther]

theorem ends_name
    {token : Token}
    {name : String}
    (isName : token.name? = some name)
    (rest : List Token) :
    ends (token :: rest) = ends rest := by
  apply ends_cons
  simp [(Token.name?_eq_some_iff.1 isName).1]

/-- Tokens of other kinds mark no end. -/
theorem ends_kind
    {token : Token}
    {kind : Token.Kind}
    (isKind : token.kind = kind)
    (isOther : kind ≠ .eof)
    (rest : List Token) :
    ends (token :: rest) = ends rest :=
  ends_cons (isKind ▸ isOther) rest

/-- No phrase of an expression holds a mark of the end of input. -/
theorem Derives.ends_eq
    {follow : Follow}
    {phrase : Phrase}
    {tokens rest : List Token}
    {trees : List Expr}
    (derives : Derives follow phrase tokens trees rest) :
    ends tokens = ends rest := by
  induction derives with
  | number isNumber => exact ends_kind isNumber (by decide) _
  | name isName _ => exact ends_name isName _
  | callEmpty isName opens closes =>
      rw [ends_name isName, ends_kind opens (by decide), ends_kind closes (by decide)]
  | call isName opens _ closes inductionHypothesis =>
      rw [ends_name isName, ends_kind opens (by decide), inductionHypothesis,
        ends_kind closes (by decide)]
  | group opens _ closes inductionHypothesis =>
      rw [ends_kind opens (by decide), inductionHypothesis, ends_kind closes (by decide)]
  | ascend _ _ inductionHypothesis => exact inductionHypothesis
  | joined _ member _ _ leftHypothesis rightHypothesis =>
      have joins := Level.isSome_precedence?_of_mem_operators member
      rw [leftHypothesis, ends_cons ?_, rightHypothesis]
      rintro isEnd
      simp [isEnd, Token.Kind.precedence?] at joins
  | last _ inductionHypothesis => exact inductionHypothesis
  | more _ isComma _ inductionHypothesis othersHypothesis =>
      rw [inductionHypothesis, ends_kind isComma (by decide), othersHypothesis]

/-- No list of names holds a mark of the end of input. -/
theorem DerivesNames.ends_eq
    {tokens rest : List Token}
    {names : List String}
    (derives : DerivesNames tokens names rest) :
    ends tokens = ends rest := by
  induction derives with
  | last _ isName => exact ends_name isName _
  | more isName isComma _ inductionHypothesis =>
      rw [ends_name isName, ends_kind isComma (by decide), inductionHypothesis]

/-- No header holds a mark of the end of input. -/
theorem DerivesHeader.ends_eq
    {tokens rest : List Token}
    (derives : DerivesHeader tokens rest) :
    ends tokens = ends rest := by
  cases derives with
  | empty isName opens closes =>
      rw [ends_name isName, ends_kind opens (by decide), ends_kind closes (by decide)]
  | some isName opens names closes =>
      rw [ends_name isName, ends_kind opens (by decide), names.ends_eq,
        ends_kind closes (by decide)]

/-- No part of a statement holds a mark of the end of input. -/
theorem DerivesPart.ends_eq
    {follow : Follow}
    {part : Part}
    {tokens rest : List Token}
    {statement : Stmt}
    (derives : DerivesPart follow part tokens statement rest) :
    ends tokens = ends rest := by
  induction derives with
  | empty => rfl
  | returnNothing _ isReturn => exact ends_kind isReturn (by decide) _
  | returnValue isReturn value => rw [ends_kind isReturn (by decide), value.ends_eq]
  | conditional isIf _ _ branchHypothesis othersHypothesis =>
      rw [ends_kind isIf (by decide), branchHypothesis, othersHypothesis]
  | expression derives _ inductionHypothesis => rw [derives.ends_eq, inductionHypothesis]
  | branch decides isThen _ _ armHypothesis tailHypothesis =>
      rw [decides.ends_eq, ends_kind isThen (by decide), armHypothesis, tailHypothesis]
  | elif isElif _ inductionHypothesis => rw [ends_kind isElif (by decide), inductionHypothesis]
  | otherwise isElse _ isEnd inductionHypothesis =>
      rw [ends_kind isElse (by decide), inductionHypothesis, ends_kind isEnd (by decide)]
  | done _ isEnd => exact ends_kind isEnd (by decide) _

/-- No sentence holds a mark of the end of input. -/
theorem Sentence.ends_eq_zero
    {follow : Follow}
    {tokens : List Token}
    (sentence : Sentence follow DerivesHeader tokens) :
    ends tokens = 0 := by
  induction sentence with
  | nil => rfl
  | function isDef heads derives isEnd _ inductionHypothesis =>
      rw [ends_kind isDef (by decide), heads.ends_eq, derives.ends_eq, ends_kind isEnd (by decide),
        inductionHypothesis]
  | prototype isExtern heads _ inductionHypothesis =>
      rw [ends_kind isExtern (by decide), heads.ends_eq, inductionHypothesis]
  | expression derives _ inductionHypothesis => rw [derives.ends_eq, inductionHypothesis]

/-! ## Statements one after the other -/

/-- The statements. -/
def statements : Forms :=
  fun tokens rest => Sentence anything DerivesHeader rest → Sentence anything DerivesHeader tokens

/-- What reading a statement takes is a statement, or can be completed to one. -/
theorem predictive_statement (final : Token) (bound : Nat) :
    Predictive statement statements final bound := by
  rw [statement_eq]
  refine (Predictive.choose
    ((predictive_ofKind _ _).andStill fun _ =>
      (predictive_prototype final bound).andStill fun _ =>
        ((blocksPredictive final bound).block .body).andStill fun _ =>
          (predictive_ofKind _ _).andStill fun _ => predictive_done _)
    (Predictive.choose
      ((predictive_ofKind _ _).andStill fun _ =>
        (predictive_prototype final bound).andStill fun _ => predictive_done _)
      ((predictive_expression final bound).andStill fun _ => predictive_done _))).mono ?_
  rintro tokens rest (⟨_, ⟨token, isDef, rfl⟩, _, heads, _, ⟨body, derives⟩, _,
    ⟨closing, isEnd, rfl⟩, rfl⟩ | ⟨_, ⟨token, isExtern, rfl⟩, _, heads, rfl⟩ |
    ⟨_, ⟨expr, derives⟩, rfl⟩) others
  · exact .function isDef heads derives isEnd others
  · exact .prototype isExtern heads others
  · exact .expression derives others

/-- A reading succeeds and leaves some tokens, or a condition on names fails. -/
def Passes {α : Type} (result : Except ParseError (α × List Token)) (rest : List Token) : Prop :=
  (∃ value, result = .ok (value, rest)) ∨
    ∃ error, result = .error error ∧ ∀ what found, error ≠ .expected what found

/-- Readings that pass one after another pass together. -/
theorem Passes.andThen
    {α β : Type}
    {reading : Reading α}
    {next : α → Reading β}
    {final : Token}
    {tokens middle rest : List Token}
    (first : Passes (reading final tokens) middle)
    (second : ∀ value, Passes (next value final middle) rest) :
    Passes (reading.andThen next final tokens) rest := by
  rcases first with ⟨value, read⟩ | ⟨error, failed, noExpectation⟩
  · rw [Reading.andThen, read]
    exact second value
  · rw [Reading.andThen, failed]
    exact .inr ⟨error, rfl, noExpectation⟩

theorem passes_ofKind
    {final token : Token}
    {kind : Token.Kind}
    (isKind : token.kind = kind)
    (what : Expectation)
    (rest : List Token) :
    Passes (ofKind kind what final (token :: rest)) rest :=
  .inl ⟨token, by simp [ofKind, isKind]⟩

theorem passes_named
    {final token : Token}
    {name : String}
    (isName : token.name? = some name)
    (what : Expectation)
    (rest : List Token) :
    Passes (named what final (token :: rest)) rest :=
  .inl ⟨(token, name), by simp [named, accept, isName]⟩

theorem passes_done
    {α : Type}
    (value : α)
    (final : Token)
    (rest : List Token) :
    Passes (done value final rest) rest :=
  .inl ⟨value, rfl⟩

/-- A check that expects no token lets its tokens pass. -/
theorem passes_ofResult
    {α : Type}
    {result : Except ParseError α}
    (noExpectation : ∀ what found, result ≠ .error (.expected what found))
    (final : Token)
    (rest : List Token) :
    Passes (ofResult result final rest) rest := by
  cases result with
  | ok value => exact .inl ⟨value, rfl⟩
  | error error =>
      refine .inr ⟨error, rfl, ?_⟩
      rintro what found rfl
      exact noExpectation what found rfl

/-- Behind the name of a prototype the two conditions are the only obstacle. -/
theorem passes_prototype
    {final token opening : Token}
    {name : String}
    {more rest : List Token}
    {params : List (String × Span)}
    (isName : token.name? = some name)
    (opens : opening.kind = .leftParen)
    (read : paramList final more = .ok (params, rest)) :
    Passes (prototype final (token :: opening :: more)) rest := by
  rw [prototype_eq]
  refine (passes_named isName _ _).andThen fun callee => ?_
  split
  · exact .inr ⟨_, rfl, by rintro _ _ ⟨⟩⟩
  · refine (passes_ofKind opens _ _).andThen fun _ => Passes.andThen (.inl ⟨params, read⟩) ?_
    exact fun _ => passes_ofResult (ofLocated_ne_expected _ _ _) final rest

/-- Reading a prototype passes every header, whether or not its names are refused. -/
theorem DerivesHeader.passes
    (final : Token)
    {tokens rest : List Token}
    (derives : DerivesHeader tokens rest) :
    Passes (prototype final tokens) rest := by
  cases derives with
  | empty isName opens closes =>
      exact passes_prototype isName opens ((Prototype.readParamList_yields_iff ..).2 (.none closes))
  | some isName opens names closes =>
      obtain ⟨params, _, read⟩ := names.read final closes
      obtain ⟨first, others, rfl, isIdentifier⟩ := names.begins
      exact passes_prototype isName opens ((Prototype.readParamList_yields_iff ..).2
        (.some (by simp [isIdentifier]) read))

/-- No sentence begins with an operator. -/
theorem Sentence.noOperator
    {follow : Follow}
    {header : List Token → List Token → Prop}
    {tokens : List Token}
    (sentence : Sentence follow header tokens) :
    NoOperator tokens := by
  cases sentence with
  | nil => exact nextAvoids_nil _
  | function isDef => simp [isDef, Token.Kind.precedence?]
  | prototype isExtern => simp [isExtern, Token.Kind.precedence?]
  | expression derives => exact derives.avoids (by decide)

/-- An error in the first statement is the error of the program. -/
theorem ofBody_of_failed
    {final : Token}
    {tokens : List Token}
    {error : ParseError}
    (nonempty : tokens.isEmpty = false)
    (failed : statement final tokens = .error error) :
    (Parse.ofBody final tokens).error = some error := by
  cases tokens with
  | nil => cases nonempty
  | cons token rest =>
      cases read : Stmt.read final (token :: rest) with
      | ok value => simp [statement, read, Except.map] at failed
      | error other =>
          simp only [statement, read, Except.map, Except.error.injEq] at failed
          simp [Parse.ofBody, read, failed]

/-- A statement that was read leaves the error to what is behind it. -/
theorem ofBody_of_read
    {final : Token}
    {tokens rest : List Token}
    {value : Stmt}
    (read : statement final tokens = .ok (value, rest)) :
    (Parse.ofBody final tokens).error = (Parse.ofBody final rest).error := by
  cases tokens with
  | nil => exact absurd (statement_eats _ _ _ _ read) (Nat.not_lt_zero _)
  | cons token more =>
      obtain ⟨parsed, isRead, _, rfl⟩ := Yields.exists_ok read
      simp [Parse.ofBody, isRead]

/-- A sentence is read up to its end, unless a condition on names fails. -/
theorem Sentence.not_expected
    (final : Token)
    {tokens : List Token}
    (sentence : Sentence noParen DerivesHeader tokens)
    (what : Expectation)
    (found : Token) :
    (Parse.ofBody final tokens).error ≠ some (.expected what found) := by
  -- if the first statement passes, then the error is that of what follows
  have step {token : Token} {more rest : List Token}
      (passes : Passes (statement final (token :: more)) rest)
      (others : (Parse.ofBody final rest).error ≠ some (.expected what found)) :
      (Parse.ofBody final (token :: more)).error ≠ some (.expected what found) := by
    rcases passes with ⟨value, read⟩ | ⟨error, failed, noExpectation⟩
    · rw [ofBody_of_read read]
      exact others
    · rw [ofBody_of_failed rfl failed]
      exact fun same => noExpectation what found (Option.some.inj same)
  induction sentence with
  | nil => simp [Parse.ofBody]
  | @function token closing body more middle rest isDef heads derives isEnd _ inductionHypothesis =>
      apply step ?_ inductionHypothesis
      obtain ⟨block, _, read⟩ := derives.readable final .body (closed_of_end .body isEnd rest)
      rw [statement_eq, choose, if_pos (by simp [isDef])]
      refine (passes_ofKind isDef _ _).andThen fun _ => (heads.passes final).andThen fun _ => ?_
      refine Passes.andThen (.inl ⟨block, read⟩) fun _ => (passes_ofKind isEnd _ _).andThen ?_
      exact fun _ => passes_done _ final rest
  | @prototype token more rest isExtern heads _ inductionHypothesis =>
      apply step ?_ inductionHypothesis
      rw [statement_eq, choose, if_neg (by simp [isExtern]), choose,
        if_pos (by simp [isExtern])]
      refine (passes_ofKind isExtern _ _).andThen fun _ => (heads.passes final).andThen ?_
      exact fun _ => passes_done _ final rest
  | @expression expr tokens rest derives others inductionHypothesis =>
      have read := (readExpr_iff final).2 ⟨derives, others.noOperator⟩
      obtain ⟨token, more, rfl, begins⟩ := derives.begins
      apply step ?_ inductionHypothesis
      have noKeyword : token.kind ≠ .kwDef ∧ token.kind ≠ .kwExtern := by
        constructor
        · rintro isDef
          simp [isDef, beginnings] at begins
        · rintro isExtern
          simp [isExtern, beginnings] at begins
      rw [statement_eq, choose, if_neg (by simp [noKeyword]), choose,
        if_neg (by simp [noKeyword])]
      exact Passes.andThen (.inl ⟨expr, read⟩) fun _ => passes_done _ final rest

/-- Where the reading of statements is stuck, what was taken can be completed to a sentence, and
all lists that go on with the same token are stuck in the same way. -/
theorem ofBody_stuck
    {final : Token}
    {tokens : List Token}
    {what : Expectation}
    {found : Token}
    (stuck : (Parse.ofBody final tokens).error = some (.expected what found)) :
    ∃ front back, tokens = front ++ back ∧ nextToken final back = found ∧
      (∃ more, Sentence anything DerivesHeader (front ++ more)) ∧
      ∀ other others, lookahead other others = lookahead final back →
        (Parse.ofBody other (front ++ others)).error = some (.expected what found) := by
  induction bound : tokens.length using Nat.strongRecOn generalizing tokens with
  | _ bound shorter =>
      by_cases isEmpty : tokens.isEmpty = true
      · rw [List.isEmpty_iff.1 isEmpty] at stuck
        simp [Parse.ofBody] at stuck
      have predictive := predictive_statement final tokens.length tokens (Nat.le_refl _)
      cases first : statement final tokens with
      | error error =>
          rw [ofBody_of_failed (Bool.eq_false_iff.2 isEmpty) first] at stuck
          cases stuck
          obtain ⟨front, back, rfl, isFound, ⟨more, completes⟩, again⟩ :=
            predictive.stuck what found first
          refine ⟨front, back, rfl, isFound, ⟨more, ?_⟩, fun other others same => ?_⟩
          · have sentence := completes [] .nil
            rwa [List.append_nil] at sentence
          · have sameEmpty := congrArg Prod.fst (lookahead_append same front)
            exact ofBody_of_failed (sameEmpty.trans (Bool.eq_false_iff.2 isEmpty))
              (again other others same)
      | ok pair =>
          obtain ⟨value, middle⟩ := pair
          rw [ofBody_of_read first] at stuck
          have eaten := statement_eats final tokens value middle first
          obtain ⟨front', back, rfl, isFound, ⟨more, completes⟩, again'⟩ :=
            shorter middle.length (by omega) stuck rfl
          obtain ⟨front, rfl, isPhrase, again⟩ := predictive.read value _ first
          refine ⟨front ++ front', back, by simp, isFound, ⟨more, ?_⟩, fun other others same => ?_⟩
          · rw [List.append_assoc]
            exact isPhrase _ completes
          · have sameFirst := again other _ (lookahead_append same front')
            rw [List.append_assoc, ofBody_of_read sameFirst]
            exact again' other others same

/-! ## The end of input -/

/-- Tokens that are the same up to some place end, if at all, at the same mark behind it. -/
theorem exists_rest_of_agrees
    {front back body dropped beyond : List Token}
    {final other : Token}
    (plain : ∀ token ∈ front ++ back, token.kind ≠ .eof)
    (isEnd : final.kind = .eof)
    (otherPlain : ∀ token ∈ body, token.kind ≠ .eof)
    (otherEnd : other.kind = .eof)
    (agrees : front ++ nextToken final back :: dropped = body ++ other :: beyond) :
    ∃ rest, body = front ++ rest ∧ lookahead other rest = lookahead final back := by
  induction front generalizing body with
  | nil =>
      cases back with
      | nil =>
          -- the mark itself was found, so that nothing stands before it in the other list
          cases body with
          | nil =>
              simp only [nextToken, List.nil_append, List.cons.injEq] at agrees
              exact ⟨[], rfl, by rw [agrees.1]⟩
          | cons token rest =>
              simp only [nextToken, List.nil_append, List.cons_append, List.cons.injEq] at agrees
              exact absurd (agrees.1 ▸ isEnd) (otherPlain token List.mem_cons_self)
      | cons found more =>
          cases body with
          | nil =>
              simp only [nextToken, List.nil_append, List.cons.injEq] at agrees
              exact absurd (agrees.1 ▸ otherEnd) (plain found List.mem_cons_self)
          | cons token rest =>
              simp only [nextToken, List.nil_append, List.cons_append, List.cons.injEq] at agrees
              exact ⟨token :: rest, rfl, by simp [lookahead, nextToken, agrees.1]⟩
  | cons token front inductionHypothesis =>
      obtain ⟨isPlain, plain⟩ := List.forall_mem_cons.1 plain
      cases body with
      | nil =>
          simp only [List.cons_append, List.nil_append, List.cons.injEq] at agrees
          exact absurd (agrees.1 ▸ otherEnd) isPlain
      | cons first body =>
          simp only [List.cons_append, List.cons.injEq] at agrees
          obtain ⟨rest, rfl, same⟩ :=
            inductionHypothesis plain (List.forall_mem_cons.1 otherPlain).2 agrees.2
          exact ⟨rest, by rw [agrees.1]; rfl, same⟩

/-- A program and the mark of the end of input behind it. -/
def Complete (tokens : List Token) : Prop :=
  ∃ body final, tokens = body ++ [final] ∧ final.kind = .eof ∧
    Sentence anything DerivesHeader body

/-- Tokens with which a complete program begins. -/
def Viable (tokens : List Token) : Prop :=
  ∃ more, Complete (tokens ++ more)

end Grammar

open Grammar

namespace Parse

/-- Tokens with a mark of the end of input, which is added when there is none. -/
def completed (tokens : List Token) : List Token :=
  if tokens.any fun token => token.kind = .eof then
    tokens
  else
    tokens ++ [endAfter tokens.getLast?]

/-- The token that stands for the end marks the end of input. -/
theorem finalOf_isEnd (tokens : List Token) : (finalOf tokens).kind = .eof := by
  unfold finalOf
  cases found : tokens.find? fun token => token.kind = .eof with
  | none => rfl
  | some token => simpa using List.find?_some found

/-- With the mark of the end of input added where it is missing, tokens are those in front of the
first mark, the mark and what is beyond it. -/
theorem completed_eq (tokens : List Token) :
    ∃ beyond, completed tokens =
      (tokens.takeWhile fun token => token.kind ≠ .eof) ++ finalOf tokens :: beyond := by
  unfold completed finalOf
  cases found : tokens.find? fun token => token.kind = .eof with
  | none =>
      have plain : ∀ token ∈ tokens, token.kind ≠ .eof := by simpa using List.find?_eq_none.1 found
      have isBody : (tokens.takeWhile fun token => token.kind ≠ .eof) = tokens := by
        simpa using plain
      refine ⟨[], ?_⟩
      rw [isBody, if_neg (by simpa using plain), Option.getD_none]
  | some final =>
      obtain ⟨isEnd, front, beyond, rfl, plain⟩ := List.find?_eq_some_iff_append.1 found
      have isBody : ((front ++ final :: beyond).takeWhile fun token => token.kind ≠ .eof) =
          front := by
        rw [List.takeWhile_append_of_pos (by simpa using plain),
          List.takeWhile_cons_of_neg (by simpa using isEnd), List.append_nil]
      refine ⟨beyond, ?_⟩
      rw [isBody, if_pos (List.any_eq_true.2 ⟨final, by simp, isEnd⟩), Option.getD_some]

/-- No token in front of the first mark marks the end of input. -/
theorem plain_body (tokens : List Token) :
    ∀ token ∈ tokens.takeWhile fun token => token.kind ≠ .eof, token.kind ≠ .eof := by
  intro token member
  simpa using List.mem_takeWhile_imp member

/-- A program is refused exactly if there is an error. -/
theorem result_eq_error_iff
    {parse : Parse}
    {error : ParseError} :
    parse.result = .error error ↔ parse.error = some error := by
  unfold result
  split
  · rename_i stopped
    simp [stopped]
  · rename_i noError
    simp [noError]

/-- An error that something else was expected is at the first token with which no program goes on:
what stands before it begins a complete program, and together with it does not.  Whatever stands
behind the token, the error is the same. -/
theorem ofTokens_earliest
    {tokens : List Token}
    {error : ParseError}
    {what : Expectation}
    {found : Token}
    (failed : (ofTokens tokens).result = .error error)
    (isExpectation : error = .expected what found) :
    ∃ place token, (completed tokens)[place]? = some token ∧
      error.span = token.span ∧
      error.message = s!"expected {what.describe}, got {token.describe}" ∧
      Viable ((completed tokens).take place) ∧
      ¬Viable ((completed tokens).take (place + 1)) ∧
      ∀ others, (completed others).take (place + 1) = (completed tokens).take (place + 1) →
        (ofTokens others).result = .error error := by
  subst isExpectation
  obtain ⟨front, back, isBody, rfl, ⟨more, sentence⟩, again⟩ :=
    ofBody_stuck (result_eq_error_iff.1 failed)
  have plain : ∀ token ∈ front ++ back, token.kind ≠ .eof := isBody ▸ plain_body tokens
  have isEnd := finalOf_isEnd tokens
  obtain ⟨dropped, isCompleted⟩ : ∃ dropped,
      completed tokens = front ++ nextToken (finalOf tokens) back :: dropped := by
    obtain ⟨beyond, isCompleted⟩ := completed_eq tokens
    rw [isCompleted, isBody, List.append_assoc]
    cases back with
    | nil => exact ⟨_, rfl⟩
    | cons found back => exact ⟨_, rfl⟩
  have taken : (completed tokens).take (front.length + 1) =
      front ++ [nextToken (finalOf tokens) back] := by
    rw [isCompleted, ← List.singleton_append, ← List.append_assoc, List.take_left' (by simp)]
  refine ⟨front.length, nextToken (finalOf tokens) back, by simp [isCompleted], rfl, rfl,
    ?_, ?_, ?_⟩
  · rw [isCompleted, List.take_left]
    exact ⟨more ++ [.word .eof], front ++ more, .word .eof, by simp, rfl, sentence⟩
  · rw [taken]
    rintro ⟨others, body, final, isOther, otherEnd, otherSentence⟩
    have otherPlain : ∀ token ∈ body, token.kind ≠ .eof := by
      simpa [ends, List.countP_eq_zero] using otherSentence.ends_eq_zero
    rw [List.append_assoc] at isOther
    obtain ⟨rest, rfl, same⟩ :=
      exists_rest_of_agrees plain isEnd otherPlain otherEnd isOther
    exact otherSentence.recovered.not_expected final what _ (again final rest same)
  · intro others agrees
    obtain ⟨beyond, isOther⟩ := completed_eq others
    have split := List.take_append_drop (front.length + 1) (completed others)
    rw [agrees, taken, isOther, List.append_assoc] at split
    obtain ⟨rest, isRest, same⟩ :=
      exists_rest_of_agrees plain isEnd (plain_body others) (finalOf_isEnd others) split
    rw [result_eq_error_iff, ofTokens, isRest]
    exact again (finalOf others) rest same

/-- The tokens of `extern f(a, a b)`. -/
def unseparated : List Token :=
  [.word .kwExtern, .ofName "f", .word .leftParen, .ofName "a", .word .comma, .ofName "a",
    .ofName "b", .word .rightParen]

/-- Behind two parameters of one name a third is not expected without a comma; that the name is
repeated is no obstacle yet. -/
theorem ofTokens_earliest_unseparated :
    (ofTokens unseparated).result = .error (.expected .parameterDelimiter (.ofName "b")) ∧
      ∃ place, Viable ((completed unseparated).take place) ∧
        ¬Viable ((completed unseparated).take (place + 1)) := by
  have failed : (ofTokens unseparated).result =
      .error (.expected .parameterDelimiter (.ofName "b")) := by cbv
  obtain ⟨place, _, _, _, _, viable, notViable, _⟩ := ofTokens_earliest failed rfl
  exact ⟨failed, place, viable, notViable⟩

end Parse
end ScalarScript
