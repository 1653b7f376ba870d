import ScalarScript.Proofs.Grammar

/-!
# What is read is derived

The readers find exactly the derivations in which a name in front of a parenthesis is a callee.
A reader stops where the phrase cannot go on, so that a derived phrase is read if what follows
it does not extend it: no operator behind an expression, and a closing keyword behind a block.
-/

namespace ScalarScript
namespace Grammar

/-- The next token does not join what comes before it to what comes after it. -/
abbrev NoOperator : List Token → Prop :=
  NextAvoids (·.precedence?.isSome = true)

/-! ## Expressions -/

/-- What the readers of expressions find in lists of at most `bound` tokens. -/
structure ReadersDerive (final : Token) (bound : Nat) : Prop where
  primary : ∀ tokens expr rest, tokens.length ≤ bound →
    Yields (Expr.readPrimary final tokens) expr rest → DerivesPrimary noParen tokens expr rest
  links : ∀ tokens links rest, tokens.length ≤ bound →
    Yields (Expr.readLinks final tokens) links rest →
    Run (DerivesPrimary noParen) tokens links rest ∧ NoOperator rest
  expr : ∀ tokens expr rest, tokens.length ≤ bound →
    Yields (Expr.readExpr final tokens) expr rest →
    DerivesExpr noParen tokens expr rest ∧ NoOperator rest
  moreArguments : ∀ tokens args rest, tokens.length ≤ bound →
    Yields (Expr.readMoreArguments final tokens) args rest →
    ∃ closing, closing.kind = .rightParen ∧
      Derives noParen .arguments tokens args (closing :: rest)

/-- Each field is proved from those before it and from smaller bounds. -/
theorem readersDerive (final : Token) (bound : Nat) : ReadersDerive final bound := by
  induction bound using Nat.strongRecOn with
  | _ bound smaller =>
      have primary : ∀ tokens expr rest, tokens.length ≤ bound →
          Yields (Expr.readPrimary final tokens) expr rest →
          DerivesPrimary noParen tokens expr rest := by
        intro tokens expr rest within yields
        cases (Expr.readPrimary_yields_iff ..).1 yields with
        | number isNumber => exact .number isNumber
        | name isIdentifier carries notParen =>
            exact .name (Token.name?_eq_some_iff.2 ⟨isIdentifier, carries⟩) notParen
        | call isIdentifier carries isParen argsRead =>
            have isName := Token.name?_eq_some_iff.2 ⟨isIdentifier, carries⟩
            simp only [List.length_cons] at within
            cases (Expr.readArguments_yields_iff ..).1 argsRead with
            | none isClose => exact .callEmpty isName isParen isClose
            | some _ moreRead =>
                obtain ⟨closing, isClose, derives⟩ :=
                  (smaller _ (by omega)).moreArguments _ _ _ (Nat.le_refl _) moreRead
                exact .call isName isParen derives isClose
        | group isParen innerRead isClose =>
            simp only [List.length_cons] at within
            have inner := (smaller _ (by omega)).expr _ _ _ (Nat.le_refl _) innerRead
            exact .group isParen inner.1 isClose
      have links : ∀ tokens links rest, tokens.length ≤ bound →
          Yields (Expr.readLinks final tokens) links rest →
          Run (DerivesPrimary noParen) tokens links rest ∧ NoOperator rest := by
        intro tokens links rest within yields
        cases (Expr.readLinks_yields_iff ..).1 yields with
        | stop avoids => exact ⟨.nil _, avoids⟩
        | link joins operandRead linksRead =>
            have shorter := operandRead.length_lt
            simp only [List.length_cons] at within
            obtain ⟨run, avoids⟩ := (smaller _ (by omega)).links _ _ _ (Nat.le_refl _) linksRead
            exact ⟨.cons joins (primary _ _ _ (by omega) operandRead) run, avoids⟩
      have expr : ∀ tokens expr rest, tokens.length ≤ bound →
          Yields (Expr.readExpr final tokens) expr rest →
          DerivesExpr noParen tokens expr rest ∧ NoOperator rest := by
        intro tokens expr rest within yields
        obtain ⟨first, others, middle, firstRead, linksRead, isTree⟩ :=
          (Expr.readExpr_yields_iff ..).1 yields
        have shorter := firstRead.length_lt
        obtain ⟨run, avoids⟩ := links _ _ _ (by omega) linksRead
        have layered := (Layered.comparison_iff run.joins).2 isTree
        exact ⟨derives_layer_iff.2
          ⟨first, others, middle, primary _ _ _ within firstRead, run, layered⟩, avoids⟩
      refine ⟨primary, links, expr, ?_⟩
      intro tokens args rest within yields
      cases (Expr.readMoreArguments_yields_iff ..).1 yields with
      | last argumentRead isClose =>
          exact ⟨_, isClose, .last (expr _ _ _ within argumentRead).1⟩
      | more argumentRead isComma othersRead =>
          have shorter := argumentRead.length_lt
          simp only [List.length_cons] at shorter
          obtain ⟨closing, isClose, others⟩ :=
            (smaller _ (by omega)).moreArguments _ _ _ (Nat.le_refl _) othersRead
          exact ⟨closing, isClose, .more (expr _ _ _ within argumentRead).1 isComma others⟩

/-- Links are read to their end, in front of a token that is no operator. -/
theorem readLinks_of_run
    {final : Token}
    {tokens rest : List Token}
    {links : List (Token × Expr)}
    (run : Run (fun tokens => Yields (Expr.readPrimary final tokens)) tokens links rest)
    (avoids : NoOperator rest) :
    Yields (Expr.readLinks final tokens) links rest := by
  induction run with
  | nil => exact (Expr.readLinks_yields_iff ..).2 (.stop avoids)
  | cons joins found _ inductionHypothesis =>
      exact (Expr.readLinks_yields_iff ..).2 (.link joins found (inductionHypothesis avoids))

/-- A chain of operands that can be read is read as an expression. -/
theorem readExpr_of_chained
    {final : Token}
    {tokens rest : List Token}
    {expr : Expr}
    (chained :
      Chained (fun tokens => Yields (Expr.readPrimary final tokens)) .comparison tokens expr rest)
    (avoids : NoOperator rest) :
    Yields (Expr.readExpr final tokens) expr rest := by
  obtain ⟨first, links, middle, found, run, layered⟩ := chained
  exact (Expr.readExpr_yields_iff ..).2
    ⟨first, links, middle, found, readLinks_of_run run avoids, layered.tree_eq.symm⟩

/-- A derived phrase as the readers find it: expressions as chains, arguments up to the closing
parenthesis. -/
def Readable (final : Token) (tokens : List Token) (trees : List Expr) (rest : List Token) :
    Phrase → Prop
  | .layer level => ∃ expr, trees = [expr] ∧
      Chained (fun tokens => Yields (Expr.readPrimary final tokens)) level tokens expr rest
  | .arguments => ∀ closing more, rest = closing :: more → closing.kind = .rightParen →
      Yields (Expr.readMoreArguments final tokens) trees more

theorem readable_primary
    {final : Token}
    {tokens rest : List Token}
    {expr : Expr}
    (read : Expr.PrimaryRead final tokens expr rest) :
    Readable final tokens [expr] rest (.layer .primary) :=
  ⟨expr, rfl, chained_primary ((Expr.readPrimary_yields_iff ..).2 read)⟩

/-- Every phrase that the grammar derives is read, as the tree that is derived. -/
theorem Derives.readable
    (final : Token)
    {phrase : Phrase}
    {tokens rest : List Token}
    {trees : List Expr}
    (derives : Derives noParen phrase tokens trees rest) :
    Readable final tokens trees rest phrase := by
  induction derives with
  | number isNumber =>
      exact readable_primary (.number isNumber)
  | name isName follows =>
      obtain ⟨isIdentifier, carries⟩ := Token.name?_eq_some_iff.1 isName
      exact readable_primary (.name isIdentifier carries follows)
  | callEmpty isName opens closes =>
      obtain ⟨isIdentifier, carries⟩ := Token.name?_eq_some_iff.1 isName
      refine readable_primary (.call isIdentifier carries opens ?_)
      exact (Expr.readArguments_yields_iff ..).2 (.none closes)
  | call isName opens arguments closes inductionHypothesis =>
      obtain ⟨isIdentifier, carries⟩ := Token.name?_eq_some_iff.1 isName
      have moreRead := inductionHypothesis _ _ rfl closes
      have argsRead := (Expr.readArguments_yields_iff final ..).2
        (.some (arguments.avoids (by decide)) moreRead)
      exact readable_primary (.call isIdentifier carries opens argsRead)
  | group opens _ closes inductionHypothesis =>
      obtain ⟨_, ⟨⟩, chained⟩ := inductionHypothesis
      have innerRead := readExpr_of_chained chained (by simp [closes, Token.Kind.precedence?])
      exact readable_primary (.group opens innerRead closes)
  | ascend isNext _ inductionHypothesis =>
      obtain ⟨_, ⟨⟩, chained⟩ := inductionHypothesis
      exact ⟨_, rfl, chained.ascend isNext⟩
  | joined isNext member _ _ leftHypothesis rightHypothesis =>
      obtain ⟨_, ⟨⟩, chainedLeft⟩ := leftHypothesis
      obtain ⟨_, ⟨⟩, chainedRight⟩ := rightHypothesis
      exact ⟨_, rfl, chainedLeft.joined isNext member chainedRight⟩
  | last _ inductionHypothesis =>
      obtain ⟨_, ⟨⟩, chained⟩ := inductionHypothesis
      rintro closing more rfl closes
      have argumentRead := readExpr_of_chained chained (by simp [closes, Token.Kind.precedence?])
      exact (Expr.readMoreArguments_yields_iff ..).2 (.last argumentRead closes)
  | more _ isComma _ inductionHypothesis othersHypothesis =>
      obtain ⟨_, ⟨⟩, chained⟩ := inductionHypothesis
      rintro closing more rfl closes
      have argumentRead := readExpr_of_chained chained (by simp [isComma, Token.Kind.precedence?])
      have othersRead := othersHypothesis closing more rfl closes
      exact (Expr.readMoreArguments_yields_iff ..).2 (.more argumentRead isComma othersRead)

/-- An expression is read when it is derived and no operator follows it. -/
theorem readExpr_iff
    (final : Token)
    {tokens rest : List Token}
    {expr : Expr} :
    Yields (Expr.readExpr final tokens) expr rest ↔
      DerivesExpr noParen tokens expr rest ∧ NoOperator rest := by
  constructor
  · exact (readersDerive final tokens.length).expr _ _ _ (Nat.le_refl _)
  · rintro ⟨derives, avoids⟩
    obtain ⟨_, ⟨⟩, chained⟩ := derives.readable final
    exact readExpr_of_chained chained avoids

/-! ## Prototypes -/

/-- Parameters that are read are names that the grammar derives. -/
theorem derivesNames_of_read
    {final : Token}
    {tokens rest : List Token}
    {params : List (String × Span)}
    (yields : Yields (Prototype.readParams final tokens) params rest) :
    ∃ closing, closing.kind = .rightParen ∧
      DerivesNames tokens (params.map Prod.fst) (closing :: rest) := by
  induction params generalizing tokens with
  | nil => cases (Prototype.readParams_yields_iff ..).1 yields
  | cons param params inductionHypothesis =>
      cases (Prototype.readParams_yields_iff ..).1 yields with
      | last isName isClose => exact ⟨_, isClose, .last _ isName⟩
      | more isName isComma othersRead =>
          obtain ⟨closing, isClose, others⟩ := inductionHypothesis othersRead
          exact ⟨closing, isClose, .more isName isComma others⟩

/-- Names that the grammar derives are read as parameters. -/
theorem DerivesNames.read
    (final : Token)
    {tokens rest : List Token}
    {names : List String}
    {closing : Token}
    (derives : DerivesNames tokens names (closing :: rest))
    (closes : closing.kind = .rightParen) :
    ∃ params, params.map Prod.fst = names ∧
      Yields (Prototype.readParams final tokens) params rest := by
  generalize isRest : closing :: rest = follow at derives
  induction derives with
  | @last token name _ isName =>
      cases isRest
      exact ⟨[(name, token.span)], rfl,
        (Prototype.readParams_yields_iff ..).2 (.last isName closes)⟩
  | @more token comma name names middle _ isName isComma _ inductionHypothesis =>
      obtain ⟨params, isNames, read⟩ := inductionHypothesis isRest
      exact ⟨(name, token.span) :: params, by simp [isNames],
        (Prototype.readParams_yields_iff ..).2 (.more isName isComma read)⟩

/-- A list of names that is not empty begins with a name. -/
theorem DerivesNames.begins
    {tokens rest : List Token}
    {names : List String}
    (derives : DerivesNames tokens names rest) :
    ∃ token more, tokens = token :: more ∧ token.kind = .identifier := by
  cases derives with
  | last _ isName | more isName => exact ⟨_, _, rfl, (Token.name?_eq_some_iff.1 isName).1⟩

/-- Reading a prototype and deriving one are the same. -/
theorem readPrototype_iff
    {final : Token}
    {tokens rest : List Token}
    {proto : Prototype} :
    Yields (Prototype.read final tokens) proto rest ↔ DerivesPrototype tokens proto rest := by
  rw [Prototype.read_yields_iff]
  constructor
  · rintro ⟨token, opening, more, params, rfl, isName, allowed, opens, paramsRead, isParams,
      located⟩
    cases (Prototype.readParamList_yields_iff ..).1 paramsRead with
    | none closes => exact .empty isName allowed located opens closes isParams
    | some _ moreRead =>
        obtain ⟨closing, closes, names⟩ := derivesNames_of_read moreRead
        rw [← isParams] at names
        exact .some isName allowed located opens names closes
  · intro derives
    cases derives with
    | empty isName allowed located opens closes noParams =>
        exact ⟨_, _, _, [], rfl, isName, allowed, opens,
          (Prototype.readParamList_yields_iff ..).2 (.none closes), noParams, located⟩
    | some isName allowed located opens names closes =>
        obtain ⟨params, isParams, read⟩ := names.read final closes
        obtain ⟨first, others, rfl, isIdentifier⟩ := names.begins
        exact ⟨_, _, _, params, rfl, isName, allowed, opens,
          (Prototype.readParamList_yields_iff ..).2 (.some (by simp [isIdentifier]) read),
          isParams.symm, located⟩

/-! ## Blocks -/

/-- What the readers of blocks find in lists of at most `bound` tokens. -/
structure BlockReadersDerive (final : Token) (bound : Nat) : Prop where
  block : ∀ closing tokens block rest, tokens.length ≤ bound →
    Yields (Block.read final closing tokens) block rest →
    DerivesPart noParen .block tokens (.block block) rest
  branch : ∀ keyword tokens statement rest, tokens.length ≤ bound →
    Yields (Block.readBranch final keyword tokens) statement rest →
    DerivesPart noParen (.branch keyword) tokens statement rest

/-- Blocks and branches that are read are derived by the grammar. -/
theorem blockReadersDerive (final : Token) (bound : Nat) : BlockReadersDerive final bound := by
  induction bound using Nat.strongRecOn with
  | _ bound smaller =>
      constructor
      · intro closing tokens block rest within yields
        cases (Block.read_yields_iff ..).1 yields with
        | ret isReturn valueRead =>
            rcases (Return.read_yields_iff ..).1 valueRead with
              ⟨_, rfl, rfl⟩ | ⟨_, expr, exprRead, rfl⟩
            · exact .returnNothing _ isReturn
            · exact .returnValue isReturn ((readExpr_iff final).1 exprRead).1
        | close => exact .empty _
        | @branch _ _ block _ _ _ isIf statementRead blockRead =>
            obtain ⟨statements, tail⟩ := block
            have shorter := statementRead.length_lt
            simp only [List.length_cons] at within
            exact .conditional isIf
              ((smaller _ (by omega)).branch _ _ _ _ (Nat.le_refl _) statementRead)
              ((smaller _ (by omega)).block _ _ _ _ (Nat.le_refl _) blockRead)
        | @expression _ _ block _ _ _ _ _ _ exprRead blockRead =>
            obtain ⟨statements, tail⟩ := block
            have shorter := exprRead.length_lt
            exact .expression ((readExpr_iff final).1 exprRead).1
              ((smaller _ (by omega)).block _ _ _ _ (Nat.le_refl _) blockRead)
      · intro keyword tokens statement rest within yields
        -- all three cases begin with the condition and the first arm
        have arm {condition : Expr} {opening : Token} {afterThen middle : List Token}
            {block : Block}
            (conditionRead :
              Yields (Expr.readExpr final tokens) condition (opening :: afterThen))
            (armRead : Yields (Block.read final .arm afterThen) block middle) :
            middle.length < bound ∧ DerivesPart noParen .block afterThen (.block block) middle := by
          have shorter := conditionRead.length_lt
          have armShorter := armRead.length_lt
          simp only [List.length_cons] at shorter
          exact ⟨by omega, (smaller _ (by omega)).block _ _ _ _ (Nat.le_refl _) armRead⟩
        cases (Block.readBranch_yields_iff ..).1 yields with
        | elif conditionRead isThen armRead isElif otherRead =>
            obtain ⟨shorter, derives⟩ := arm conditionRead armRead
            simp only [List.length_cons] at shorter
            exact .branch ((readExpr_iff final).1 conditionRead).1 isThen derives
              (.elif isElif ((smaller _ (by omega)).branch _ _ _ _ (Nat.le_refl _) otherRead))
        | otherwise conditionRead isThen armRead isElse otherRead isEnd =>
            obtain ⟨shorter, derives⟩ := arm conditionRead armRead
            simp only [List.length_cons] at shorter
            exact .branch ((readExpr_iff final).1 conditionRead).1 isThen derives (.otherwise isElse
              ((smaller _ (by omega)).block _ _ _ _ (Nat.le_refl _) otherRead) isEnd)
        | done conditionRead isThen armRead isEnd =>
            obtain ⟨_, derives⟩ := arm conditionRead armRead
            exact .branch ((readExpr_iff final).1 conditionRead).1 isThen derives (.done _ isEnd)

/-- The next token closes a block. -/
def Closed (closing : Closing) (tokens : List Token) : Prop :=
  ∃ token more, tokens = token :: more ∧ closing.closes token.kind = true

/-- Every block may be closed by `end`. -/
theorem closed_of_end
    (closing : Closing)
    {token : Token}
    (isEnd : token.kind = .kwEnd)
    (rest : List Token) :
    Closed closing (token :: rest) := by
  refine ⟨token, rest, rfl, ?_⟩
  cases closing with
  | body => simp [isEnd, Closing.closes, Closing.kinds]
  | arm => simp [isEnd, Closing.closes, Closing.kinds]

/-- What closes a block is no operator. -/
theorem Closed.noOperator
    {closing : Closing}
    {tokens : List Token}
    (closed : Closed closing tokens) :
    NoOperator tokens := by
  obtain ⟨token, more, rfl, closes⟩ := closed
  rcases closes_cases closes with isElif | isElse | isEnd
  · simp [isElif, Token.Kind.precedence?]
  · simp [isElse, Token.Kind.precedence?]
  · simp [isEnd, Token.Kind.precedence?]

/-- What comes behind the arm of a branch closes the arm. -/
theorem DerivesPart.tail_closed
    {follow : Follow}
    {condition : Expr}
    {arm : Block}
    {span : Span}
    {tokens rest : List Token}
    {statement : Stmt}
    (derives : DerivesPart follow (.tail condition arm span) tokens statement rest) :
    Closed .arm tokens := by
  cases derives with
  | elif isElif _ => exact ⟨_, _, rfl, by simp [isElif, Closing.closes, Closing.kinds]⟩
  | otherwise isElse _ _ => exact ⟨_, _, rfl, by simp [isElse, Closing.closes, Closing.kinds]⟩
  | done rest isEnd => exact closed_of_end .arm isEnd rest

/-- A block in front of a token that is no operator does not begin with one. -/
theorem DerivesPart.noOperator
    {follow : Follow}
    {tokens rest : List Token}
    {statement : Stmt}
    (derives : DerivesPart follow .block tokens statement rest)
    (avoids : NoOperator rest) :
    NoOperator tokens := by
  cases derives with
  | empty => exact avoids
  | returnNothing _ isReturn => simp [isReturn, Token.Kind.precedence?]
  | returnValue isReturn => simp [isReturn, Token.Kind.precedence?]
  | conditional isIf => simp [isIf, Token.Kind.precedence?]
  | expression derives => exact derives.avoids (by decide)

/-- A derived part as the readers find it: a block up to the token that closes it, and a tail
behind everything that it belongs to. -/
def ReadablePart (final : Token) (tokens : List Token) (statement : Stmt) (rest : List Token) :
    Part → Prop
  | .block => ∀ closing, Closed closing rest →
      ∃ block, statement = .block block ∧ Yields (Block.read final closing tokens) block rest
  | .branch keyword => Yields (Block.readBranch final keyword tokens) statement rest
  | .tail condition arm span => ∀ keyword opening beginning more, keyword.span = span →
      Yields (Expr.readExpr final beginning) condition (opening :: more) →
      opening.kind = .kwThen → Yields (Block.read final .arm more) arm tokens →
      Yields (Block.readBranch final keyword beginning) statement rest

/-- An expression in front of what closes the block is the value of a return. -/
theorem readReturn_of_derives
    (final : Token)
    {closing : Closing}
    (keyword : Token)
    {tokens rest : List Token}
    {expr : Expr}
    (derives : DerivesExpr noParen tokens expr rest)
    (closed : Closed closing rest) :
    Yields (Return.read final closing keyword tokens) ⟨some expr, keyword.span⟩ rest := by
  have read := (readExpr_iff final).2 ⟨derives, closed.noOperator⟩
  obtain ⟨token, more, rfl, begins⟩ := derives.begins
  have staysOpen := not_closes_of_begins closing (by simpa [beginnings] using begins)
  exact (Return.read_yields_iff final ..).2 (.inr ⟨staysOpen, expr, read, rfl⟩)

/-- Blocks and branches that the grammar derives are read, as the trees that are derived. -/
theorem DerivesPart.readable
    (final : Token)
    {part : Part}
    {tokens rest : List Token}
    {statement : Stmt}
    (derives : DerivesPart noParen part tokens statement rest) :
    ReadablePart final tokens statement rest part := by
  induction derives with
  | empty =>
      rintro closing ⟨token, more, rfl, closes⟩
      have notReturn : token.kind ≠ .kwReturn := by
        rintro isReturn
        simpa [isReturn] using closes_cases closes
      exact ⟨_, rfl, (Block.read_yields_iff ..).2 (.close notReturn closes)⟩
  | returnNothing _ isReturn =>
      rintro closing ⟨token, more, rfl, closes⟩
      refine ⟨_, rfl, (Block.read_yields_iff ..).2 (.ret isReturn ?_)⟩
      exact (Return.read_yields_iff ..).2 (.inl ⟨closes, rfl, rfl⟩)
  | returnValue isReturn value =>
      intro closing closed
      exact ⟨_, rfl, (Block.read_yields_iff ..).2
        (.ret isReturn (readReturn_of_derives final _ value closed))⟩
  | conditional isIf _ _ branchHypothesis othersHypothesis =>
      intro closing closed
      obtain ⟨_, ⟨⟩, othersRead⟩ := othersHypothesis closing closed
      exact ⟨_, rfl, (Block.read_yields_iff ..).2 (.branch isIf branchHypothesis othersRead)⟩
  | expression derives others othersHypothesis =>
      intro closing closed
      obtain ⟨_, ⟨⟩, othersRead⟩ := othersHypothesis closing closed
      have read := (readExpr_iff final).2 ⟨derives, others.noOperator closed.noOperator⟩
      obtain ⟨token, more, rfl, begins⟩ := derives.begins
      have staysOpen := not_closes_of_begins closing (by simpa [beginnings] using begins)
      have notReturn := ne_of_mem_of_not_mem begins (by decide : Token.Kind.kwReturn ∉ _)
      have notIf := ne_of_mem_of_not_mem begins (by decide : Token.Kind.kwIf ∉ _)
      exact ⟨_, rfl,
        (Block.read_yields_iff ..).2 (.expression notReturn staysOpen notIf read othersRead)⟩
  | branch decides isThen _ tail armHypothesis tailHypothesis =>
      obtain ⟨_, ⟨⟩, armRead⟩ := armHypothesis .arm tail.tail_closed
      have conditionRead := (readExpr_iff final).2
        ⟨decides, by simp [isThen, Token.Kind.precedence?]⟩
      exact tailHypothesis _ _ _ _ rfl conditionRead isThen armRead
  | elif isElif _ branchHypothesis =>
      rintro first opening beginning more rfl conditionRead isThen armRead
      exact (Block.readBranch_yields_iff ..).2
        (.elif conditionRead isThen armRead isElif branchHypothesis)
  | otherwise isElse _ isEnd blockHypothesis =>
      rintro first opening beginning more rfl conditionRead isThen armRead
      obtain ⟨_, ⟨⟩, otherRead⟩ := blockHypothesis .body (closed_of_end .body isEnd _)
      exact (Block.readBranch_yields_iff ..).2
        (.otherwise conditionRead isThen armRead isElse otherRead isEnd)
  | done _ isEnd =>
      rintro first opening beginning more rfl conditionRead isThen armRead
      exact (Block.readBranch_yields_iff ..).2 (.done conditionRead isThen armRead isEnd)

/-! ## Programs -/

/-- No program begins with an operator. -/
theorem DerivesProgram.noOperator
    {follow : Follow}
    {tokens : List Token}
    {statements : List Stmt}
    (derives : DerivesProgram follow tokens statements) :
    NoOperator tokens := by
  cases derives with
  | nil => exact nextAvoids_nil _
  | function isDef => simp [isDef, Token.Kind.precedence?]
  | prototype isExtern => simp [isExtern, Token.Kind.precedence?]
  | expression derives => exact derives.avoids (by decide)

/-- A program that is read is derived by the grammar. -/
theorem derivesProgram_of_read
    {final : Token}
    {tokens : List Token}
    {statements : List Stmt}
    (read : Parse.ProgramRead final tokens statements) :
    DerivesProgram noParen tokens statements := by
  induction read with
  | nil => exact .nil
  | cons statementRead _ inductionHypothesis =>
      cases (Stmt.read_yields_iff ..).1 statementRead with
      | @function _ _ _ _ _ middle _ isDef protoRead bodyRead isEnd =>
          have body := (blockReadersDerive final middle.length).block _ _ _ _
            (Nat.le_refl _) bodyRead
          exact .function isDef (readPrototype_iff.1 protoRead) body isEnd inductionHypothesis
      | prototype isExtern protoRead =>
          exact .prototype isExtern (readPrototype_iff.1 protoRead) inductionHypothesis
      | expression _ exprRead =>
          exact .expression ((readExpr_iff final).1 exprRead).1 inductionHypothesis

/-- A program that the grammar derives is read. -/
theorem DerivesProgram.read
    (final : Token)
    {tokens : List Token}
    {statements : List Stmt}
    (derives : DerivesProgram noParen tokens statements) :
    Parse.ProgramRead final tokens statements := by
  induction derives with
  | nil => exact .nil
  | function isDef header body isEnd _ inductionHypothesis =>
      obtain ⟨_, ⟨⟩, bodyRead⟩ := body.readable final .body (closed_of_end .body isEnd _)
      exact .cons ((Stmt.read_yields_iff ..).2
        (.function isDef (readPrototype_iff.2 header) bodyRead isEnd)) inductionHypothesis
  | prototype isExtern header _ inductionHypothesis =>
      exact .cons ((Stmt.read_yields_iff ..).2
        (.prototype isExtern (readPrototype_iff.2 header))) inductionHypothesis
  | expression derives others inductionHypothesis =>
      have read := (Stmt.read_yields_iff final ..).2 (.expression (derives.avoids (by decide))
        ((readExpr_iff final).2 ⟨derives, others.noOperator⟩))
      obtain ⟨token, more, rfl, _⟩ := derives.begins
      exact .cons read inductionHypothesis

/-- A program is read as what is derived with calls wherever they are possible. -/
theorem ofBody_iff
    {final : Token}
    {tokens : List Token}
    {statements : List Stmt} :
    (Parse.ofBody final tokens).result = .ok statements ↔
      DerivesProgram noParen tokens statements := by
  rw [Parse.ofBody_eq_ok_iff]
  exact ⟨derivesProgram_of_read, fun derives => derives.read final⟩

end Grammar
end ScalarScript
