import ScalarScript.Proofs.Readers

/-!
# Trees that come from a text

A tree may hold any statement anywhere, but the parser returns only some trees: operators
come from the table of precedences, blocks hold expressions and conditionals, an `elif`
excludes an `else` of the same conditional, and nothing but a top-level expression has the
name that is kept for it.  These are the grammatical trees.
-/

namespace ScalarScript

/-- Every operator of the expression joins two operands. -/
inductive Expr.Grammatical : Expr → Prop
  | num (value : Float) (span : Span) : Grammatical (.num value span)
  | var (name : String) (span : Span) : Grammatical (.var name span)
  | binary {op : Token.Kind} {left right : Expr} (span : Span) :
      op.precedence?.isSome = true → Grammatical left → Grammatical right →
      Grammatical (.binary op left right span)
  | call (callee : String) {args : List Expr} (span : Span) :
      (∀ arg ∈ args, Grammatical arg) → Grammatical (.call callee args span)

/-- The value of the return, if it has one, is grammatical. -/
def Return.Grammatical (value : Return) : Prop :=
  ∀ expr, value.value = some expr → expr.Grammatical

/-- The prototype of a top-level expression. -/
def Prototype.IsAnonymous (proto : Prototype) : Prop :=
  proto.name = Prototype.anonymousName ∧ proto.params = []

/-- A statement as it stands in a block. -/
inductive Stmt.Inner : Stmt → Prop
  | expression {proto : Prototype} {body : Expr} :
      proto.IsAnonymous → body.Grammatical → Inner (.expression proto body)
  | done {condition : Expr} {statements : List Stmt} {tail : Option Return} (span : Span) :
      condition.Grammatical →
      (∀ statement ∈ statements, Inner statement) → (∀ value ∈ tail, value.Grammatical) →
      Inner (.branch condition (.mk statements tail) none none span)
  | otherwise {condition : Expr} {statements others : List Stmt}
      {tail otherTail : Option Return} (span : Span) :
      condition.Grammatical →
      (∀ statement ∈ statements, Inner statement) → (∀ value ∈ tail, value.Grammatical) →
      (∀ statement ∈ others, Inner statement) → (∀ value ∈ otherTail, value.Grammatical) →
      Inner (.branch condition (.mk statements tail) none (some (.mk others otherTail)) span)
  /-- The `elif` arm is a conditional of its own. -/
  | elif {condition otherCondition : Expr} {statements : List Stmt} {tail : Option Return}
      {otherBlock : Block} {otherElif : Option Stmt} {otherElse : Option Block}
      {otherSpan : Span} (span : Span) :
      condition.Grammatical →
      (∀ statement ∈ statements, Inner statement) → (∀ value ∈ tail, value.Grammatical) →
      Inner (.branch otherCondition otherBlock otherElif otherElse otherSpan) →
      Inner (.branch condition (.mk statements tail)
        (some (.branch otherCondition otherBlock otherElif otherElse otherSpan)) none span)

/-- A block of expressions and conditionals, perhaps with a return at its end. -/
def Block.Grammatical (block : Block) : Prop :=
  (∀ statement ∈ block.statements, statement.Inner) ∧ ∀ value ∈ block.tail, value.Grammatical

namespace Stmt.Inner

/-! The conditionals once more, with their blocks as a whole. -/

/-- A branch without alternative is a statement of a block if its parts are grammatical. -/
theorem ofDone
    {condition : Expr}
    {thenBlock : Block}
    (span : Span)
    (conditionGrammatical : condition.Grammatical)
    (thenGrammatical : thenBlock.Grammatical) :
    Inner (.branch condition thenBlock none none span) := by
  obtain ⟨statements, tail⟩ := thenBlock
  exact .done span conditionGrammatical thenGrammatical.1 thenGrammatical.2

/-- So is a branch with an alternative block. -/
theorem ofOtherwise
    {condition : Expr}
    {thenBlock elseBlock : Block}
    (span : Span)
    (conditionGrammatical : condition.Grammatical)
    (thenGrammatical : thenBlock.Grammatical)
    (elseGrammatical : elseBlock.Grammatical) :
    Inner (.branch condition thenBlock none (some elseBlock) span) := by
  obtain ⟨statements, tail⟩ := thenBlock
  obtain ⟨others, otherTail⟩ := elseBlock
  exact .otherwise span conditionGrammatical thenGrammatical.1 thenGrammatical.2
    elseGrammatical.1 elseGrammatical.2

/-- So is a branch whose alternative is another branch. -/
theorem ofElif
    {condition otherCondition : Expr}
    {thenBlock otherBlock : Block}
    {otherElif : Option Stmt}
    {otherElse : Option Block}
    {otherSpan : Span}
    (span : Span)
    (conditionGrammatical : condition.Grammatical)
    (thenGrammatical : thenBlock.Grammatical)
    (otherInner : Inner (.branch otherCondition otherBlock otherElif otherElse otherSpan)) :
    Inner (.branch condition thenBlock
      (some (.branch otherCondition otherBlock otherElif otherElse otherSpan)) none span) := by
  obtain ⟨statements, tail⟩ := thenBlock
  exact .elif span conditionGrammatical thenGrammatical.1 thenGrammatical.2 otherInner

end Stmt.Inner

/-- A statement as it stands outside of every function. -/
inductive Stmt.Outer : Stmt → Prop
  | prototype {proto : Prototype} :
      proto.name ≠ Prototype.anonymousName → Outer (.prototype proto)
  | function {proto : Prototype} {body : Block} :
      proto.name ≠ Prototype.anonymousName → body.Grammatical → Outer (.function proto body)
  | expression {proto : Prototype} {body : Expr} :
      proto.IsAnonymous → body.Grammatical → Outer (.expression proto body)

/-! ## What is read is grammatical -/

namespace Chain

/-- Joining operands that wait keeps everything grammatical. -/
theorem settle_grammatical
    (level : Nat)
    {waiting : List (Expr × Token)}
    {operand : Expr}
    (waits : ∀ pair ∈ waiting, pair.1.Grammatical ∧ pair.2.kind.precedence?.isSome = true)
    (operandGrammatical : operand.Grammatical) :
    (∀ pair ∈ (settle level waiting operand).1,
        pair.1.Grammatical ∧ pair.2.kind.precedence?.isSome = true) ∧
      (settle level waiting operand).2.Grammatical := by
  induction waiting generalizing operand with
  | nil => exact ⟨by simp [settle], operandGrammatical⟩
  | cons pair waiting inductionHypothesis =>
      obtain ⟨left, op⟩ := pair
      obtain ⟨leftGrammatical, joins⟩ := waits (left, op) List.mem_cons_self
      have others := fun pair member => waits pair (List.mem_cons_of_mem _ member)
      unfold settle
      split
      · exact inductionHypothesis others
          (.binary op.span joins leftGrammatical operandGrammatical)
      · exact ⟨waits, operandGrammatical⟩

/-- Grouping operands that are grammatical gives a grammatical expression. -/
theorem group_grammatical
    {waiting : List (Expr × Token)}
    {operand : Expr}
    {links : List (Token × Expr)}
    (waits : ∀ pair ∈ waiting, pair.1.Grammatical ∧ pair.2.kind.precedence?.isSome = true)
    (operandGrammatical : operand.Grammatical)
    (linked : ∀ link ∈ links, link.1.kind.precedence?.isSome = true ∧ link.2.Grammatical) :
    (group waiting operand links).Grammatical := by
  induction links generalizing waiting operand with
  | nil => exact (settle_grammatical 0 waits operandGrammatical).2
  | cons link links inductionHypothesis =>
      obtain ⟨op, next⟩ := link
      obtain ⟨joins, nextGrammatical⟩ := linked (op, next) List.mem_cons_self
      obtain ⟨settledWaits, settledGrammatical⟩ :=
        settle_grammatical (binding op) waits operandGrammatical
      apply inductionHypothesis
      · intro pair member
        rcases List.mem_cons.1 member with rfl | member
        · exact ⟨settledGrammatical, joins⟩
        · exact settledWaits pair member
      · exact nextGrammatical
      · exact fun link member => linked link (List.mem_cons_of_mem _ member)

/-- A chain of grammatical operands stands for a grammatical expression. -/
theorem tree_grammatical
    {chain : Chain}
    (firstGrammatical : chain.first.Grammatical)
    (linked : ∀ link ∈ chain.links,
      link.1.kind.precedence?.isSome = true ∧ link.2.Grammatical) :
    chain.tree.Grammatical :=
  group_grammatical (by simp) firstGrammatical linked

end Chain

namespace Expr

/-- What the readers of expressions promise about lists of at most `bound` tokens. -/
structure ReadersGrammatical (final : Token) (bound : Nat) : Prop where
  primary : ∀ tokens expr rest, tokens.length ≤ bound →
    Yields (readPrimary final tokens) expr rest → expr.Grammatical
  links : ∀ tokens links rest, tokens.length ≤ bound →
    Yields (readLinks final tokens) links rest →
    ∀ link ∈ links, link.1.kind.precedence?.isSome = true ∧ link.2.Grammatical
  expr : ∀ tokens expr rest, tokens.length ≤ bound →
    Yields (readExpr final tokens) expr rest → expr.Grammatical
  moreArguments : ∀ tokens args rest, tokens.length ≤ bound →
    Yields (readMoreArguments final tokens) args rest → ∀ arg ∈ args, arg.Grammatical
  arguments : ∀ tokens args rest, tokens.length ≤ bound →
    Yields (readArguments final tokens) args rest → ∀ arg ∈ args, arg.Grammatical

/-- The readers call each other on fewer tokens, or in the order of the fields on the same
tokens; so each field is proved from those before it and from smaller bounds. -/
theorem readersGrammatical (final : Token) (bound : Nat) :
    ReadersGrammatical final bound := by
  induction bound using Nat.strongRecOn with
  | _ bound smaller =>
      have primary : ∀ tokens expr rest, tokens.length ≤ bound →
          Yields (readPrimary final tokens) expr rest → expr.Grammatical := by
        intro tokens expr rest within yields
        cases (readPrimary_yields_iff ..).1 yields with
        | number => exact .num _ _
        | name => exact .var _ _
        | call _ _ _ argsRead =>
            simp only [List.length_cons] at within
            exact .call _ _ ((smaller _ (by omega)).arguments _ _ _ (Nat.le_refl _) argsRead)
        | group _ innerRead _ =>
            simp only [List.length_cons] at within
            exact (smaller _ (by omega)).expr _ _ _ (Nat.le_refl _) innerRead
      have links : ∀ tokens links rest, tokens.length ≤ bound →
          Yields (readLinks final tokens) links rest →
          ∀ link ∈ links, link.1.kind.precedence?.isSome = true ∧ link.2.Grammatical := by
        intro tokens links rest within yields
        cases (readLinks_yields_iff ..).1 yields with
        | stop => simp
        | link joins operandRead linksRead =>
            have shorter := operandRead.length_lt
            simp only [List.length_cons] at within
            intro link member
            rcases List.mem_cons.1 member with rfl | member
            · exact ⟨joins, primary _ _ _ (by omega) operandRead⟩
            · exact (smaller _ (by omega)).links _ _ _ (Nat.le_refl _) linksRead link member
      have expr : ∀ tokens expr rest, tokens.length ≤ bound →
          Yields (readExpr final tokens) expr rest → expr.Grammatical := by
        intro tokens expr rest within yields
        obtain ⟨first, links', middle, firstRead, linksRead, rfl⟩ :=
          (readExpr_yields_iff ..).1 yields
        have shorter := firstRead.length_lt
        exact Chain.tree_grammatical (primary _ _ _ within firstRead)
          (links _ _ _ (by omega) linksRead)
      have moreArguments : ∀ tokens args rest, tokens.length ≤ bound →
          Yields (readMoreArguments final tokens) args rest → ∀ arg ∈ args, arg.Grammatical := by
        intro tokens args rest within yields
        cases (readMoreArguments_yields_iff ..).1 yields with
        | last argumentRead _ =>
            simpa using expr _ _ _ within argumentRead
        | more argumentRead _ othersRead =>
            have shorter := argumentRead.length_lt
            simp only [List.length_cons] at shorter
            intro arg member
            rcases List.mem_cons.1 member with rfl | member
            · exact expr _ _ _ within argumentRead
            · exact (smaller _ (by omega)).moreArguments _ _ _ (Nat.le_refl _) othersRead
                arg member
      refine ⟨primary, links, expr, moreArguments, ?_⟩
      intro tokens args rest within yields
      cases (readArguments_yields_iff ..).1 yields with
      | none => simp
      | some _ moreRead => exact moreArguments _ _ _ within moreRead

/-- Every expression that is read is grammatical. -/
theorem readExpr_grammatical
    {final : Token}
    {tokens rest : List Token}
    {expr : Expr}
    (yields : Yields (readExpr final tokens) expr rest) :
    expr.Grammatical :=
  (readersGrammatical final tokens.length).expr _ _ _ (Nat.le_refl _) yields

end Expr

namespace Block

/-- Every return that is read is grammatical. -/
theorem returnRead_grammatical
    {final keyword : Token}
    {closing : Closing}
    {tokens rest : List Token}
    {value : Return}
    (yields : Yields (Return.read final closing keyword tokens) value rest) :
    value.Grammatical := by
  intro expr isValue
  rcases (Return.read_yields_iff ..).1 yields with ⟨_, _, rfl⟩ | ⟨_, found, exprRead, rfl⟩
  · cases isValue
  · cases isValue
    exact Expr.readExpr_grammatical exprRead

/-- What the readers of blocks promise about lists of at most `bound` tokens.  A
conditional is always a branch, so that it may stand as the `elif` of another. -/
structure ReadersGrammatical (final : Token) (bound : Nat) : Prop where
  block : ∀ closing tokens block rest, tokens.length ≤ bound →
    Yields (read final closing tokens) block rest → block.Grammatical
  branch : ∀ keyword tokens statement rest, tokens.length ≤ bound →
    Yields (readBranch final keyword tokens) statement rest →
    statement.Inner ∧ ∃ condition thenBlock elseIf elseBlock span,
      statement = .branch condition thenBlock elseIf elseBlock span

theorem Grammatical.cons
    {statement : Stmt}
    {block : Block}
    (inner : statement.Inner)
    (grammatical : block.Grammatical) :
    (Block.cons statement block).Grammatical :=
  ⟨List.forall_mem_cons.2 ⟨inner, grammatical.1⟩, grammatical.2⟩

/-- Every block and every branch that is read is grammatical. -/
theorem readersGrammatical (final : Token) (bound : Nat) :
    ReadersGrammatical final bound := by
  induction bound using Nat.strongRecOn with
  | _ bound smaller =>
      constructor
      · intro closing tokens block rest within yields
        cases (read_yields_iff ..).1 yields with
        | ret _ valueRead =>
            refine ⟨by simp [Block.statements], ?_⟩
            simpa [Block.tail] using returnRead_grammatical valueRead
        | close => exact ⟨by simp [Block.statements], by simp [Block.tail]⟩
        | branch _ statementRead blockRead =>
            have shorter := statementRead.length_lt
            simp only [List.length_cons] at within
            have inner := ((smaller _ (by omega)).branch _ _ _ _
              (Nat.le_refl _) statementRead).1
            exact .cons inner ((smaller _ (by omega)).block _ _ _ _
              (Nat.le_refl _) blockRead)
        | expression _ _ _ exprRead blockRead =>
            have shorter := exprRead.length_lt
            refine .cons (.expression ⟨rfl, rfl⟩ (Expr.readExpr_grammatical exprRead)) ?_
            exact ((smaller _ (by omega)).block _ _ _ _
              (Nat.le_refl _) blockRead)
      · intro keyword tokens statement rest within yields
        cases (readBranch_yields_iff ..).1 yields with
        | elif conditionRead _ armRead _ otherRead =>
            have shorter := conditionRead.length_lt
            have armShorter := armRead.length_lt
            simp only [List.length_cons] at shorter armShorter
            have armGrammatical := (smaller _ (by omega)).block _ _ _ _
              (Nat.le_refl _) armRead
            obtain ⟨otherInner, otherCondition, otherBlock, otherElif, otherElse, otherSpan,
              rfl⟩ := (smaller _ (by omega)).branch _ _ _ _ (Nat.le_refl _) otherRead
            exact ⟨.ofElif _ (Expr.readExpr_grammatical conditionRead) armGrammatical otherInner,
              _, _, _, _, _, rfl⟩
        | otherwise conditionRead _ armRead _ otherRead _ =>
            have shorter := conditionRead.length_lt
            have armShorter := armRead.length_lt
            simp only [List.length_cons] at shorter armShorter
            have armGrammatical := (smaller _ (by omega)).block _ _ _ _
              (Nat.le_refl _) armRead
            have otherGrammatical := (smaller _ (by omega)).block _ _ _ _
              (Nat.le_refl _) otherRead
            exact ⟨.ofOtherwise _ (Expr.readExpr_grammatical conditionRead) armGrammatical
              otherGrammatical, _, _, _, _, _, rfl⟩
        | done conditionRead _ armRead _ =>
            have shorter := conditionRead.length_lt
            simp only [List.length_cons] at shorter
            have armGrammatical := (smaller _ (by omega)).block _ _ _ _
              (Nat.le_refl _) armRead
            exact ⟨.ofDone _ (Expr.readExpr_grammatical conditionRead) armGrammatical,
              _, _, _, _, _, rfl⟩

theorem read_grammatical
    {final : Token}
    {closing : Closing}
    {tokens rest : List Token}
    {block : Block}
    (yields : Yields (read final closing tokens) block rest) :
    block.Grammatical :=
  (readersGrammatical final tokens.length).block _ _ _ _ (Nat.le_refl _) yields

end Block

/-- No prototype that is read has the reserved name. -/
theorem Prototype.read_allowed
    {final : Token}
    {tokens rest : List Token}
    {proto : Prototype}
    (yields : Yields (Prototype.read final tokens) proto rest) :
    proto.name ≠ Prototype.anonymousName := by
  obtain ⟨_, _, _, _, _, _, allowed, _⟩ := (Prototype.read_yields_iff ..).1 yields
  exact allowed

/-- Every statement that is read is one of a program. -/
theorem Stmt.read_outer
    {final : Token}
    {tokens rest : List Token}
    {statement : Stmt}
    (yields : Yields (Stmt.read final tokens) statement rest) :
    statement.Outer := by
  cases (Stmt.read_yields_iff ..).1 yields with
  | function _ protoRead bodyRead _ =>
      exact .function (Prototype.read_allowed protoRead) (Block.read_grammatical bodyRead)
  | prototype _ protoRead => exact .prototype (Prototype.read_allowed protoRead)
  | expression _ exprRead =>
      exact .expression ⟨rfl, rfl⟩ (Expr.readExpr_grammatical exprRead)

/-- A program that was read consists of grammatical statements. -/
theorem Parse.ofTokens_outer
    {tokens : List Token}
    {statements : List Stmt}
    (parsed : (Parse.ofTokens tokens).result = .ok statements) :
    ∀ statement ∈ statements, statement.Outer := by
  have read := (Parse.ofBody_eq_ok_iff ..).1 parsed
  clear parsed
  generalize tokens.takeWhile _ = body at read
  induction read with
  | nil => simp
  | cons statementRead _ inductionHypothesis =>
      exact List.forall_mem_cons.2 ⟨Stmt.read_outer statementRead, inductionHypothesis⟩

end ScalarScript
