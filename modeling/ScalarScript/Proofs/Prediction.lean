import ScalarScript.Proofs.Grammar
import ScalarScript.Proofs.Lookahead
import ScalarScript.Proofs.ReaderSteps

/-!
# The readers are predictive

What a reader takes is a phrase of the grammar, and what it took when it is stuck can be completed
to one.  Prototypes are an exception: a reader refuses some of them for their names.  Without these
conditions on names the phrases are headers.
-/

namespace ScalarScript
namespace Grammar

open Reading

/-! ## Expressions -/

/-- The primary expressions. -/
def primaries : Forms :=
  fun tokens rest => ∃ expr, DerivesPrimary anything tokens expr rest

/-- Operators with their right operands. -/
def runs : Forms :=
  fun tokens rest => ∃ links, Run (DerivesPrimary anything) tokens links rest

/-- The expressions. -/
def expressions : Forms :=
  fun tokens rest => ∃ expr, DerivesExpr anything tokens expr rest

/-- At least one argument, and a closing parenthesis. -/
def someArguments : Forms :=
  fun tokens rest => ∃ args closing, closing.kind = .rightParen ∧
    Derives anything .arguments tokens args (closing :: rest)

instance : primaries.Starts :=
  ⟨[⟨.number, none, .zero⟩], fun _ => ⟨_, .number rfl⟩⟩

instance : (Forms.passing (·.precedence?.isSome)).Starts :=
  ⟨[⟨.plus, none, .zero⟩], fun _ => ⟨_, rfl, rfl⟩⟩

instance : runs.Starts :=
  ⟨[], fun rest => ⟨[], .nil rest⟩⟩

/-- An operand and links form an expression. -/
theorem expressions_of_chain
    {tokens middle rest : List Token}
    (first : primaries tokens middle)
    (others : runs middle rest) :
    expressions tokens rest := by
  obtain ⟨operand, found⟩ := first
  obtain ⟨links, run⟩ := others
  obtain ⟨expr, layered⟩ := Layered.exists_of_joins operand run.joins
  exact ⟨expr, derives_layer_iff.2 ⟨operand, links, middle, found, run, layered⟩⟩

instance : expressions.Starts := by
  obtain ⟨more, isPrimary⟩ := (inferInstance : primaries.Starts)
  exact ⟨more, fun rest => expressions_of_chain (isPrimary rest) ⟨[], .nil rest⟩⟩

instance : someArguments.Starts := by
  obtain ⟨more, isExpr⟩ := (inferInstance : expressions.Starts)
  refine ⟨more ++ [⟨.rightParen, none, .zero⟩], fun rest => ?_⟩
  obtain ⟨expr, derives⟩ := isExpr (⟨.rightParen, none, .zero⟩ :: rest)
  rw [List.append_assoc]
  exact ⟨[expr], _, rfl, .last derives⟩

/-- The readers of expressions are predictive on lists of at most `bound` tokens. -/
structure ExprsPredictive (final : Token) (bound : Nat) : Prop where
  primary : Predictive primary primaries final bound
  links : Predictive links runs final bound
  expression : Predictive expression expressions final bound
  moreArguments : Predictive moreArguments someArguments final bound

/-- A list that may be empty: its end comes next, or something is in it. -/
theorem predictive_list
    {α : Type}
    {more : Reading (List α)}
    {forms : Forms}
    {final : Token}
    {bound : Nat}
    (what : Expectation)
    (predictive : Predictive more forms final bound) :
    Predictive
      (choose (comes .rightParen) ((ofKind .rightParen what).andThen fun _ => done []) more)
      ((Forms.ofKind .rightParen).either forms) final bound := by
  refine (Predictive.choose
    ((predictive_ofKind _ _).andStill fun _ => predictive_done _)
    predictive).mono ?_
  rintro tokens rest (⟨_, isParen, rfl⟩ | isSome)
  · exact .inl isParen
  · exact .inr isSome

/-- Reading arguments takes a closing parenthesis or at least one argument. -/
theorem predictive_arguments
    {final : Token}
    {bound : Nat}
    (more : Predictive moreArguments someArguments final bound) :
    Predictive arguments ((Forms.ofKind .rightParen).either someArguments) final bound := by
  rw [arguments_eq]
  exact predictive_list _ more

/-- Each field is proved from those before it and from smaller bounds. -/
theorem exprsPredictive (final : Token) (bound : Nat) : ExprsPredictive final bound := by
  induction bound using Nat.strongRecOn with
  | _ bound smaller =>
      have primary : Predictive primary primaries final bound := by
        rw [primary_eq]
        refine (Predictive.choose
          ((predictive_ofKind _ _).andStill fun _ => predictive_done _)
          (Predictive.choose
            ((predictive_named _).andThen (accept_eats _ _) fun _ less isLess =>
              Predictive.choose
                ((predictive_ofKind _ _).andThen (accept_eats _ _) fun _ lesser isLesser =>
                  (predictive_arguments (smaller lesser (by omega)).moreArguments).andStill
                    fun _ => predictive_done _)
                (predictive_done _))
            ((predictive_ofKind _ _).andThen (accept_eats _ _) fun _ less isLess =>
              (smaller less isLess).expression.andStill fun _ =>
                (predictive_ofKind _ _).andStill fun _ => predictive_done _))).mono ?_
        rintro tokens rest (⟨_, ⟨token, isNumber, rfl⟩, rfl⟩ |
          ⟨_, ⟨token, name, isName, rfl⟩, called | rfl⟩ |
          ⟨_, ⟨opening, opens, rfl⟩, _, ⟨inner, derives⟩, _, ⟨closing, closes, rfl⟩, rfl⟩)
        · exact ⟨_, .number isNumber⟩
        · obtain ⟨_, ⟨opening, opens, rfl⟩, _, ⟨closing, closes, rfl⟩ | ⟨args, closing, closes,
            derives⟩, rfl⟩ := called
          · exact ⟨_, .callEmpty isName opens closes⟩
          · exact ⟨_, .call isName opens derives closes⟩
        · exact ⟨_, .name isName trivial⟩
        · exact ⟨_, .group opens derives closes⟩
      have links : Predictive links runs final bound := by
        rw [links_eq]
        refine (Predictive.choose
          ((predictive_takeIf _ _).andThen (accept_eats _ _) fun _ less isLess =>
            (smaller less isLess).primary.andThen primary_eats fun _ lesser isLesser =>
              (smaller lesser (by omega)).links.andStill fun _ => predictive_done _)
          (predictive_done _)).mono ?_
        rintro tokens rest (⟨_, ⟨op, joins, rfl⟩, _, ⟨operand, found⟩, _, ⟨others, run⟩, rfl⟩ | rfl)
        · exact ⟨_, .cons joins found run⟩
        · exact ⟨[], .nil _⟩
      have expression : Predictive expression expressions final bound := by
        rw [expression_eq]
        refine (primary.andThen primary_eats fun _ less isLess =>
          (smaller less isLess).links.andStill fun _ => predictive_done _).mono ?_
        rintro tokens rest ⟨_, first, _, others, rfl⟩
        exact expressions_of_chain first others
      refine ⟨primary, links, expression, ?_⟩
      rw [moreArguments_eq]
      refine (expression.andThen expression_eats fun _ less isLess =>
        Predictive.choose
          ((predictive_ofKind _ _).andStill fun _ => predictive_done _)
          ((predictive_ofKind _ _).andThen (accept_eats _ _) fun _ lesser isLesser =>
            (smaller lesser (by omega)).moreArguments.andStill fun _ => predictive_done _)).mono ?_
      rintro tokens rest ⟨_, ⟨expr, derives⟩, ⟨_, ⟨closing, closes, rfl⟩, rfl⟩ |
        ⟨_, ⟨comma, isComma, rfl⟩, _, ⟨args, closing, closes, others⟩, rfl⟩⟩
      · exact ⟨_, closing, closes, .last derives⟩
      · exact ⟨_, closing, closes, .more derives isComma others⟩

/-- What reading an expression takes is an expression, or can be completed to one. -/
theorem predictive_expression (final : Token) (bound : Nat) :
    Predictive expression expressions final bound :=
  (exprsPredictive final bound).expression

/-! ## Headers -/

/-- A name and parameters in parentheses, whatever the names are. -/
inductive DerivesHeader : List Token → List Token → Prop where
  | empty {token opening closing : Token} {name : String} {rest : List Token}
      (isName : token.name? = some name) (opens : opening.kind = .leftParen)
      (closes : closing.kind = .rightParen) :
      DerivesHeader (token :: opening :: closing :: rest) rest
  | some {token opening closing : Token} {name : String} {params : List String}
      {more rest : List Token}
      (isName : token.name? = some name) (opens : opening.kind = .leftParen)
      (names : DerivesNames more params (closing :: rest)) (closes : closing.kind = .rightParen) :
      DerivesHeader (token :: opening :: more) rest

/-- At least one parameter, and a closing parenthesis. -/
def someParams : Forms :=
  fun tokens rest => ∃ names closing, closing.kind = .rightParen ∧
    DerivesNames tokens names (closing :: rest)

instance : someParams.Starts :=
  ⟨[⟨.identifier, some (.text ""), .zero⟩, ⟨.rightParen, none, .zero⟩], fun _ =>
    ⟨[""], _, rfl, .last _ rfl⟩⟩

instance : Forms.Starts DerivesHeader :=
  ⟨[⟨.identifier, some (.text ""), .zero⟩, ⟨.leftParen, none, .zero⟩, ⟨.rightParen, none, .zero⟩],
    fun rest => @DerivesHeader.empty _ _ _ "" rest rfl rfl rfl⟩

/-- What reading parameters takes is a list of parameters, or can be completed to one. -/
theorem predictive_params (final : Token) (bound : Nat) :
    Predictive params someParams final bound := by
  induction bound using Nat.strongRecOn with
  | _ bound smaller =>
      rw [params_eq]
      refine ((predictive_named _).andThen (accept_eats _ _) fun _ less isLess =>
        Predictive.choose
          ((predictive_ofKind _ _).andStill fun _ => predictive_done _)
          ((predictive_ofKind _ _).andThen (accept_eats _ _) fun _ lesser isLesser =>
            (smaller lesser (by omega)).andStill fun _ => predictive_done _)).mono ?_
      rintro tokens rest ⟨_, ⟨token, name, isName, rfl⟩, ⟨_, ⟨closing, closes, rfl⟩, rfl⟩ |
        ⟨_, ⟨comma, isComma, rfl⟩, _, ⟨names, closing, closes, others⟩, rfl⟩⟩
      · exact ⟨_, closing, closes, .last _ isName⟩
      · exact ⟨_, closing, closes, .more isName isComma others⟩

/-- A check that takes no tokens is never stuck at one. -/
theorem predictive_ofResult
    {α : Type}
    {result : Except ParseError α}
    {final : Token}
    {bound : Nat}
    (noExpectation : ∀ what found, result ≠ .error (.expected what found)) :
    Predictive (ofResult result) .nothing final bound := by
  cases result with
  | ok value => exact predictive_done value
  | error error =>
      apply predictive_fail
      rintro what found rfl
      exact noExpectation what found rfl

/-- Checking the names of parameters expects no token. -/
theorem ofLocated_ne_expected
    (name : String)
    (span : Span)
    (params : List (String × Span))
    (what : Expectation)
    (found : Token) :
    Prototype.ofLocated name span params ≠ .error (.expected what found) := by
  unfold Prototype.ofLocated
  split <;> simp

/-- Reading a list of parameters takes a closing parenthesis or at least one parameter. -/
theorem predictive_paramList (final : Token) (bound : Nat) :
    Predictive paramList ((Forms.ofKind .rightParen).either someParams) final bound := by
  rw [paramList_eq]
  exact predictive_list _ (predictive_params final bound)

/-- What reading a prototype takes is a header, or can be completed to one. -/
theorem predictive_prototype (final : Token) (bound : Nat) :
    Predictive prototype DerivesHeader final bound := by
  rw [prototype_eq]
  have parameters (callee : Token × String) : Predictive
      (if callee.2 = Prototype.anonymousName then fail (.reservedName callee.2 callee.1.span)
        else (ofKind .leftParen .parameterList).andThen fun _ =>
          paramList.andThen fun params =>
            ofResult (Prototype.ofLocated callee.2 callee.1.span params))
      ((Forms.ofKind .leftParen).andThen
        (((Forms.ofKind .rightParen).either someParams).andThen .nothing)) final bound := by
    split
    · exact predictive_fail (by rintro _ _ ⟨⟩)
    · exact (predictive_ofKind _ _).andStill fun _ =>
        (predictive_paramList final bound).andStill fun _ =>
          predictive_ofResult (ofLocated_ne_expected _ _ _)
  refine ((predictive_named _).andStill parameters).mono ?_
  rintro tokens rest ⟨_, ⟨token, name, isName, rfl⟩, _, ⟨opening, opens, rfl⟩, _,
    ⟨closing, closes, rfl⟩ | ⟨names, closing, closes, derives⟩, rfl⟩
  · exact .empty isName opens closes
  · exact .some isName opens derives closes

/-! ## Blocks -/

/-- The blocks. -/
def blocks : Forms :=
  fun tokens rest => ∃ block, DerivesPart anything .block tokens (.block block) rest

/-- The conditionals without their first keyword. -/
def branches : Forms :=
  fun tokens rest => ∀ keyword, ∃ statement,
    DerivesPart anything (.branch keyword) tokens statement rest

/-- What may follow the first arm of a conditional. -/
def tails : Forms :=
  fun tokens rest => ∀ condition arm span, ∃ statement,
    DerivesPart anything (.tail condition arm span) tokens statement rest

instance : blocks.Starts :=
  ⟨[], fun rest => ⟨_, .empty rest⟩⟩

instance : tails.Starts :=
  ⟨[⟨.kwEnd, none, .zero⟩], fun rest _ _ _ => ⟨_, .done rest rfl⟩⟩

/-- A condition, an arm and what comes behind it form a branch. -/
theorem branches_of_parts
    {tokens more middle rest : List Token}
    {opening : Token}
    (decides : expressions tokens (opening :: more))
    (isThen : opening.kind = .kwThen)
    (arm : blocks more middle)
    (others : tails middle rest) :
    branches tokens rest := by
  intro keyword
  obtain ⟨condition, decides⟩ := decides
  obtain ⟨block, derives⟩ := arm
  obtain ⟨statement, tail⟩ := others condition block keyword.span
  exact ⟨statement, .branch decides isThen derives tail⟩

instance : branches.Starts := by
  obtain ⟨more, isExpr⟩ := (inferInstance : expressions.Starts)
  refine ⟨more ++ [⟨.kwThen, none, .zero⟩, ⟨.kwEnd, none, .zero⟩], fun rest => ?_⟩
  rw [List.append_assoc]
  exact branches_of_parts (isExpr _) rfl ⟨_, .empty _⟩ fun _ _ _ => ⟨_, .done rest rfl⟩

/-- The readers of blocks are predictive on lists of at most `bound` tokens. -/
structure BlocksPredictive (final : Token) (bound : Nat) : Prop where
  block : ∀ closing, Predictive (block closing) blocks final bound
  branch : ∀ keyword, Predictive (branch keyword) branches final bound

/-- Behind its keyword a return is complete, or is completed by an expression. -/
theorem predictive_returned (final : Token) (bound : Nat) (closing : Closing) (keyword : Token) :
    Predictive (returned closing keyword) (Forms.nothing.either expressions) final bound := by
  rw [returned_eq]
  refine (Predictive.choose (predictive_done _)
    ((predictive_expression final bound).andStill fun _ => predictive_done _)).mono ?_
  rintro tokens rest (isNothing | ⟨_, isExpr, rfl⟩)
  · exact .inl isNothing
  · exact .inr isExpr

/-- What reading a block or a branch takes is one, or can be completed to one. -/
theorem blocksPredictive (final : Token) (bound : Nat) : BlocksPredictive final bound := by
  induction bound using Nat.strongRecOn with
  | _ bound smaller =>
      have tail (less : Nat) (isLess : less < bound) (condition : Expr) (arm : Block)
          (span : Span) : Predictive (tail condition arm span) tails final less := by
        rw [tail]
        refine (Predictive.choose
          ((predictive_ofKind _ _).andThen (accept_eats _ _) fun keyword lesser isLesser =>
            ((smaller lesser (by omega)).branch keyword).andStill fun _ => predictive_done _)
          (Predictive.choose
            ((predictive_ofKind _ _).andThen (accept_eats _ _) fun _ lesser isLesser =>
              ((smaller lesser (by omega)).block .body).andStill fun _ =>
                (predictive_ofKind _ _).andStill fun _ => predictive_done _)
            ((predictive_ofKind _ _).andStill fun _ => predictive_done _))).mono ?_
        rintro tokens rest (⟨_, ⟨keyword, isElif, rfl⟩, _, isBranch, rfl⟩ |
          ⟨_, ⟨keyword, isElse, rfl⟩, _, ⟨other, derives⟩, _, ⟨closing, isEnd, rfl⟩, rfl⟩ |
          ⟨_, ⟨closing, isEnd, rfl⟩, rfl⟩) condition arm span
        · obtain ⟨other, derives⟩ := isBranch keyword
          exact ⟨_, .elif isElif derives⟩
        · exact ⟨_, .otherwise isElse derives isEnd⟩
        · exact ⟨_, .done _ isEnd⟩
      constructor
      · intro closing
        rw [block_eq]
        refine (Predictive.choose
          ((predictive_ofKind _ _).andStill fun keyword =>
            (predictive_returned final bound closing keyword).andStill fun _ => predictive_done _)
          (Predictive.choose
            (predictive_done _)
            (Predictive.choose
              ((predictive_ofKind _ _).andThen (accept_eats _ _) fun keyword less isLess =>
                ((smaller less isLess).branch keyword).andThen (branch_eats keyword)
                  fun _ lesser isLesser =>
                    ((smaller lesser (by omega)).block closing).andStill fun _ => predictive_done _)
              (Predictive.choose
                (predictive_miss _ : Predictive _ blocks final bound)
                ((predictive_expression final bound).andThen expression_eats fun _ less isLess =>
                  ((smaller less isLess).block closing).andStill fun _ =>
                    predictive_done _))))).mono ?_
        rintro tokens rest (⟨_, ⟨keyword, isReturn, rfl⟩, _, rfl | ⟨expr, derives⟩, rfl⟩ | rfl |
          ⟨_, ⟨keyword, isIf, rfl⟩, _, isBranch, _, ⟨⟨statements, tail⟩, derivesOthers⟩, rfl⟩ |
          isBlock | ⟨_, ⟨expr, derives⟩, _, ⟨⟨statements, tail⟩, derivesOthers⟩, rfl⟩)
        · exact ⟨_, .returnNothing _ isReturn⟩
        · exact ⟨_, .returnValue isReturn derives⟩
        · exact ⟨_, .empty _⟩
        · obtain ⟨statement, derives⟩ := isBranch keyword
          exact ⟨_, .conditional isIf derives derivesOthers⟩
        · exact isBlock
        · exact ⟨_, .expression derives derivesOthers⟩
      · intro keyword
        rw [branch_eq]
        refine ((predictive_expression final bound).andThen expression_eats fun condition less
          isLess => (predictive_ofKind _ _).andThen (accept_eats _ _) fun _ lesser isLesser =>
            ((smaller lesser (by omega)).block .arm).andStill fun arm =>
              tail lesser (by omega) condition arm keyword.span).mono ?_
        rintro tokens rest ⟨_, decides, _, ⟨opening, isThen, rfl⟩, _, isBlock, isTail⟩
        exact branches_of_parts decides isThen isBlock isTail

end Grammar
end ScalarScript
