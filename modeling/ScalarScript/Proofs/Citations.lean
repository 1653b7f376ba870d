import Mathlib.Data.List.Infix
import ScalarScript.Proofs.Readers

/-!
# The tokens that trees and errors point to

The parser makes up no places.  Whatever holds of every token that it is given, and of the mark
of the end of input, holds of the token that an error points to, and every span in a tree is the
span of such a token, which is never a string.  Each kind of step keeps this up, so that it is
true of every reader, and of every program.
-/

namespace ScalarScript

/-! ## Spans of trees -/

/-- Every span in the expression is good. -/
inductive Expr.Located (good : Span → Prop) : Expr → Prop
  | num (value : Float) {span : Span} : good span → Located good (.num value span)
  | var (name : String) {span : Span} : good span → Located good (.var name span)
  | binary (op : Token.Kind) {left right : Expr} {span : Span} :
      Located good left → Located good right → good span →
      Located good (.binary op left right span)
  | call (callee : String) {args : List Expr} {span : Span} :
      (∀ arg ∈ args, Located good arg) → good span → Located good (.call callee args span)

/-- Every span in the return is good. -/
structure Return.Located (good : Span → Prop) (ret : Return) : Prop where
  value : ∀ expr, ret.value = some expr → expr.Located good
  span : good ret.span

mutual

/-- Every span in the statement is good. -/
inductive Stmt.Located (good : Span → Prop) : Stmt → Prop
  | prototype {proto : Prototype} : good proto.span → Stmt.Located good (.prototype proto)
  | function {proto : Prototype} {body : Block} :
      good proto.span → Block.Located good body → Stmt.Located good (.function proto body)
  | block {body : Block} : Block.Located good body → Stmt.Located good (.block body)
  | ret {value : Return} : value.Located good → Stmt.Located good (.ret value)
  | expression {proto : Prototype} {body : Expr} :
      good proto.span → body.Located good → Stmt.Located good (.expression proto body)
  | branch {condition : Expr} {thenBlock : Block} {elseIf : Option Stmt}
      {elseBlock : Option Block} {span : Span} :
      condition.Located good → Block.Located good thenBlock →
      (∀ other, elseIf = some other → Stmt.Located good other) →
      (∀ other, elseBlock = some other → Block.Located good other) → good span →
      Stmt.Located good (.branch condition thenBlock elseIf elseBlock span)

/-- Every span in the block is good. -/
inductive Block.Located (good : Span → Prop) : Block → Prop
  | mk {statements : List Stmt} {tail : Option Return} :
      (∀ statement ∈ statements, Stmt.Located good statement) →
      (∀ value, tail = some value → value.Located good) →
      Block.Located good (.mk statements tail)

end

/-- A part that is missing has no places. -/
theorem good_of_missing
    {α : Type}
    {good : α → Prop}
    (part : α)
    (isPart : none = some part) :
    good part := by
  cases isPart

/-- The place of an expression is one of the places in it. -/
theorem Expr.Located.span
    {good : Span → Prop}
    {expr : Expr}
    (located : expr.Located good) :
    good expr.span := by
  cases located <;> assumption

/-- A statement made of an expression has the places of the expression. -/
theorem Stmt.Located.ofExpr
    {good : Span → Prop}
    {expr : Expr}
    (located : expr.Located good) :
    (Stmt.ofExpr expr).Located good :=
  .expression located.span located

/-- A statement in front of a block adds its own places only. -/
theorem Block.Located.cons
    {good : Span → Prop}
    {statement : Stmt}
    {block : Block}
    (first : statement.Located good)
    (others : block.Located good) :
    (Block.cons statement block).Located good := by
  cases others with
  | mk statements tail => exact .mk (List.forall_mem_cons.2 ⟨first, statements⟩) tail

/-! ## What readers promise -/

section

variable {P : Token → Prop}

/-- The span of a token that is no string. -/
def Cited (P : Token → Prop) (span : Span) : Prop :=
  ∃ token, P token ∧ token.kind ≠ .string ∧ token.span = span

/-- A token of another kind than strings is cited with its span. -/
theorem cited_of_kind
    {token : Token}
    (here : P token)
    {kind : Token.Kind}
    (isKind : token.kind = kind)
    (noString : kind ≠ .string) :
    Cited P token.span :=
  ⟨token, here, isKind ▸ noString, rfl⟩

/-- An operator is no string. -/
theorem cited_of_precedence
    {token : Token}
    (here : P token)
    (joins : token.kind.precedence?.isSome = true) :
    Cited P token.span := by
  refine ⟨token, here, ?_, rfl⟩
  intro isString
  rw [isString] at joins
  cases joins

/-- A name is no string. -/
theorem cited_of_name
    {token : Token}
    (here : P token)
    {name : String}
    (carries : token.name? = some name) :
    Cited P token.span :=
  cited_of_kind here (Token.name?_eq_some_iff.1 carries).1 (by decide)

/-- The error points to a token: the one that was found, or the one with the name at fault. -/
inductive ParseError.Cites (P : Token → Prop) : ParseError → Prop
  | expected (what : Expectation) {found : Token} : P found → Cites P (.expected what found)
  | reservedName (name : String) {span : Span} : Cited P span → Cites P (.reservedName name span)
  | duplicateParameter (param function : String) {span : Span} :
      Cited P span → Cites P (.duplicateParameter param function span)

/-- What is read is good, and what is left is a last part of the tokens; an error points to one of
them. -/
structure Reading.SourcedAt
    {α : Type}
    (P : Token → Prop)
    (good : α → Prop)
    (reading : Reading α)
    (final : Token)
    (tokens : List Token) : Prop where
  error : ∀ error, reading final tokens = .error error → error.Cites P
  read : ∀ value rest, reading final tokens = .ok (value, rest) → good value ∧ rest <:+ tokens

/-- A reading is sourced on lists of at most `bound` tokens of which `P` holds. -/
def Reading.Sourced
    {α : Type}
    (P : Token → Prop)
    (good : α → Prop)
    (reading : Reading α)
    (final : Token)
    (bound : Nat) : Prop :=
  ∀ tokens, tokens.length ≤ bound → (∀ token ∈ tokens, P token) →
    SourcedAt P good reading final tokens

namespace Reading

variable {α β : Type} {good : α → Prop} {final : Token} {bound : Nat}

/-- A value that is given without reading is asked to be good itself. -/
theorem sourced_done
    {value : α}
    (isGood : good value) :
    Sourced P good (done value) final bound := by
  intro tokens _ _
  constructor
  · rintro _ ⟨⟩
  · rintro _ _ ⟨⟩
    exact ⟨isGood, List.suffix_refl tokens⟩

/-- A failure is asked to cite a token. -/
theorem sourced_fail
    {error : ParseError}
    (cites : error.Cites P) :
    Sourced P good (fail error) final bound := by
  intro tokens _ _
  constructor
  · rintro _ ⟨⟩
    exact cites
  · rintro _ _ ⟨⟩

/-- A step that misses something points to the token that is there, or to the end. -/
theorem sourced_miss
    (atEnd : P final)
    (what : Expectation) :
    Sourced P good (miss what) final bound := by
  intro tokens _ here
  constructor
  · rintro _ ⟨⟩
    refine .expected what ?_
    cases tokens with
    | nil => exact atEnd
    | cons token rest => exact here token (.head _)
  · rintro _ _ ⟨⟩

/-- A token that is accepted is one of the tokens read, and one that is not is cited by the failure.
-/
theorem sourced_accept
    {accepted : Token → Option α}
    (atEnd : P final)
    (what : Expectation)
    (makes : ∀ token value, P token → accepted token = some value → good value) :
    Sourced P good (accept accepted what) final bound := by
  intro tokens within here
  constructor
  · intro error failed
    unfold accept at failed
    split at failed
    · exact (sourced_miss atEnd what tokens within here : SourcedAt P good _ _ _).error error failed
    · cases failed
  · intro value rest read
    obtain ⟨token, rfl, isAccepted⟩ := accept_eq_ok_iff.1 read
    exact ⟨makes token value (here token (.head _)) isAccepted, List.suffix_cons token rest⟩

/-- A token that is taken is one that was there. -/
theorem sourced_takeIf
    (atEnd : P final)
    (test : Token.Kind → Bool)
    (what : Expectation) :
    Sourced P (fun token => P token ∧ test token.kind = true) (takeIf test what) final bound := by
  refine sourced_accept atEnd what fun token value here accepted => ?_
  split at accepted
  · rename_i passes
    cases accepted
    exact ⟨here, passes⟩
  · cases accepted

/-- A token of a kind is one of the tokens read. -/
theorem sourced_ofKind
    (atEnd : P final)
    (kind : Token.Kind)
    (what : Expectation) :
    Sourced P (fun token => P token ∧ token.kind = kind) (ofKind kind what) final bound := by
  unfold ofKind
  simpa only [decide_eq_true_eq] using sourced_takeIf atEnd (· = kind) what

/-- A name is cited with the place of its token. -/
theorem sourced_named
    (atEnd : P final)
    (what : Expectation) :
    Sourced P (fun callee => Cited P callee.1.span) (named what) final bound := by
  refine sourced_accept atEnd what fun token value here accepted => ?_
  obtain ⟨name, carries, rfl⟩ := Option.map_eq_some_iff.1 accepted
  exact cited_of_name here carries

/-- A check that reads nothing passes on what is known about its result. -/
theorem sourced_ofResult
    {result : Except ParseError α}
    (fails : ∀ error, result = .error error → error.Cites P)
    (succeeds : ∀ value, result = .ok value → good value) :
    Sourced P good (ofResult result) final bound := by
  cases result with
  | error error => exact sourced_fail (fails error rfl)
  | ok value => exact sourced_done (succeeds value rfl)

/-- Both ways of going on have to keep to the tokens. -/
theorem Sourced.choose
    {test : Bool × Token → Bool}
    {yes no : Reading α}
    (onYes : Sourced P good yes final bound)
    (onNo : Sourced P good no final bound) :
    Sourced P good (choose test yes no) final bound := by
  intro tokens within here
  by_cases holds : test (lookahead final tokens) = true
  · have same : Reading.choose test yes no final tokens = yes final tokens := if_pos holds
    exact ⟨same ▸ (onYes tokens within here).error, same ▸ (onYes tokens within here).read⟩
  · have same : Reading.choose test yes no final tokens = no final tokens := if_neg holds
    exact ⟨same ▸ (onNo tokens within here).error, same ▸ (onNo tokens within here).read⟩

/-- A second reading starts where the first one stops, at tokens that are still among those given.
-/
theorem SourcedAt.andThen
    {tokens : List Token}
    {reading : Reading α}
    {next : α → Reading β}
    {after : β → Prop}
    (first : SourcedAt P good reading final tokens)
    (second : ∀ value rest, reading final tokens = .ok (value, rest) →
      SourcedAt P after (next value) final rest) :
    SourcedAt P after (reading.andThen next) final tokens where
  error := by
    intro error failed
    cases read : reading final tokens with
    | error other =>
        simp only [Reading.andThen, read] at failed
        cases failed
        exact first.error _ read
    | ok pair =>
        simp only [Reading.andThen, read] at failed
        exact (second _ _ read).error error failed
  read := by
    intro value rest read
    obtain ⟨made, middle, firstRead, secondRead⟩ := andThen_eq_ok_iff.1 read
    obtain ⟨isGood, isSuffix⟩ := (second made middle firstRead).read value rest secondRead
    exact ⟨isGood, isSuffix.trans (first.read made middle firstRead).2⟩

/-- After a reading that takes something, fewer tokens are left. -/
theorem Sourced.andThen
    {reading : Reading α}
    {next : α → Reading β}
    {after : β → Prop}
    (first : Sourced P good reading final bound)
    (eats : reading.Eats)
    (second : ∀ value, good value → ∀ smaller < bound, Sourced P after (next value) final smaller) :
    Sourced P after (reading.andThen next) final bound := by
  intro tokens within here
  refine (first tokens within here).andThen fun value rest read => ?_
  obtain ⟨isGood, isSuffix⟩ := (first tokens within here).read value rest read
  have shorter := eats final tokens value rest read
  exact second value isGood rest.length (by omega) rest (Nat.le_refl _)
    fun token member => here token (isSuffix.subset member)

/-- A reading that may take nothing is followed by one for as many tokens. -/
theorem Sourced.andStill
    {reading : Reading α}
    {next : α → Reading β}
    {after : β → Prop}
    (first : Sourced P good reading final bound)
    (second : ∀ value, good value → Sourced P after (next value) final bound) :
    Sourced P after (reading.andThen next) final bound := by
  intro tokens within here
  refine (first tokens within here).andThen fun value rest read => ?_
  obtain ⟨isGood, isSuffix⟩ := (first tokens within here).read value rest read
  exact second value isGood rest (Nat.le_trans isSuffix.length_le within)
    fun token member => here token (isSuffix.subset member)

end Reading

open Reading

/-! ## Expressions -/

namespace Chain

variable {good : Span → Prop}

/-- Joining waiting operands brings in no places besides those of the operands and operators. -/
theorem settle_located
    (level : Nat)
    {waiting : List (Expr × Token)}
    {operand : Expr}
    (waits : ∀ pair ∈ waiting, pair.1.Located good ∧ good pair.2.span)
    (operandLocated : operand.Located good) :
    (∀ pair ∈ (settle level waiting operand).1, pair.1.Located good ∧ good pair.2.span) ∧
      (settle level waiting operand).2.Located good := by
  induction waiting generalizing operand with
  | nil => exact ⟨by simp [settle], operandLocated⟩
  | cons pair waiting inductionHypothesis =>
      obtain ⟨left, op⟩ := pair
      obtain ⟨leftLocated, opLocated⟩ := waits (left, op) (.head _)
      have others := fun pair member => waits pair (.tail _ member)
      unfold settle
      split
      · exact inductionHypothesis others (.binary op.kind leftLocated operandLocated opLocated)
      · exact ⟨waits, operandLocated⟩

/-- The tree of a chain has the places of its operands and operators. -/
theorem group_located
    {waiting : List (Expr × Token)}
    {operand : Expr}
    {links : List (Token × Expr)}
    (waits : ∀ pair ∈ waiting, pair.1.Located good ∧ good pair.2.span)
    (operandLocated : operand.Located good)
    (linked : ∀ link ∈ links, good link.1.span ∧ link.2.Located good) :
    (group waiting operand links).Located good := by
  induction links generalizing waiting operand with
  | nil => exact (settle_located 0 waits operandLocated).2
  | cons link links inductionHypothesis =>
      obtain ⟨op, next⟩ := link
      obtain ⟨opLocated, nextLocated⟩ := linked (op, next) (.head _)
      obtain ⟨settledWaits, settledLocated⟩ :=
        settle_located (binding op) waits operandLocated
      exact inductionHypothesis
        (List.forall_mem_cons.2 ⟨⟨settledLocated, opLocated⟩, settledWaits⟩) nextLocated
        fun link member => linked link (.tail _ member)

/-- A chain puts no span into its tree that is not in it. -/
theorem tree_located
    {chain : Chain}
    (firstLocated : chain.first.Located good)
    (linked : ∀ link ∈ chain.links, good link.1.span ∧ link.2.Located good) :
    chain.tree.Located good :=
  group_located (List.forall_mem_nil _) firstLocated linked

end Chain

section Readers

variable {final : Token}

/-- The expressions and the operators that are read point to tokens. -/
structure ExprsSourced (P : Token → Prop) (final : Token) (bound : Nat) : Prop where
  primary : Sourced P (Expr.Located (Cited P)) primary final bound
  links : Sourced P (fun links => ∀ link ∈ links, Cited P link.1.span ∧ link.2.Located (Cited P))
    links final bound
  expression : Sourced P (Expr.Located (Cited P)) expression final bound
  moreArguments : Sourced P (fun args => ∀ arg ∈ args, arg.Located (Cited P))
    moreArguments final bound

/-- A list that may be empty: its end comes next, or something is in it. -/
theorem sourced_list
    {α : Type}
    {more : Reading (List α)}
    {good : α → Prop}
    {bound : Nat}
    (atEnd : P final)
    (what : Expectation)
    (sourced : Sourced P (fun values => ∀ value ∈ values, good value) more final bound) :
    Sourced P (fun values => ∀ value ∈ values, good value)
      (choose (comes .rightParen) ((ofKind .rightParen what).andThen fun _ => done []) more)
      final bound :=
  .choose ((sourced_ofKind atEnd _ _).andStill fun _ _ => sourced_done (List.forall_mem_nil _))
    sourced

/-- Each field is proved from those before it and from smaller bounds. -/
theorem exprsSourced (atEnd : P final) (bound : Nat) : ExprsSourced P final bound := by
  induction bound using Nat.strongRecOn with
  | _ bound smaller =>
      have primary : Sourced P (Expr.Located (Cited P)) primary final bound := by
        rw [primary_eq]
        refine .choose ((sourced_ofKind atEnd _ _).andStill fun token isToken => ?_)
          (.choose ((sourced_named atEnd _).andThen (accept_eats _ _)
            fun callee cited less isLess =>
              .choose ((sourced_ofKind atEnd _ _).andThen (accept_eats _ _)
                fun _ _ lesser isLesser => ?_) (sourced_done (.var _ cited)))
          ((sourced_ofKind atEnd _ _).andThen (accept_eats _ _) fun _ _ less isLess =>
            (smaller less isLess).expression.andStill fun inner located =>
              (sourced_ofKind atEnd _ _).andStill fun _ _ => sourced_done located))
        · exact sourced_done (.num _ (cited_of_kind isToken.1 isToken.2 (by decide)))
        · rw [arguments_eq]
          exact (sourced_list atEnd _ (smaller lesser (by omega)).moreArguments).andStill
            fun args located => sourced_done (.call _ located cited)
      have links : Sourced P (fun links => ∀ link ∈ links,
          Cited P link.1.span ∧ link.2.Located (Cited P)) links final bound := by
        rw [links_eq]
        refine .choose ((sourced_takeIf atEnd _ _).andThen (accept_eats _ _)
          fun op isOp less isLess =>
            (smaller less isLess).primary.andThen primary_eats
              fun operand located lesser isLesser =>
                (smaller lesser (by omega)).links.andStill fun others linked => sourced_done ?_)
          (sourced_done (List.forall_mem_nil _))
        exact List.forall_mem_cons.2 ⟨⟨cited_of_precedence isOp.1 isOp.2, located⟩, linked⟩
      have expression : Sourced P (Expr.Located (Cited P)) expression final bound := by
        rw [expression_eq]
        exact primary.andThen primary_eats fun first located less isLess =>
          (smaller less isLess).links.andStill fun others linked =>
            sourced_done (Chain.tree_located located linked)
      refine ⟨primary, links, expression, ?_⟩
      rw [moreArguments_eq]
      refine expression.andThen expression_eats fun argument located less isLess =>
        .choose ((sourced_ofKind atEnd _ _).andStill fun _ _ => sourced_done ?_)
          ((sourced_ofKind atEnd _ _).andThen (accept_eats _ _) fun _ _ lesser isLesser =>
            (smaller lesser (by omega)).moreArguments.andStill fun others othersLocated =>
              sourced_done (List.forall_mem_cons.2 ⟨located, othersLocated⟩))
      simpa using located

/-- Every place in an expression is that of a token. -/
theorem sourced_expression (atEnd : P final) (bound : Nat) :
    Sourced P (Expr.Located (Cited P)) expression final bound :=
  (exprsSourced atEnd bound).expression

/-! ## Prototypes -/

/-- Every parameter has the place of its token. -/
theorem sourced_params (atEnd : P final) (bound : Nat) :
    Sourced P (fun params => ∀ param ∈ params, Cited P param.2) params final bound := by
  induction bound using Nat.strongRecOn with
  | _ bound smaller =>
      rw [params_eq]
      refine (sourced_named atEnd _).andThen (accept_eats _ _) fun param cited less isLess =>
        .choose ((sourced_ofKind atEnd _ _).andStill fun _ _ => sourced_done ?_)
          ((sourced_ofKind atEnd _ _).andThen (accept_eats _ _) fun _ _ lesser isLesser =>
            (smaller lesser (by omega)).andStill fun others othersCited =>
              sourced_done (List.forall_mem_cons.2 ⟨cited, othersCited⟩))
      simpa using cited

/-- A repeated parameter is reported where one of the parameters stands. -/
theorem ofLocated_cites
    {name : String}
    {span : Span}
    (named : Cited P span)
    {params : List (String × Span)}
    (cited : ∀ param ∈ params, Cited P param.2)
    {error : ParseError}
    (refused : Prototype.ofLocated name span params = .error error) :
    error.Cites P := by
  unfold Prototype.ofLocated at refused
  split at refused
  · cases refused
  · rename_i repeated _
    cases refused
    refine .duplicateParameter _ _ ?_
    cases found : params.reverse.find? fun param => param.1 = repeated with
    | none => exact named
    | some param => exact cited param (List.mem_reverse.1 (List.mem_of_find?_eq_some found))

/-- A prototype has the place of the token with its name. -/
theorem sourced_prototype (atEnd : P final) (bound : Nat) :
    Sourced P (fun proto => Cited P proto.span) prototype final bound := by
  rw [prototype_eq]
  refine (sourced_named atEnd _).andStill fun callee cited => ?_
  split
  · exact sourced_fail (.reservedName _ cited)
  · rw [paramList_eq]
    refine (sourced_ofKind atEnd _ _).andStill fun _ _ =>
      (sourced_list atEnd _ (sourced_params atEnd bound)).andStill fun params paramsCited =>
        sourced_ofResult (fun error => ofLocated_cites cited paramsCited) fun proto made => ?_
    rw [((Prototype.ofLocated_eq_ok_iff ..).1 made).2.2]
    exact cited

/-! ## Blocks and statements -/

/-- A return has the place of its keyword, and those of its value. -/
theorem sourced_returned
    (atEnd : P final)
    (bound : Nat)
    {keyword : Token}
    (cited : Cited P keyword.span)
    (closing : Closing) :
    Sourced P (Return.Located (Cited P)) (returned closing keyword) final bound := by
  rw [returned_eq]
  refine .choose (sourced_done ⟨good_of_missing, cited⟩)
    ((sourced_expression atEnd bound).andStill fun value located => sourced_done ⟨?_, cited⟩)
  rintro _ ⟨⟩
  exact located

/-- The blocks and the conditionals that are read point to tokens. -/
structure BlocksSourced (P : Token → Prop) (final : Token) (bound : Nat) : Prop where
  block : ∀ closing, Sourced P (Block.Located (Cited P)) (block closing) final bound
  branch : ∀ keyword : Token, Cited P keyword.span →
    Sourced P (Stmt.Located (Cited P)) (branch keyword) final bound

/-- Every place in a block or a branch is that of a token. -/
theorem blocksSourced (atEnd : P final) (bound : Nat) : BlocksSourced P final bound := by
  induction bound using Nat.strongRecOn with
  | _ bound smaller =>
      have tail (less : Nat) (isLess : less < bound) {condition : Expr} {arm : Block} {span : Span}
          (decides : condition.Located (Cited P)) (armLocated : arm.Located (Cited P))
          (cited : Cited P span) :
          Sourced P (Stmt.Located (Cited P)) (tail condition arm span) final less := by
        rw [Reading.tail]
        refine .choose
          ((sourced_ofKind atEnd _ _).andThen (accept_eats _ _) fun next isNext lesser isLesser =>
            ((smaller lesser (by omega)).branch next
              (cited_of_kind isNext.1 isNext.2 (by decide))).andStill fun other located =>
                sourced_done (.branch decides armLocated ?_ good_of_missing cited))
          (.choose
            ((sourced_ofKind atEnd _ _).andThen (accept_eats _ _) fun _ _ lesser isLesser =>
              ((smaller lesser (by omega)).block .body).andStill fun other located =>
                (sourced_ofKind atEnd _ _).andStill fun _ _ =>
                  sourced_done (.branch decides armLocated good_of_missing ?_ cited))
            ((sourced_ofKind atEnd _ _).andStill fun _ _ =>
              sourced_done (.branch decides armLocated good_of_missing good_of_missing cited)))
        · rintro _ ⟨⟩
          exact located
        · rintro _ ⟨⟩
          exact located
      constructor
      · intro closing
        rw [block_eq]
        refine .choose
          ((sourced_ofKind atEnd _ _).andStill fun keyword isKeyword =>
            (sourced_returned atEnd bound (cited_of_kind isKeyword.1 isKeyword.2 (by decide))
              closing).andStill fun value located =>
                sourced_done (.mk (List.forall_mem_nil _) ?_))
          (.choose (sourced_done (.mk (List.forall_mem_nil _) good_of_missing))
            (.choose
              ((sourced_ofKind atEnd _ _).andThen (accept_eats _ _)
                fun keyword isKeyword less isLess =>
                  ((smaller less isLess).branch keyword
                    (cited_of_kind isKeyword.1 isKeyword.2 (by decide))).andThen
                      (branch_eats keyword) fun statement located lesser isLesser =>
                        ((smaller lesser (by omega)).block closing).andStill
                          fun others othersLocated => sourced_done (.cons located othersLocated))
              (.choose (sourced_miss atEnd _)
                ((sourced_expression atEnd bound).andThen expression_eats
                  fun expr located less isLess =>
                    ((smaller less isLess).block closing).andStill fun others othersLocated =>
                      sourced_done (.cons (.ofExpr located) othersLocated)))))
        rintro _ ⟨⟩
        exact located
      · intro keyword cited
        rw [branch_eq]
        exact (sourced_expression atEnd bound).andThen expression_eats
          fun condition decides less isLess =>
            (sourced_ofKind atEnd _ _).andThen (accept_eats _ _) fun _ _ lesser isLesser =>
              ((smaller lesser (by omega)).block .arm).andStill fun arm armLocated =>
                tail lesser (by omega) decides armLocated cited

/-- Every place in a statement is that of a token. -/
theorem sourced_statement (atEnd : P final) (bound : Nat) :
    Sourced P (Stmt.Located (Cited P)) statement final bound := by
  rw [statement_eq]
  exact .choose
    ((sourced_ofKind atEnd _ _).andStill fun _ _ =>
      (sourced_prototype atEnd bound).andStill fun proto cited =>
        ((blocksSourced atEnd bound).block .body).andStill fun body located =>
          (sourced_ofKind atEnd _ _).andStill fun _ _ => sourced_done (.function cited located))
    (.choose
      ((sourced_ofKind atEnd _ _).andStill fun _ _ =>
        (sourced_prototype atEnd bound).andStill fun proto cited =>
          sourced_done (.prototype cited))
      ((sourced_expression atEnd bound).andStill fun expr located =>
        sourced_done (.ofExpr located)))

end Readers

/-! ## Programs -/

namespace Parse

/-- The statements that are read one after the other point to tokens, and so does the error that
ends them. -/
theorem ofBody_sources
    {final : Token}
    (atEnd : P final)
    (tokens : List Token)
    (here : ∀ token ∈ tokens, P token) :
    (∀ error, (ofBody final tokens).error = some error → error.Cites P) ∧
      ∀ statement ∈ (ofBody final tokens).statements, statement.Located (Cited P) := by
  cases tokens with
  | nil =>
      rw [ofBody]
      exact ⟨by rintro _ ⟨⟩, List.forall_mem_nil _⟩
  | cons token rest =>
      have sourced := sourced_statement atEnd _ (token :: rest) (Nat.le_refl _) here
      rw [ofBody]
      split
      · rename_i error firstRead
        refine ⟨?_, List.forall_mem_nil _⟩
        rintro _ ⟨⟩
        exact sourced.error error (by simp [statement, firstRead, Except.map])
      · rename_i parsed firstRead
        have fewer := parsed.fewer
        obtain ⟨located, isSuffix⟩ := sourced.read parsed.value parsed.rest
          (by simp [statement, firstRead, Except.map, Parsed.pair])
        obtain ⟨errors, statements⟩ := ofBody_sources atEnd parsed.rest
          fun other member => here other (isSuffix.subset member)
        exact ⟨errors, List.forall_mem_cons.2 ⟨located, statements⟩⟩
termination_by tokens.length
decreasing_by
  subst_vars
  exact fewer

/-- Whatever holds of the tokens of a program holds of those that its error points to, or of
those that the spans of its tree are taken from. -/
theorem ofTokens_sources
    {tokens : List Token}
    (atEnd : P (finalOf tokens))
    (here : ∀ token ∈ tokens, P token) :
    (∀ error, (ofTokens tokens).result = .error error → error.Cites P) ∧
      ∀ statements, (ofTokens tokens).result = .ok statements →
        ∀ statement ∈ statements, statement.Located (Cited P) := by
  obtain ⟨errors, located⟩ := ofBody_sources atEnd
    (tokens.takeWhile fun token => token.kind ≠ .eof)
    fun token member => here token ((List.takeWhile_prefix _).subset member)
  unfold result
  split
  · rename_i error stopped
    refine ⟨?_, by rintro _ ⟨⟩⟩
    rintro _ ⟨⟩
    exact errors error stopped
  · refine ⟨by rintro _ ⟨⟩, ?_⟩
    rintro _ ⟨⟩
    exact located

end Parse

end

end ScalarScript
