import ScalarScript.Proofs.ReaderSteps

/-!
# When a reader succeeds

Each reader of the parser is described once by the cases in which it succeeds: what it
takes from the front of the tokens, what it hands to other readers, and what it leaves.
`Yields` states success without the bound that readers carry for termination.  A reader
succeeds when its step form does, and for each step `Reading` says when that is.
-/

namespace ScalarScript

/-- A reader succeeded with a value and left some tokens. -/
def Yields
    {α : Type}
    {bound : Nat}
    (result : Except ParseError (Parsed α bound))
    (value : α)
    (rest : List Token) : Prop :=
  result.map Parsed.pair = .ok (value, rest)

namespace Yields

variable {α : Type} {bound : Nat} {value : α} {rest : List Token}

/-- A result yields its own value and rest only. -/
@[simp] theorem ok_iff (parsed : Parsed α bound) :
    Yields (.ok parsed) value rest ↔ parsed.value = value ∧ parsed.rest = rest := by
  simp [Yields, Except.map, Parsed.pair]

@[simp] theorem not_error (error : ParseError) :
    ¬Yields (.error error : Except ParseError (Parsed α bound)) value rest := by
  simp [Yields, Except.map]

/-- A success comes with the reader's own result. -/
theorem exists_ok
    {result : Except ParseError (Parsed α bound)}
    (yields : Yields result value rest) :
    ∃ parsed, result = .ok parsed ∧ parsed.value = value ∧ parsed.rest = rest := by
  cases result with
  | error error => exact absurd yields (not_error error)
  | ok parsed => exact ⟨parsed, rfl, (ok_iff parsed).1 yields⟩

/-- Something is always taken, up to the slack of the bound. -/
theorem length_lt
    {result : Except ParseError (Parsed α bound)}
    (yields : Yields result value rest) :
    rest.length < bound := by
  obtain ⟨parsed, _, _, rfl⟩ := yields.exists_ok
  exact parsed.fewer

end Yields

open Reading

namespace Expr

/-! ## Expressions -/

/-- The cases in which a primary expression is read. -/
inductive PrimaryRead (final : Token) : List Token → Expr → List Token → Prop
  | number {token : Token} {rest : List Token} :
      token.kind = .number →
      PrimaryRead final (token :: rest) (.num (token.number?.getD 0) token.span) rest
  | name {token : Token} {name : String} {rest : List Token} :
      token.kind = .identifier → token.text? = some name →
      NextAvoids (· = .leftParen) rest →
      PrimaryRead final (token :: rest) (.var name token.span) rest
  | call {token paren : Token} {name : String} {args : List Expr} {more rest : List Token} :
      token.kind = .identifier → token.text? = some name → paren.kind = .leftParen →
      Yields (readArguments final more) args rest →
      PrimaryRead final (token :: paren :: more) (.call name args token.span) rest
  | group {token close : Token} {inner : Expr} {more rest : List Token} :
      token.kind = .leftParen → Yields (readExpr final more) inner (close :: rest) →
      close.kind = .rightParen →
      PrimaryRead final (token :: more) inner rest

/-- The cases in which operators with their right operands are read. -/
inductive LinksRead (final : Token) : List Token → List (Token × Expr) → List Token → Prop
  | stop {rest : List Token} :
      NextAvoids (·.precedence?.isSome = true) rest →
      LinksRead final rest [] rest
  | link {op : Token} {operand : Expr} {links : List (Token × Expr)}
      {more middle rest : List Token} :
      op.kind.precedence?.isSome = true → Yields (readPrimary final more) operand middle →
      Yields (readLinks final middle) links rest →
      LinksRead final (op :: more) ((op, operand) :: links) rest

/-- The cases in which arguments are read, at least one, with the closing parenthesis. -/
inductive MoreArgumentsRead (final : Token) : List Token → List Expr → List Token → Prop
  | last {tokens rest : List Token} {argument : Expr} {close : Token} :
      Yields (readExpr final tokens) argument (close :: rest) → close.kind = .rightParen →
      MoreArgumentsRead final tokens [argument] rest
  | more {tokens middle rest : List Token} {argument : Expr} {others : List Expr}
      {comma : Token} :
      Yields (readExpr final tokens) argument (comma :: middle) → comma.kind = .comma →
      Yields (readMoreArguments final middle) others rest →
      MoreArgumentsRead final tokens (argument :: others) rest

/-- The cases in which the arguments of a call are read, with the closing parenthesis. -/
inductive ArgumentsRead (final : Token) : List Token → List Expr → List Token → Prop
  | none {close : Token} {rest : List Token} :
      close.kind = .rightParen → ArgumentsRead final (close :: rest) [] rest
  | some {tokens rest : List Token} {args : List Expr} :
      NextAvoids (· = .rightParen) tokens →
      Yields (readMoreArguments final tokens) args rest →
      ArgumentsRead final tokens args rest

/-- Reading an operand has exactly the outcomes of `PrimaryRead`. -/
theorem readPrimary_yields_iff
    (final : Token)
    (tokens rest : List Token)
    (expr : Expr) :
    Yields (readPrimary final tokens) expr rest ↔ PrimaryRead final tokens expr rest := by
  change primary final tokens = .ok (expr, rest) ↔ _
  rw [primary_eq]
  simp only [choose_eq_ok_iff, andThen_eq_ok_iff, ofKind_eq_ok_iff, named_eq_ok_iff,
    done_eq_ok_iff]
  constructor
  · rintro (⟨_, token, _, ⟨rfl, isNumber⟩, rfl, rfl⟩ |
      ⟨_, ⟨_, callee, more, ⟨rfl, isName⟩, called⟩ |
      ⟨_, opening, more, ⟨rfl, opens⟩, inner, _, innerRead, closing, _, ⟨rfl, closes⟩, rfl, rfl⟩⟩)
    · exact .number isNumber
    · obtain ⟨isIdentifier, carries⟩ := Token.name?_eq_some_iff.1 isName
      rcases called with ⟨_, opening, _, ⟨rfl, opens⟩, args, _, argsRead, rfl, rfl⟩ |
        ⟨noParen, rfl, rfl⟩
      · exact .call isIdentifier carries opens argsRead
      · exact .name isIdentifier carries (comes_eq_false_iff.1 noParen)
    · exact .group opens innerRead closes
  · intro read
    cases read with
    | number isNumber => exact .inl ⟨by simp [isNumber], _, _, ⟨rfl, isNumber⟩, rfl, rfl⟩
    | name isIdentifier carries notParen =>
        have isName := Token.name?_eq_some_iff.2 ⟨isIdentifier, carries⟩
        exact .inr ⟨by simp [isIdentifier], .inl ⟨by simp [isIdentifier], (_, _), _, ⟨rfl, isName⟩,
          .inr ⟨comes_eq_false_iff.2 notParen, rfl, rfl⟩⟩⟩
    | call isIdentifier carries opens argsRead =>
        have isName := Token.name?_eq_some_iff.2 ⟨isIdentifier, carries⟩
        exact .inr ⟨by simp [isIdentifier], .inl ⟨by simp [isIdentifier], (_, _), _, ⟨rfl, isName⟩,
          .inl ⟨by simp [opens], _, _, ⟨rfl, opens⟩, _, _, argsRead, rfl, rfl⟩⟩⟩
    | group opens innerRead closes =>
        exact .inr ⟨by simp [opens], .inr ⟨by simp [opens], _, _, ⟨rfl, opens⟩, _, _, innerRead,
          _, _, ⟨rfl, closes⟩, rfl, rfl⟩⟩

/-- Reading links has exactly the outcomes of `LinksRead`. -/
theorem readLinks_yields_iff
    (final : Token)
    (tokens rest : List Token)
    (links : List (Token × Expr)) :
    Yields (readLinks final tokens) links rest ↔ LinksRead final tokens links rest := by
  change Reading.links final tokens = .ok (links, rest) ↔ _
  rw [links_eq]
  simp only [choose_eq_ok_iff, andThen_eq_ok_iff, takeIf_eq_ok_iff, done_eq_ok_iff]
  constructor
  · rintro (⟨_, op, _, ⟨rfl, joins⟩, operand, _, operandRead, others, _, othersRead, rfl, rfl⟩ |
      ⟨stops, rfl, rfl⟩)
    · exact .link joins operandRead othersRead
    · exact .stop (nextIs_eq_false_iff.1 stops)
  · intro read
    cases read with
    | stop avoids => exact .inr ⟨nextIs_eq_false_iff.2 avoids, rfl, rfl⟩
    | link joins operandRead othersRead =>
        exact .inl ⟨by simp [joins], _, _, ⟨rfl, joins⟩, _, _, operandRead, _, _, othersRead,
          rfl, rfl⟩

/-- An expression is read as an operand and links, which are grouped into a tree. -/
theorem readExpr_yields_iff
    (final : Token)
    (tokens rest : List Token)
    (expr : Expr) :
    Yields (readExpr final tokens) expr rest ↔
      ∃ first links middle, Yields (readPrimary final tokens) first middle ∧
        Yields (readLinks final middle) links rest ∧ expr = Chain.tree ⟨first, links⟩ := by
  change expression final tokens = .ok (expr, rest) ↔ _
  rw [expression_eq]
  simp only [andThen_eq_ok_iff, done_eq_ok_iff]
  constructor
  · rintro ⟨first, middle, firstRead, links, _, linksRead, rfl, rfl⟩
    exact ⟨first, links, middle, firstRead, linksRead, rfl⟩
  · rintro ⟨first, links, middle, firstRead, linksRead, rfl⟩
    exact ⟨first, middle, firstRead, links, rest, linksRead, rfl, rfl⟩

/-- Reading arguments behind the first parenthesis or a comma has exactly the outcomes of
`MoreArgumentsRead`. -/
theorem readMoreArguments_yields_iff
    (final : Token)
    (tokens rest : List Token)
    (args : List Expr) :
    Yields (readMoreArguments final tokens) args rest ↔
      MoreArgumentsRead final tokens args rest := by
  change moreArguments final tokens = .ok (args, rest) ↔ _
  rw [moreArguments_eq]
  simp only [andThen_eq_ok_iff, choose_eq_ok_iff, ofKind_eq_ok_iff, done_eq_ok_iff]
  constructor
  · rintro ⟨argument, _, argumentRead, ⟨_, closing, _, ⟨rfl, closes⟩, rfl, rfl⟩ |
      ⟨_, comma, _, ⟨rfl, isComma⟩, others, _, othersRead, rfl, rfl⟩⟩
    · exact .last argumentRead closes
    · exact .more argumentRead isComma othersRead
  · intro read
    cases read with
    | last argumentRead closes =>
        exact ⟨_, _, argumentRead, .inl ⟨by simp [closes], _, _, ⟨rfl, closes⟩, rfl, rfl⟩⟩
    | more argumentRead isComma othersRead =>
        exact ⟨_, _, argumentRead,
          .inr ⟨by simp [isComma], _, _, ⟨rfl, isComma⟩, _, _, othersRead, rfl, rfl⟩⟩

/-- Reading a list of arguments has exactly the outcomes of `ArgumentsRead`. -/
theorem readArguments_yields_iff
    (final : Token)
    (tokens rest : List Token)
    (args : List Expr) :
    Yields (readArguments final tokens) args rest ↔ ArgumentsRead final tokens args rest := by
  change arguments final tokens = .ok (args, rest) ↔ _
  rw [arguments_eq]
  simp only [choose_eq_ok_iff, andThen_eq_ok_iff, ofKind_eq_ok_iff, done_eq_ok_iff]
  constructor
  · rintro (⟨_, closing, _, ⟨rfl, closes⟩, rfl, rfl⟩ | ⟨noParen, moreRead⟩)
    · exact .none closes
    · exact .some (comes_eq_false_iff.1 noParen) moreRead
  · intro read
    cases read with
    | none closes => exact .inl ⟨by simp [closes], _, _, ⟨rfl, closes⟩, rfl, rfl⟩
    | some noParen moreRead => exact .inr ⟨comes_eq_false_iff.2 noParen, moreRead⟩

end Expr

/-! ## Prototypes -/

/-- No name is repeated exactly if the names differ from each other and from those seen before. -/
theorem firstRepeat?_eq_none_iff (seen names : List String) :
    firstRepeat? seen names = none ↔ names.Nodup ∧ ∀ name ∈ names, name ∉ seen := by
  constructor
  · exact nodup_of_firstRepeat?_eq_none
  · intro fresh
    induction names generalizing seen with
    | nil => rfl
    | cons name names inductionHypothesis =>
        obtain ⟨distinct, unseen⟩ := fresh
        obtain ⟨absent, othersDistinct⟩ := List.nodup_cons.1 distinct
        rw [firstRepeat?, if_neg (unseen name List.mem_cons_self)]
        apply inductionHypothesis
        refine ⟨othersDistinct, ?_⟩
        intro other member seenBefore
        rcases List.mem_cons.1 seenBefore with rfl | seenBefore
        · exact absent member
        · exact unseen other (List.mem_cons_of_mem _ member) seenBefore

namespace Prototype

/-- A prototype is made of the name and of the parameters that were read, in their order. -/
theorem ofLocated_eq_ok_iff
    (name : String)
    (span : Span)
    (params : List (String × Span))
    (proto : Prototype) :
    ofLocated name span params = .ok proto ↔
      proto.name = name ∧ proto.params = params.map Prod.fst ∧ proto.span = span := by
  unfold ofLocated make
  constructor
  · intro made
    split at made
    · rename_i other otherMade
      split at otherMade
      · simp at otherMade
      · cases otherMade
        cases made
        exact ⟨rfl, rfl, rfl⟩
    · simp at made
  · obtain ⟨protoName, protoParams, protoSpan, distinct⟩ := proto
    rintro ⟨rfl, rfl, rfl⟩
    have fresh : firstRepeat? [] (params.map Prod.fst) = none :=
      (firstRepeat?_eq_none_iff _ _).2 ⟨distinct, by simp⟩
    split
    · rename_i other otherMade
      split at otherMade
      · simp at otherMade
      · cases otherMade
        rfl
    · rename_i repeated notMade
      split at notMade
      · rename_i found
        rw [fresh] at found
        cases found
      · simp at notMade

/-- The cases in which parameters are read, at least one, with the closing parenthesis. -/
inductive ParamsRead (final : Token) :
    List Token → List (String × Span) → List Token → Prop
  | last {token close : Token} {name : String} {rest : List Token} :
      token.name? = some name → close.kind = .rightParen →
      ParamsRead final (token :: close :: rest) [(name, token.span)] rest
  | more {token comma : Token} {name : String} {others : List (String × Span)}
      {middle rest : List Token} :
      token.name? = some name → comma.kind = .comma →
      Yields (readParams final middle) others rest →
      ParamsRead final (token :: comma :: middle) ((name, token.span) :: others) rest

/-- The cases in which a parameter list is read, with the closing parenthesis. -/
inductive ParamListRead (final : Token) :
    List Token → List (String × Span) → List Token → Prop
  | none {close : Token} {rest : List Token} :
      close.kind = .rightParen → ParamListRead final (close :: rest) [] rest
  | some {tokens rest : List Token} {params : List (String × Span)} :
      NextAvoids (· = .rightParen) tokens → Yields (readParams final tokens) params rest →
      ParamListRead final tokens params rest

/-- Reading parameters has exactly the outcomes of `ParamsRead`. -/
theorem readParams_yields_iff
    (final : Token)
    (tokens rest : List Token)
    (params : List (String × Span)) :
    Yields (readParams final tokens) params rest ↔ ParamsRead final tokens params rest := by
  change Reading.params final tokens = .ok (params, rest) ↔ _
  rw [params_eq]
  simp only [andThen_eq_ok_iff, choose_eq_ok_iff, named_eq_ok_iff, ofKind_eq_ok_iff,
    done_eq_ok_iff]
  constructor
  · rintro ⟨param, _, ⟨rfl, isName⟩, ⟨_, closing, _, ⟨rfl, closes⟩, rfl, rfl⟩ |
      ⟨_, comma, _, ⟨rfl, isComma⟩, others, _, othersRead, rfl, rfl⟩⟩
    · exact .last isName closes
    · exact .more isName isComma othersRead
  · intro read
    cases read with
    | last isName closes =>
        exact ⟨(_, _), _, ⟨rfl, isName⟩, .inl ⟨by simp [closes], _, _, ⟨rfl, closes⟩, rfl, rfl⟩⟩
    | more isName isComma othersRead =>
        exact ⟨(_, _), _, ⟨rfl, isName⟩,
          .inr ⟨by simp [isComma], _, _, ⟨rfl, isComma⟩, _, _, othersRead, rfl, rfl⟩⟩

/-- Reading a list of parameters has exactly the outcomes of `ParamListRead`. -/
theorem readParamList_yields_iff
    (final : Token)
    (tokens rest : List Token)
    (params : List (String × Span)) :
    Yields (readParamList final tokens) params rest ↔
      ParamListRead final tokens params rest := by
  change paramList final tokens = .ok (params, rest) ↔ _
  rw [paramList_eq]
  simp only [choose_eq_ok_iff, andThen_eq_ok_iff, ofKind_eq_ok_iff, done_eq_ok_iff]
  constructor
  · rintro (⟨_, closing, _, ⟨rfl, closes⟩, rfl, rfl⟩ | ⟨noParen, paramsRead⟩)
    · exact .none closes
    · exact .some (comes_eq_false_iff.1 noParen) paramsRead
  · intro read
    cases read with
    | none closes => exact .inl ⟨by simp [closes], _, _, ⟨rfl, closes⟩, rfl, rfl⟩
    | some noParen paramsRead => exact .inr ⟨comes_eq_false_iff.2 noParen, paramsRead⟩

/-- A prototype is read as a name that is not reserved, a parenthesis and parameters. -/
theorem read_yields_iff
    (final : Token)
    (tokens rest : List Token)
    (proto : Prototype) :
    Yields (read final tokens) proto rest ↔
      ∃ token paren more params, tokens = token :: paren :: more ∧
        token.name? = some proto.name ∧ proto.name ≠ anonymousName ∧
        paren.kind = .leftParen ∧ Yields (readParamList final more) params rest ∧
        proto.params = params.map Prod.fst ∧ proto.span = token.span := by
  change prototype final tokens = .ok (proto, rest) ↔ _
  rw [prototype_eq]
  simp only [andThen_eq_ok_iff, named_eq_ok_iff]
  constructor
  · rintro ⟨⟨token, name⟩, more, ⟨rfl, isName⟩, goesOn⟩
    by_cases reserved : name = anonymousName
    · simp [reserved] at goesOn
    · simp only [reserved, if_false, andThen_eq_ok_iff, ofKind_eq_ok_iff,
        ofResult_eq_ok_iff] at goesOn
      obtain ⟨paren, more, ⟨rfl, opens⟩, params, _, paramsRead, made, rfl⟩ := goesOn
      obtain ⟨rfl, sameParams, sameSpan⟩ := (ofLocated_eq_ok_iff ..).1 made
      exact ⟨token, paren, more, params, rfl, isName, reserved, opens, paramsRead, sameParams,
        sameSpan⟩
  · rintro ⟨token, paren, more, params, rfl, isName, allowed, opens, paramsRead, sameParams,
      sameSpan⟩
    have made := (ofLocated_eq_ok_iff proto.name token.span params proto).2
      ⟨rfl, sameParams, sameSpan⟩
    refine ⟨(token, proto.name), paren :: more, ⟨rfl, isName⟩, ?_⟩
    simp only [allowed, if_false, andThen_eq_ok_iff, ofKind_eq_ok_iff, ofResult_eq_ok_iff]
    exact ⟨paren, more, ⟨rfl, opens⟩, params, rest, paramsRead, made, rfl⟩

end Prototype

/-! ## Blocks -/

/-- A block is closed by one of three keywords. -/
theorem closes_cases
    {closing : Closing}
    {kind : Token.Kind}
    (closes : closing.closes kind = true) :
    kind = .kwElif ∨ kind = .kwElse ∨ kind = .kwEnd := by
  cases closing with
  | body => exact Or.inr (Or.inr (by simpa [Closing.closes, Closing.kinds] using closes))
  | arm => simpa [Closing.closes, Closing.kinds] using closes

/-- No token both closes a block and begins an expression. -/
theorem not_closes_of_begins
    (closing : Closing)
    {kind : Token.Kind}
    (begins : kind = .number ∨ kind = .identifier ∨ kind = .leftParen) :
    closing.closes kind = false := by
  cases closes : closing.closes kind with
  | false => rfl
  | true => rcases closes_cases closes with rfl | rfl | rfl <;> simp at begins

/-- A return is read with a value exactly if its block does not close right behind the keyword. -/
theorem Return.read_yields_iff
    (final : Token)
    (closing : Closing)
    (keyword : Token)
    (tokens rest : List Token)
    (value : Return) :
    Yields (Return.read final closing keyword tokens) value rest ↔
      (closing.closes (nextToken final tokens).kind = true ∧ tokens = rest ∧
          value = ⟨none, keyword.span⟩) ∨
        (closing.closes (nextToken final tokens).kind = false ∧
          ∃ expr, Yields (Expr.readExpr final tokens) expr rest ∧
            value = ⟨some expr, keyword.span⟩) := by
  change returned closing keyword final tokens = .ok (value, rest) ↔ _
  rw [returned_eq]
  simp only [choose_eq_ok_iff, andThen_eq_ok_iff, done_eq_ok_iff]
  constructor
  · rintro (⟨closes, rfl, rfl⟩ | ⟨staysOpen, expr, _, exprRead, rfl, rfl⟩)
    · exact .inl ⟨closes, rfl, rfl⟩
    · exact .inr ⟨staysOpen, expr, exprRead, rfl⟩
  · rintro (⟨closes, rfl, rfl⟩ | ⟨staysOpen, expr, exprRead, rfl⟩)
    · exact .inl ⟨closes, rfl, rfl⟩
    · exact .inr ⟨staysOpen, expr, rest, exprRead, rfl, rfl⟩

namespace Block

/-- The cases in which a block is read up to its closing token. -/
inductive BlockRead (final : Token) (closing : Closing) :
    List Token → Block → List Token → Prop
  | ret {token : Token} {value : Return} {more rest : List Token} :
      token.kind = .kwReturn → Yields (Return.read final closing token more) value rest →
      BlockRead final closing (token :: more) (.mk [] (some value)) rest
  | close {token : Token} {more : List Token} :
      token.kind ≠ .kwReturn → closing.closes token.kind = true →
      BlockRead final closing (token :: more) (.mk [] none) (token :: more)
  | branch {token : Token} {statement : Stmt} {block : Block} {more middle rest : List Token} :
      token.kind = .kwIf → Yields (readBranch final token more) statement middle →
      Yields (read final closing middle) block rest →
      BlockRead final closing (token :: more) (.cons statement block) rest
  | expression {token : Token} {expr : Expr} {block : Block} {more middle rest : List Token} :
      token.kind ≠ .kwReturn → closing.closes token.kind = false → token.kind ≠ .kwIf →
      Yields (Expr.readExpr final (token :: more)) expr middle →
      Yields (read final closing middle) block rest →
      BlockRead final closing (token :: more) (.cons (.ofExpr expr) block) rest

/-- The cases in which a conditional is read after its first keyword. -/
inductive BranchRead (final keyword : Token) : List Token → Stmt → List Token → Prop
  | elif {tokens afterThen more rest : List Token} {condition : Expr} {arm : Block}
      {other : Stmt} {opening next : Token} :
      Yields (Expr.readExpr final tokens) condition (opening :: afterThen) →
      opening.kind = .kwThen → Yields (read final .arm afterThen) arm (next :: more) →
      next.kind = .kwElif → Yields (readBranch final next more) other rest →
      BranchRead final keyword tokens
        (.branch condition arm (some other) none keyword.span) rest
  | otherwise {tokens afterThen more rest : List Token} {condition : Expr}
      {arm other : Block} {opening next close : Token} :
      Yields (Expr.readExpr final tokens) condition (opening :: afterThen) →
      opening.kind = .kwThen → Yields (read final .arm afterThen) arm (next :: more) →
      next.kind = .kwElse → Yields (read final .body more) other (close :: rest) →
      close.kind = .kwEnd →
      BranchRead final keyword tokens
        (.branch condition arm none (some other) keyword.span) rest
  | done {tokens afterThen rest : List Token} {condition : Expr} {arm : Block}
      {opening next : Token} :
      Yields (Expr.readExpr final tokens) condition (opening :: afterThen) →
      opening.kind = .kwThen → Yields (read final .arm afterThen) arm (next :: rest) →
      next.kind = .kwEnd →
      BranchRead final keyword tokens (.branch condition arm none none keyword.span) rest

/-- Reading a block has exactly the outcomes of `BlockRead`. -/
theorem read_yields_iff
    (final : Token)
    (closing : Closing)
    (tokens rest : List Token)
    (block : Block) :
    Yields (read final closing tokens) block rest ↔
      BlockRead final closing tokens block rest := by
  change Reading.block closing final tokens = .ok (block, rest) ↔ _
  rw [block_eq]
  simp only [choose_eq_ok_iff, andThen_eq_ok_iff, ofKind_eq_ok_iff, done_eq_ok_iff, miss_ne_ok,
    and_false, false_or]
  constructor
  · rintro (⟨_, keyword, _, ⟨rfl, isReturn⟩, value, _, valueRead, rfl, rfl⟩ |
      ⟨noReturn, ⟨closes, rfl, rfl⟩ | ⟨staysOpen, ⟨_, keyword, _, ⟨rfl, isIf⟩, statement, _,
        statementRead, others, _, othersRead, rfl, rfl⟩ |
        ⟨noIf, isMore, expr, _, exprRead, others, _, othersRead, rfl, rfl⟩⟩⟩)
    · exact .ret isReturn valueRead
    · cases tokens with
      | nil => cases closes
      | cons token more => exact .close (by simpa using noReturn) closes
    · exact .branch isIf statementRead othersRead
    · cases tokens with
      | nil => cases isMore
      | cons token more =>
          exact .expression (by simpa using noReturn) staysOpen (by simpa using noIf) exprRead
            othersRead
  · intro read
    cases read with
    | ret isReturn valueRead =>
        exact .inl ⟨by simp [isReturn], _, _, ⟨rfl, isReturn⟩, _, _, valueRead, rfl, rfl⟩
    | close noReturn closes =>
        exact .inr ⟨by simpa using noReturn, .inl ⟨closes, rfl, rfl⟩⟩
    | branch isIf statementRead othersRead =>
        exact .inr ⟨by simp [isIf], .inr ⟨by simp [isIf, closes_kwIf],
          .inl ⟨by simp [isIf], _, _, ⟨rfl, isIf⟩, _, _, statementRead, _, _, othersRead,
            rfl, rfl⟩⟩⟩
    | expression noReturn staysOpen noIf exprRead othersRead =>
        exact .inr ⟨by simpa using noReturn, .inr ⟨staysOpen, .inr ⟨by simpa using noIf, rfl,
          _, _, exprRead, _, _, othersRead, rfl, rfl⟩⟩⟩

/-- Reading a branch has exactly the outcomes of `BranchRead`. -/
theorem readBranch_yields_iff
    (final keyword : Token)
    (tokens rest : List Token)
    (statement : Stmt) :
    Yields (readBranch final keyword tokens) statement rest ↔
      BranchRead final keyword tokens statement rest := by
  change branch keyword final tokens = .ok (statement, rest) ↔ _
  rw [branch_eq]
  simp only [Reading.tail, choose_eq_ok_iff, andThen_eq_ok_iff, ofKind_eq_ok_iff, done_eq_ok_iff]
  constructor
  · rintro ⟨condition, _, conditionRead, opening, _, ⟨rfl, isThen⟩, arm, _, armRead,
      ⟨_, next, _, ⟨rfl, isElif⟩, other, _, otherRead, rfl, rfl⟩ |
      ⟨_, ⟨_, next, _, ⟨rfl, isElse⟩, other, _, otherRead, closing, _, ⟨rfl, isEnd⟩, rfl, rfl⟩ |
        ⟨_, closing, _, ⟨rfl, isEnd⟩, rfl, rfl⟩⟩⟩
    · exact .elif conditionRead isThen armRead isElif otherRead
    · exact .otherwise conditionRead isThen armRead isElse otherRead isEnd
    · exact .done conditionRead isThen armRead isEnd
  · intro read
    cases read with
    | elif conditionRead isThen armRead isElif otherRead =>
        exact ⟨_, _, conditionRead, _, _, ⟨rfl, isThen⟩, _, _, armRead,
          .inl ⟨by simp [isElif], _, _, ⟨rfl, isElif⟩, _, _, otherRead, rfl, rfl⟩⟩
    | otherwise conditionRead isThen armRead isElse otherRead isEnd =>
        exact ⟨_, _, conditionRead, _, _, ⟨rfl, isThen⟩, _, _, armRead,
          .inr ⟨by simp [isElse], .inl ⟨by simp [isElse], _, _, ⟨rfl, isElse⟩, _, _, otherRead,
            _, _, ⟨rfl, isEnd⟩, rfl, rfl⟩⟩⟩
    | done conditionRead isThen armRead isEnd =>
        exact ⟨_, _, conditionRead, _, _, ⟨rfl, isThen⟩, _, _, armRead,
          .inr ⟨by simp [isEnd], .inr ⟨by simp [isEnd], _, _, ⟨rfl, isEnd⟩, rfl, rfl⟩⟩⟩

end Block

/-! ## Programs -/

namespace Stmt

/-- The cases in which a top-level statement is read. -/
inductive StmtRead (final : Token) : List Token → Stmt → List Token → Prop
  | function {token close : Token} {proto : Prototype} {body : Block}
      {more middle rest : List Token} :
      token.kind = .kwDef → Yields (Prototype.read final more) proto middle →
      Yields (Block.read final .body middle) body (close :: rest) → close.kind = .kwEnd →
      StmtRead final (token :: more) (.function proto body) rest
  | prototype {token : Token} {proto : Prototype} {more rest : List Token} :
      token.kind = .kwExtern → Yields (Prototype.read final more) proto rest →
      StmtRead final (token :: more) (.prototype proto) rest
  | expression {tokens rest : List Token} {expr : Expr} :
      NextAvoids (fun kind => kind = .kwDef ∨ kind = .kwExtern) tokens →
      Yields (Expr.readExpr final tokens) expr rest →
      StmtRead final tokens (.ofExpr expr) rest

/-- Reading a statement has exactly the outcomes of `StmtRead`. -/
theorem read_yields_iff
    (final : Token)
    (tokens rest : List Token)
    (statement : Stmt) :
    Yields (read final tokens) statement rest ↔ StmtRead final tokens statement rest := by
  change Reading.statement final tokens = .ok (statement, rest) ↔ _
  rw [statement_eq]
  simp only [choose_eq_ok_iff, andThen_eq_ok_iff, ofKind_eq_ok_iff, done_eq_ok_iff]
  constructor
  · rintro (⟨_, keyword, _, ⟨rfl, isDef⟩, proto, _, protoRead, body, _, bodyRead, closing, _,
      ⟨rfl, isEnd⟩, rfl, rfl⟩ | ⟨noDef, ⟨_, keyword, _, ⟨rfl, isExtern⟩, proto, _, protoRead,
        rfl, rfl⟩ | ⟨noExtern, expr, _, exprRead, rfl, rfl⟩⟩)
    · exact .function isDef protoRead bodyRead isEnd
    · exact .prototype isExtern protoRead
    · refine .expression ?_ exprRead
      rintro next isNext (isDef | isExtern)
      · exact comes_eq_false_iff.1 noDef next isNext isDef
      · exact comes_eq_false_iff.1 noExtern next isNext isExtern
  · intro read
    cases read with
    | function isDef protoRead bodyRead isEnd =>
        exact .inl ⟨by simp [isDef], _, _, ⟨rfl, isDef⟩, _, _, protoRead, _, _, bodyRead, _, _,
          ⟨rfl, isEnd⟩, rfl, rfl⟩
    | prototype isExtern protoRead =>
        exact .inr ⟨by simp [isExtern], .inl ⟨by simp [isExtern], _, _, ⟨rfl, isExtern⟩, _, _,
          protoRead, rfl, rfl⟩⟩
    | expression avoids exprRead =>
        have noDef : NextAvoids (· = .kwDef) tokens :=
          fun next isNext isDef => avoids next isNext (.inl isDef)
        have noExtern : NextAvoids (· = .kwExtern) tokens :=
          fun next isNext isExtern => avoids next isNext (.inr isExtern)
        exact .inr ⟨comes_eq_false_iff.2 noDef,
          .inr ⟨comes_eq_false_iff.2 noExtern, _, _, exprRead, rfl, rfl⟩⟩

end Stmt

namespace Parse

/-- The cases in which all tokens are read as a program. -/
inductive ProgramRead (final : Token) : List Token → List Stmt → Prop
  | nil : ProgramRead final [] []
  | cons {token : Token} {more rest : List Token} {statement : Stmt}
      {statements : List Stmt} :
      Yields (Stmt.read final (token :: more)) statement rest →
      ProgramRead final rest statements →
      ProgramRead final (token :: more) (statement :: statements)

/-- Reading a program has exactly the outcomes of `ProgramRead`. -/
theorem ofBody_eq_ok_iff
    (final : Token)
    (tokens : List Token)
    (statements : List Stmt) :
    (ofBody final tokens).result = .ok statements ↔ ProgramRead final tokens statements := by
  constructor
  · intro succeeded
    induction bound : tokens.length using Nat.strongRecOn generalizing tokens statements with
    | _ bound inductionHypothesis =>
        subst bound
        cases tokens with
        | nil =>
            rw [ofBody] at succeeded
            cases succeeded
            exact .nil
        | cons token more =>
            rw [ofBody] at succeeded
            split at succeeded
            · cases succeeded
            · rename_i statement statementRead
              cases failure : (ofBody final statement.rest).error with
              | some error => simp [result, failure] at succeeded
              | none =>
                  simp only [result, failure] at succeeded
                  cases succeeded
                  have statementYields : Yields (Stmt.read final (token :: more))
                      statement.value statement.rest := by simp [statementRead]
                  refine .cons statementYields ?_
                  apply inductionHypothesis statement.rest.length statement.fewer
                  · simp [result, failure]
                  · rfl
  · intro read
    induction read with
    | nil => rw [ofBody]; rfl
    | cons statementRead _ inductionHypothesis =>
        obtain ⟨statement, statementOk, rfl, rfl⟩ := statementRead.exists_ok
        rw [ofBody]
        simp only [statementOk]
        cases failure : (ofBody final statement.rest).error with
        | some error => simp [result, failure] at inductionHypothesis
        | none =>
            simp only [result, failure, Except.ok.injEq] at inductionHypothesis
            simp [result, inductionHypothesis]

end Parse
end ScalarScript
