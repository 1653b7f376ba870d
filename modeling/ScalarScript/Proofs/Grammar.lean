import ScalarScript.Proofs.Layers
import ScalarScript.Proofs.Readers

/-!
# The grammar

Phrases are derived from the front of a list of tokens, together with their trees; a derivation
names the tokens that it leaves.  The rules say nothing about how a phrase is found.  They leave
one choice open: a name in front of a parenthesis may be a variable, with the parenthesis as the
beginning of the next expression, or a callee.  Derivations are therefore stated for a condition
on what may follow a variable: `anything` gives the grammar as it is, and `noParen` the
derivations in which a name in front of a parenthesis is always a callee.
-/

namespace ScalarScript

namespace Grammar

/-- A condition on the tokens that follow a variable. -/
abbrev Follow := List Token → Prop

/-- A variable may stand anywhere. -/
def anything : Follow :=
  fun _ => True

/-- A variable does not stand in front of a parenthesis. -/
def noParen : Follow :=
  NextAvoids (· = .leftParen)

/-- The phrases inside of expressions. -/
inductive Phrase where
  /-- An expression of a layer. -/
  | layer (level : Level)
  /-- Expressions with commas between them, at least one. -/
  | arguments
deriving DecidableEq, Repr

/-- A phrase is derived from the front of some tokens.  An expression has one tree, arguments
have one each. -/
inductive Derives (follow : Follow) : Phrase → List Token → List Expr → List Token → Prop where
  | number {token : Token} {rest : List Token} (isNumber : token.kind = .number) :
      Derives follow (.layer .primary) (token :: rest)
        [.num (token.number?.getD 0) token.span] rest
  | name {token : Token} {name : String} {rest : List Token}
      (isName : token.name? = some name) (follows : follow rest) :
      Derives follow (.layer .primary) (token :: rest) [.var name token.span] rest
  | callEmpty {token opening closing : Token} {name : String} {rest : List Token}
      (isName : token.name? = some name) (opens : opening.kind = .leftParen)
      (closes : closing.kind = .rightParen) :
      Derives follow (.layer .primary) (token :: opening :: closing :: rest)
        [.call name [] token.span] rest
  | call {token opening closing : Token} {name : String} {args : List Expr}
      {more rest : List Token}
      (isName : token.name? = some name) (opens : opening.kind = .leftParen)
      (arguments : Derives follow .arguments more args (closing :: rest))
      (closes : closing.kind = .rightParen) :
      Derives follow (.layer .primary) (token :: opening :: more)
        [.call name args token.span] rest
  | group {opening closing : Token} {expr : Expr} {more rest : List Token}
      (opens : opening.kind = .leftParen)
      (inner : Derives follow (.layer .comparison) more [expr] (closing :: rest))
      (closes : closing.kind = .rightParen) :
      Derives follow (.layer .primary) (opening :: more) [expr] rest
  | ascend {level next : Level} {expr : Expr} {tokens rest : List Token}
      (isNext : level.tighter? = some next)
      (derives : Derives follow (.layer next) tokens [expr] rest) :
      Derives follow (.layer level) tokens [expr] rest
  | joined {level next : Level} {op : Token} {left right : Expr} {tokens middle rest : List Token}
      (isNext : level.tighter? = some next) (member : op.kind ∈ level.operators)
      (derivesLeft : Derives follow (.layer level) tokens [left] (op :: middle))
      (derivesRight : Derives follow (.layer next) middle [right] rest) :
      Derives follow (.layer level) tokens [.binary op.kind left right op.span] rest
  | last {expr : Expr} {tokens rest : List Token}
      (derives : Derives follow (.layer .comparison) tokens [expr] rest) :
      Derives follow .arguments tokens [expr] rest
  | more {expr : Expr} {args : List Expr} {comma : Token} {tokens middle rest : List Token}
      (derives : Derives follow (.layer .comparison) tokens [expr] (comma :: middle))
      (isComma : comma.kind = .comma) (others : Derives follow .arguments middle args rest) :
      Derives follow .arguments tokens (expr :: args) rest

/-- An expression is derived from the front of some tokens. -/
abbrev DerivesExpr (follow : Follow) (tokens : List Token) (expr : Expr) (rest : List Token) :
    Prop :=
  Derives follow (.layer .comparison) tokens [expr] rest

/-- An expression that stands as a statement is the body of a function without parameters, under
the name that no prototype may have. -/
def topLevel (expr : Expr) : Stmt :=
  .expression ⟨Prototype.anonymousName, [], expr.span, List.nodup_nil⟩ expr

/-- Names with commas between them, at least one. -/
inductive DerivesNames : List Token → List String → List Token → Prop where
  | last {token : Token} {name : String} (rest : List Token)
      (isName : token.name? = some name) :
      DerivesNames (token :: rest) [name] rest
  | more {token comma : Token} {name : String} {names : List String} {middle rest : List Token}
      (isName : token.name? = some name) (isComma : comma.kind = .comma)
      (others : DerivesNames middle names rest) :
      DerivesNames (token :: comma :: middle) (name :: names) rest

/-- A prototype.  Its parameters are distinct because those of all prototypes are. -/
inductive DerivesPrototype : List Token → Prototype → List Token → Prop where
  | empty {token opening closing : Token} {proto : Prototype} {rest : List Token}
      (isName : token.name? = some proto.name) (allowed : proto.name ≠ Prototype.anonymousName)
      (located : proto.span = token.span) (opens : opening.kind = .leftParen)
      (closes : closing.kind = .rightParen) (noParams : proto.params = []) :
      DerivesPrototype (token :: opening :: closing :: rest) proto rest
  | some {token opening closing : Token} {proto : Prototype} {more rest : List Token}
      (isName : token.name? = some proto.name) (allowed : proto.name ≠ Prototype.anonymousName)
      (located : proto.span = token.span) (opens : opening.kind = .leftParen)
      (params : DerivesNames more proto.params (closing :: rest))
      (closes : closing.kind = .rightParen) :
      DerivesPrototype (token :: opening :: more) proto rest

/-- The phrases inside of functions. -/
inductive Part where
  /-- Conditionals and expressions, perhaps with a return behind them. -/
  | block
  /-- A conditional without its first keyword. -/
  | branch (keyword : Token)
  /-- What follows the first arm of a conditional. -/
  | tail (condition : Expr) (arm : Block) (span : Span)

/-- A part of a function is derived from the front of some tokens.  The tree of a block is the
statement that consists of it; the tree of a tail is the whole conditional. -/
inductive DerivesPart (follow : Follow) : Part → List Token → Stmt → List Token → Prop where
  | empty (rest : List Token) :
      DerivesPart follow .block rest (.block (.mk [] none)) rest
  | returnNothing {token : Token} (rest : List Token) (isReturn : token.kind = .kwReturn) :
      DerivesPart follow .block (token :: rest)
        (.block (.mk [] (some ⟨none, token.span⟩))) rest
  | returnValue {token : Token} {expr : Expr} {more rest : List Token}
      (isReturn : token.kind = .kwReturn) (value : DerivesExpr follow more expr rest) :
      DerivesPart follow .block (token :: more)
        (.block (.mk [] (some ⟨some expr, token.span⟩))) rest
  | conditional {token : Token} {statement : Stmt} {statements : List Stmt} {tail : Option Return}
      {more middle rest : List Token}
      (isIf : token.kind = .kwIf)
      (derives : DerivesPart follow (.branch token) more statement middle)
      (others : DerivesPart follow .block middle (.block (.mk statements tail)) rest) :
      DerivesPart follow .block (token :: more)
        (.block (.mk (statement :: statements) tail)) rest
  | expression {expr : Expr} {statements : List Stmt} {tail : Option Return}
      {tokens middle rest : List Token}
      (derives : DerivesExpr follow tokens expr middle)
      (others : DerivesPart follow .block middle (.block (.mk statements tail)) rest) :
      DerivesPart follow .block tokens
        (.block (.mk (topLevel expr :: statements) tail)) rest
  | branch {keyword opening : Token} {condition : Expr} {arm : Block} {statement : Stmt}
      {tokens more middle rest : List Token}
      (decides : DerivesExpr follow tokens condition (opening :: more))
      (isThen : opening.kind = .kwThen)
      (derives : DerivesPart follow .block more (.block arm) middle)
      (tail : DerivesPart follow (.tail condition arm keyword.span) middle statement rest) :
      DerivesPart follow (.branch keyword) tokens statement rest
  | elif {condition : Expr} {arm : Block} {span : Span} {keyword : Token} {other : Stmt}
      {more rest : List Token}
      (isElif : keyword.kind = .kwElif)
      (derives : DerivesPart follow (.branch keyword) more other rest) :
      DerivesPart follow (.tail condition arm span) (keyword :: more)
        (.branch condition arm (some other) none span) rest
  | otherwise {condition : Expr} {arm other : Block} {span : Span} {keyword closing : Token}
      {more rest : List Token}
      (isElse : keyword.kind = .kwElse)
      (derives : DerivesPart follow .block more (.block other) (closing :: rest))
      (isEnd : closing.kind = .kwEnd) :
      DerivesPart follow (.tail condition arm span) (keyword :: more)
        (.branch condition arm none (some other) span) rest
  | done {condition : Expr} {arm : Block} {span : Span} {closing : Token} (rest : List Token)
      (isEnd : closing.kind = .kwEnd) :
      DerivesPart follow (.tail condition arm span) (closing :: rest)
        (.branch condition arm none none span) rest

/-- A program is derived from all of some tokens. -/
inductive DerivesProgram (follow : Follow) : List Token → List Stmt → Prop where
  | nil : DerivesProgram follow [] []
  | function {token closing : Token} {proto : Prototype} {body : Block} {statements : List Stmt}
      {more middle rest : List Token}
      (isDef : token.kind = .kwDef) (header : DerivesPrototype more proto middle)
      (derives : DerivesPart follow .block middle (.block body) (closing :: rest))
      (isEnd : closing.kind = .kwEnd) (others : DerivesProgram follow rest statements) :
      DerivesProgram follow (token :: more) (.function proto body :: statements)
  | prototype {token : Token} {proto : Prototype} {statements : List Stmt}
      {more rest : List Token}
      (isExtern : token.kind = .kwExtern) (header : DerivesPrototype more proto rest)
      (others : DerivesProgram follow rest statements) :
      DerivesProgram follow (token :: more) (.prototype proto :: statements)
  | expression {expr : Expr} {statements : List Stmt} {tokens rest : List Token}
      (derives : DerivesExpr follow tokens expr rest)
      (others : DerivesProgram follow rest statements) :
      DerivesProgram follow tokens (topLevel expr :: statements)

/-! ## How phrases begin -/

/-- The kinds of token that expressions begin with. -/
def beginnings : List Token.Kind :=
  [.number, .identifier, .leftParen]

/-- Every phrase begins with a token that begins an expression. -/
theorem Derives.begins
    {follow : Follow}
    {phrase : Phrase}
    {tokens rest : List Token}
    {trees : List Expr}
    (derives : Derives follow phrase tokens trees rest) :
    ∃ token more, tokens = token :: more ∧ token.kind ∈ beginnings := by
  induction derives with
  | number isNumber => exact ⟨_, _, rfl, by simp [isNumber, beginnings]⟩
  | name isName _ | callEmpty isName _ _ | call isName _ _ _ =>
      exact ⟨_, _, rfl, by simp [(Token.name?_eq_some_iff.1 isName).1, beginnings]⟩
  | group opens _ _ => exact ⟨_, _, rfl, by simp [opens, beginnings]⟩
  | ascend _ _ inductionHypothesis => exact inductionHypothesis
  | joined _ _ _ _ inductionHypothesis _ => exact inductionHypothesis
  | last _ inductionHypothesis => exact inductionHypothesis
  | more _ _ _ inductionHypothesis _ => exact inductionHypothesis

/-- What begins no expression does not begin a phrase. -/
theorem Derives.avoids
    {follow : Follow}
    {phrase : Phrase}
    {tokens rest : List Token}
    {trees : List Expr}
    (derives : Derives follow phrase tokens trees rest)
    {avoided : Token.Kind → Prop}
    (noBeginning : ∀ kind ∈ beginnings, ¬avoided kind) :
    NextAvoids avoided tokens := by
  obtain ⟨token, more, rfl, begins⟩ := derives.begins
  exact (nextAvoids_cons ..).2 (noBeginning _ begins)

/-- An operator is no parenthesis. -/
theorem noParen_of_joins
    {op : Token}
    (joins : op.kind.precedence?.isSome = true)
    (rest : List Token) :
    noParen (op :: rest) := by
  simp only [noParen, nextAvoids_cons]
  rintro opens
  simp [opens, Token.Kind.precedence?] at joins

/-! ## Expressions as chains -/

/-- Operators with their right operands, as many as there are links. -/
inductive Run (operand : List Token → Expr → List Token → Prop) :
    List Token → List (Token × Expr) → List Token → Prop where
  | nil (rest : List Token) : Run operand rest [] rest
  | cons {op : Token} {expr : Expr} {links : List (Token × Expr)} {more middle rest : List Token}
      (joins : op.kind.precedence?.isSome = true) (found : operand more expr middle)
      (run : Run operand middle links rest) :
      Run operand (op :: more) ((op, expr) :: links) rest

/-- Operands are found from the front of some tokens, with operators between them, and are read
as an expression of a layer. -/
def Chained
    (operand : List Token → Expr → List Token → Prop)
    (level : Level)
    (tokens : List Token)
    (expr : Expr)
    (rest : List Token) : Prop :=
  ∃ first links middle, operand tokens first middle ∧ Run operand middle links rest ∧
    Layered level first links expr

variable {operand : List Token → Expr → List Token → Prop}

/-- The links of a run are joined by operators. -/
theorem Run.joins
    {tokens rest : List Token}
    {links : List (Token × Expr)}
    (run : Run operand tokens links rest) :
    ∀ link ∈ links, link.1.kind.precedence?.isSome = true := by
  induction run with
  | nil => exact nofun
  | cons joins _ _ inductionHypothesis => exact List.forall_mem_cons.2 ⟨joins, inductionHypothesis⟩

/-- A run of links falls apart at any place between two of them. -/
theorem run_append_iff
    {tokens rest : List Token}
    {links others : List (Token × Expr)} :
    Run operand tokens (links ++ others) rest ↔
      ∃ middle, Run operand tokens links middle ∧ Run operand middle others rest := by
  constructor
  · intro run
    induction links generalizing tokens with
    | nil => exact ⟨tokens, .nil tokens, run⟩
    | cons link links inductionHypothesis =>
        cases run with
        | cons joins found run =>
            obtain ⟨middle, front, back⟩ := inductionHypothesis run
            exact ⟨middle, .cons joins found front, back⟩
  · rintro ⟨middle, front, back⟩
    induction front with
    | nil => exact back
    | cons joins found _ inductionHypothesis => exact .cons joins found (inductionHypothesis back)

/-- Chains of two levels and an operator of the lower one form a chain. -/
theorem Chained.joined
    {level next : Level}
    {op : Token}
    {left right : Expr}
    {tokens middle rest : List Token}
    (isNext : level.tighter? = some next)
    (member : op.kind ∈ level.operators)
    (chainedLeft : Chained operand level tokens left (op :: middle))
    (chainedRight : Chained operand next middle right rest) :
    Chained operand level tokens (.binary op.kind left right op.span) rest := by
  obtain ⟨first, links, afterFirst, foundFirst, run, layered⟩ := chainedLeft
  obtain ⟨second, others, afterSecond, foundSecond, otherRun, otherLayered⟩ := chainedRight
  have joins := Level.isSome_precedence?_of_mem_operators member
  exact ⟨first, links ++ (op, second) :: others, afterFirst, foundFirst,
    run_append_iff.2 ⟨_, run, .cons joins foundSecond otherRun⟩,
    .joined isNext member layered otherLayered⟩

/-- More operators and operands make a longer expression. -/
theorem Chained.extend
    {tokens middle rest : List Token}
    {expr : Expr}
    (chained : Chained operand .comparison tokens expr middle)
    {links : List (Token × Expr)}
    (more : Run operand middle links rest) :
    ∃ longer, Chained operand .comparison tokens longer rest := by
  obtain ⟨first, front, afterFirst, found, run, _⟩ := chained
  have all := run_append_iff.2 ⟨middle, run, more⟩
  obtain ⟨longer, layered⟩ := Layered.exists_of_joins first all.joins
  exact ⟨longer, first, _, afterFirst, found, all, layered⟩

/-- The primary expressions that are derived. -/
def DerivesPrimary (follow : Follow) (tokens : List Token) (expr : Expr) (rest : List Token) :
    Prop :=
  Derives follow (.layer .primary) tokens [expr] rest

theorem chained_primary
    {tokens rest : List Token}
    {expr : Expr}
    (found : operand tokens expr rest) :
    Chained operand .primary tokens expr rest :=
  ⟨expr, [], rest, found, .nil rest, .operand expr⟩

/-- A chain of a level is one of the level below it. -/
theorem Chained.ascend
    {level next : Level}
    {tokens rest : List Token}
    {expr : Expr}
    (isNext : level.tighter? = some next)
    (chained : Chained operand next tokens expr rest) :
    Chained operand level tokens expr rest := by
  obtain ⟨first, links, middle, found, run, layered⟩ := chained
  exact ⟨first, links, middle, found, run, .ascend isNext layered⟩

/-- A derived phrase, if it is an expression, is a chain. -/
def ChainedPhrase
    (operand : List Token → Expr → List Token → Prop)
    (tokens : List Token)
    (trees : List Expr)
    (rest : List Token) : Phrase → Prop
  | .layer level => ∃ expr, trees = [expr] ∧ Chained operand level tokens expr rest
  | .arguments => True

/-- What the layers of the grammar derive is a chain of primary expressions. -/
theorem Derives.chained
    {follow : Follow}
    {phrase : Phrase}
    {tokens rest : List Token}
    {trees : List Expr}
    (derives : Derives follow phrase tokens trees rest) :
    ChainedPhrase (DerivesPrimary follow) tokens trees rest phrase := by
  induction derives with
  | number isNumber => exact ⟨_, rfl, chained_primary (.number isNumber)⟩
  | name isName follows => exact ⟨_, rfl, chained_primary (.name isName follows)⟩
  | callEmpty isName opens closes =>
      exact ⟨_, rfl, chained_primary (.callEmpty isName opens closes)⟩
  | call isName opens arguments closes =>
      exact ⟨_, rfl, chained_primary (.call isName opens arguments closes)⟩
  | group opens inner closes => exact ⟨_, rfl, chained_primary (.group opens inner closes)⟩
  | ascend isNext _ inductionHypothesis =>
      obtain ⟨_, ⟨⟩, chained⟩ := inductionHypothesis
      exact ⟨_, rfl, chained.ascend isNext⟩
  | joined isNext member _ _ leftHypothesis rightHypothesis =>
      obtain ⟨_, ⟨⟩, chainedLeft⟩ := leftHypothesis
      obtain ⟨_, ⟨⟩, chainedRight⟩ := rightHypothesis
      exact ⟨_, rfl, chainedLeft.joined isNext member chainedRight⟩
  | last | more => trivial

/-- Expressions of a layer are chains of primary expressions. -/
theorem derives_layer_iff
    {follow : Follow}
    {level : Level}
    {tokens rest : List Token}
    {expr : Expr} :
    Derives follow (.layer level) tokens [expr] rest ↔
      Chained (DerivesPrimary follow) level tokens expr rest := by
  constructor
  · intro derives
    obtain ⟨_, ⟨⟩, chained⟩ := derives.chained
    exact chained
  · rintro ⟨first, links, middle, found, run, layered⟩
    induction layered generalizing tokens middle rest with
    | operand first =>
        cases run with
        | nil => exact found
    | ascend isNext _ inductionHypothesis =>
        exact .ascend isNext (inductionHypothesis _ found run)
    | joined isNext member _ _ leftHypothesis rightHypothesis =>
        obtain ⟨afterLeft, front, back⟩ := run_append_iff.1 run
        cases back with
        | cons _ foundNext back =>
            exact .joined isNext member (leftHypothesis _ found front)
              (rightHypothesis _ foundNext back)

end Grammar
end ScalarScript
