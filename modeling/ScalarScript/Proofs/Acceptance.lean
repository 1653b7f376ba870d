import ScalarScript.Proofs.Derivation

/-!
# The parser accepts its grammar

The parser takes a name in front of a parenthesis for a callee and never goes back on this.  It
loses no program by that.  Where a derivation has a variable in front of a parenthesis, the
parenthesis begins the next expression, and this one begins with a group; the variable and the
group together are a call, and the operators behind the group go on behind the call.
-/

namespace ScalarScript
namespace Grammar

/-! ## Fewer derivations -/

section Weakening

variable {follow weaker : Follow} (weakens : ∀ rest, follow rest → weaker rest)
include weakens

/-- A weaker condition on what follows a name derives no fewer phrases. -/
theorem Derives.mono
    {phrase : Phrase}
    {tokens rest : List Token}
    {trees : List Expr}
    (derives : Derives follow phrase tokens trees rest) :
    Derives weaker phrase tokens trees rest := by
  induction derives with
  | number isNumber => exact .number isNumber
  | name isName follows => exact .name isName (weakens _ follows)
  | callEmpty isName opens closes => exact .callEmpty isName opens closes
  | call isName opens _ closes inductionHypothesis =>
      exact .call isName opens inductionHypothesis closes
  | group opens _ closes inductionHypothesis => exact .group opens inductionHypothesis closes
  | ascend isNext _ inductionHypothesis => exact .ascend isNext inductionHypothesis
  | joined isNext member _ _ leftHypothesis rightHypothesis =>
      exact .joined isNext member leftHypothesis rightHypothesis
  | last _ inductionHypothesis => exact .last inductionHypothesis
  | more _ isComma _ inductionHypothesis othersHypothesis =>
      exact .more inductionHypothesis isComma othersHypothesis

/-- A weaker condition on what follows a name derives no fewer parts. -/
theorem DerivesPart.mono
    {part : Part}
    {tokens rest : List Token}
    {statement : Stmt}
    (derives : DerivesPart follow part tokens statement rest) :
    DerivesPart weaker part tokens statement rest := by
  induction derives with
  | empty rest => exact .empty rest
  | returnNothing rest isReturn => exact .returnNothing rest isReturn
  | returnValue isReturn value => exact .returnValue isReturn (value.mono weakens)
  | conditional isIf _ _ branchHypothesis othersHypothesis =>
      exact .conditional isIf branchHypothesis othersHypothesis
  | expression derives _ othersHypothesis =>
      exact .expression (derives.mono weakens) othersHypothesis
  | branch decides isThen _ _ armHypothesis tailHypothesis =>
      exact .branch (decides.mono weakens) isThen armHypothesis tailHypothesis
  | elif isElif _ branchHypothesis => exact .elif isElif branchHypothesis
  | otherwise isElse _ isEnd blockHypothesis => exact .otherwise isElse blockHypothesis isEnd
  | done rest isEnd => exact .done rest isEnd

/-- A weaker condition on what follows a name derives no fewer programs. -/
theorem DerivesProgram.mono
    {tokens : List Token}
    {statements : List Stmt}
    (derives : DerivesProgram follow tokens statements) :
    DerivesProgram weaker tokens statements := by
  induction derives with
  | nil => exact .nil
  | function isDef header body isEnd _ inductionHypothesis =>
      exact .function isDef header (body.mono weakens) isEnd inductionHypothesis
  | prototype isExtern header _ inductionHypothesis =>
      exact .prototype isExtern header inductionHypothesis
  | expression derives _ inductionHypothesis =>
      exact .expression (derives.mono weakens) inductionHypothesis

end Weakening

/-! ## Variables in front of a parenthesis -/

/-- An expression of a layer ends with a variable in front of a parenthesis: with the group that
the parenthesis begins it is another expression of the layer, which ends with a call. -/
def Dangles (level : Level) (tokens rest : List Token) : Prop :=
  ∃ opening more, rest = opening :: more ∧ opening.kind = .leftParen ∧
    ∀ inner closing after, DerivesExpr noParen more inner (closing :: after) →
      closing.kind = .rightParen → ∃ expr, Derives noParen (.layer level) tokens [expr] after

/-- A phrase dangles in front of an opening parenthesis. -/
theorem Dangles.opens
    {level : Level}
    {tokens rest : List Token}
    (dangles : Dangles level tokens rest) :
    rest.head?.map Token.kind = some .leftParen := by
  obtain ⟨opening, more, rfl, opens, _⟩ := dangles
  simp [opens]

theorem Dangles.not_noParen
    {level : Level}
    {tokens rest : List Token}
    (dangles : Dangles level tokens rest) :
    ¬noParen rest := by
  intro avoids
  obtain ⟨opening, isNext, opens⟩ := Option.map_eq_some_iff.1 dangles.opens
  exact avoids opening isNext opens

/-- What becomes of a derivation in which names in front of parentheses may be variables. -/
def Recovered (tokens rest : List Token) : Phrase → Prop
  | .layer level =>
      (∃ expr, Derives noParen (.layer level) tokens [expr] rest) ∨ Dangles level tokens rest
  | .arguments => noParen rest → ∃ args, Derives noParen .arguments tokens args rest

/-- A phrase that no parenthesis follows is derived without variables in front of parentheses. -/
theorem Recovered.expr
    {level : Level}
    {tokens rest : List Token}
    (recovered : Recovered tokens rest (.layer level))
    (avoids : noParen rest) :
    ∃ expr, Derives noParen (.layer level) tokens [expr] rest :=
  recovered.resolve_right fun dangles => dangles.not_noParen avoids

/-- Every phrase is derived without variables in front of parentheses, or dangles in front of
one. -/
theorem Derives.recovered
    {follow : Follow}
    {phrase : Phrase}
    {tokens rest : List Token}
    {trees : List Expr}
    (derives : Derives follow phrase tokens trees rest) :
    Recovered tokens rest phrase := by
  induction derives with
  | number isNumber => exact .inl ⟨_, .number isNumber⟩
  | @name token name rest isName _ =>
      by_cases avoids : noParen rest
      · exact .inl ⟨_, .name isName avoids⟩
      · obtain ⟨opening, isNext, opens⟩ : ∃ opening ∈ rest.head?, opening.kind = .leftParen := by
          simpa [noParen, NextAvoids] using avoids
        obtain ⟨more, rfl⟩ := List.head?_eq_some_iff.1 isNext
        -- as a callee the name has the group behind it as its only argument
        refine .inr ⟨opening, more, rfl, opens, fun inner closing after derives closes => ?_⟩
        exact ⟨_, .call isName opens (.last derives) closes⟩
  | callEmpty isName opens closes => exact .inl ⟨_, .callEmpty isName opens closes⟩
  | call isName opens _ closes inductionHypothesis =>
      obtain ⟨args, arguments⟩ := inductionHypothesis (by simp [noParen, closes])
      exact .inl ⟨_, .call isName opens arguments closes⟩
  | group opens _ closes inductionHypothesis =>
      obtain ⟨inner, derives⟩ := inductionHypothesis.expr (by simp [noParen, closes])
      exact .inl ⟨_, .group opens derives closes⟩
  | ascend isNext _ inductionHypothesis =>
      rcases inductionHypothesis with ⟨expr, derives⟩ | ⟨opening, more, isRest, opens, swallow⟩
      · exact .inl ⟨expr, .ascend isNext derives⟩
      · refine .inr ⟨opening, more, isRest, opens, fun inner closing after derives closes => ?_⟩
        obtain ⟨expr, derives⟩ := swallow inner closing after derives closes
        exact ⟨expr, .ascend isNext derives⟩
  | joined isNext member _ _ leftHypothesis rightHypothesis =>
      obtain ⟨left, derivesLeft⟩ := leftHypothesis.expr
        (noParen_of_joins (Level.isSome_precedence?_of_mem_operators member) _)
      rcases rightHypothesis with ⟨right, derives⟩ | ⟨opening, more, isRest, opens, swallow⟩
      · exact .inl ⟨_, .joined isNext member derivesLeft derives⟩
      · refine .inr ⟨opening, more, isRest, opens, fun inner closing after derives closes => ?_⟩
        obtain ⟨right, derives⟩ := swallow inner closing after derives closes
        exact ⟨_, .joined isNext member derivesLeft derives⟩
  | last _ inductionHypothesis =>
      intro avoids
      obtain ⟨expr, derives⟩ := inductionHypothesis.expr avoids
      exact ⟨_, .last derives⟩
  | more _ isComma _ inductionHypothesis othersHypothesis =>
      intro avoids
      obtain ⟨expr, derives⟩ := inductionHypothesis.expr (by simp [noParen, isComma])
      obtain ⟨args, others⟩ := othersHypothesis avoids
      exact ⟨_, .more derives isComma others⟩

/-- A primary expression that begins with a parenthesis is a group. -/
theorem Derives.group_of_paren
    {follow : Follow}
    {opening : Token}
    {more rest : List Token}
    {expr : Expr}
    (derives : Derives follow (.layer .primary) (opening :: more) [expr] rest)
    (opens : opening.kind = .leftParen) :
    ∃ closing, closing.kind = .rightParen ∧ DerivesExpr follow more expr (closing :: rest) := by
  cases derives with
  | number isNumber => simp [opens] at isNumber
  | name isName | callEmpty isName | call isName =>
      simp [Token.name?_eq_some_iff, opens] at isName
  | group _ inner closes => exact ⟨_, closes, inner⟩
  | ascend isNext | joined isNext => cases isNext

/-- An expression that ends with a variable goes on with the expression behind it. -/
theorem Dangles.absorb
    {tokens middle rest : List Token}
    (dangles : Dangles .comparison tokens middle)
    {next : Expr}
    (derives : DerivesExpr noParen middle next rest) :
    ∃ expr, DerivesExpr noParen tokens expr rest := by
  obtain ⟨opening, more, rfl, opens, swallow⟩ := dangles
  -- the next expression is a chain whose first operand is the group
  obtain ⟨first, links, afterGroup, found, run, _⟩ := derives_layer_iff.1 derives
  obtain ⟨closing, closes, inner⟩ := found.group_of_paren opens
  obtain ⟨expr, derivesCall⟩ := swallow first closing afterGroup inner closes
  obtain ⟨longer, chained⟩ := (derives_layer_iff.1 derivesCall).extend run
  exact ⟨longer, derives_layer_iff.2 chained⟩

/-! ## Blocks -/

/-- What closes a block is no parenthesis. -/
theorem Closed.noParen
    {closing : Closing}
    {tokens : List Token}
    (closed : Closed closing tokens) :
    noParen tokens := by
  obtain ⟨token, more, rfl, closes⟩ := closed
  rcases closes_cases closes with isElif | isElse | isEnd
  · simp [Grammar.noParen, isElif]
  · simp [Grammar.noParen, isElse]
  · simp [Grammar.noParen, isEnd]

/-- What becomes of the derivation of a part. -/
def RecoveredPart (tokens rest : List Token) : Part → Prop
  | .block => noParen rest → ∃ block, DerivesPart noParen .block tokens (.block block) rest
  | .branch keyword => ∃ statement, DerivesPart noParen (.branch keyword) tokens statement rest
  | .tail _ _ span => ∀ condition arm, ∃ statement,
      DerivesPart noParen (.tail condition arm span) tokens statement rest

/-- An expression goes in front of the rest of a block, or together with its first one. -/
theorem Recovered.cons_block
    {tokens middle rest : List Token}
    (recovered : Recovered tokens middle (.layer .comparison))
    {statements : List Stmt}
    {tail : Option Return}
    (others : DerivesPart noParen .block middle (.block (.mk statements tail)) rest)
    (avoids : noParen rest) :
    ∃ longer, DerivesPart noParen .block tokens (.block longer) rest := by
  rcases recovered with ⟨expr, derives⟩ | dangles
  · exact ⟨_, .expression derives others⟩
  · have ⟨opening, more, isMiddle, opens, _⟩ := dangles
    cases others with
    -- only an expression begins with a parenthesis
    | empty => exact absurd avoids dangles.not_noParen
    | returnNothing _ isReturn | returnValue isReturn =>
        cases isMiddle
        simp [opens] at isReturn
    | conditional isIf =>
        cases isMiddle
        simp [opens] at isIf
    | expression derives others =>
        obtain ⟨expr, absorbed⟩ := dangles.absorb derives
        exact ⟨_, .expression absorbed others⟩

/-- Every part is derived without variables in front of parentheses, perhaps as another tree. -/
theorem DerivesPart.recovered
    {follow : Follow}
    {part : Part}
    {tokens rest : List Token}
    {statement : Stmt}
    (derives : DerivesPart follow part tokens statement rest) :
    RecoveredPart tokens rest part := by
  induction derives with
  | empty rest => exact fun _ => ⟨_, .empty rest⟩
  | returnNothing rest isReturn => exact fun _ => ⟨_, .returnNothing rest isReturn⟩
  | returnValue isReturn value =>
      intro avoids
      obtain ⟨expr, derives⟩ := value.recovered.expr avoids
      exact ⟨_, .returnValue isReturn derives⟩
  | conditional isIf _ _ branchHypothesis othersHypothesis =>
      intro avoids
      obtain ⟨statement, derives⟩ := branchHypothesis
      obtain ⟨⟨statements, tail⟩, others⟩ := othersHypothesis avoids
      exact ⟨_, .conditional isIf derives others⟩
  | expression derives _ othersHypothesis =>
      intro avoids
      obtain ⟨⟨statements, tail⟩, others⟩ := othersHypothesis avoids
      exact derives.recovered.cons_block others avoids
  | @branch keyword opening condition arm statement tokens more middle rest decides isThen _ tail
      armHypothesis tailHypothesis =>
      obtain ⟨newCondition, derives⟩ := decides.recovered.expr (by simp [noParen, isThen])
      obtain ⟨newArm, derivesArm⟩ := armHypothesis tail.tail_closed.noParen
      obtain ⟨statement, derivesTail⟩ := tailHypothesis newCondition newArm
      exact ⟨statement, .branch derives isThen derivesArm derivesTail⟩
  | elif isElif _ branchHypothesis =>
      intro condition arm
      obtain ⟨other, derives⟩ := branchHypothesis
      exact ⟨_, .elif isElif derives⟩
  | otherwise isElse _ isEnd blockHypothesis =>
      intro condition arm
      obtain ⟨other, derives⟩ := blockHypothesis (by simp [noParen, isEnd])
      exact ⟨_, .otherwise isElse derives isEnd⟩
  | done rest isEnd => exact fun condition arm => ⟨_, .done rest isEnd⟩

/-! ## Programs -/

/-- The tokens of a program, apart from its trees, in which functions have headers of some
form. -/
inductive Sentence (follow : Follow) (header : List Token → List Token → Prop) :
    List Token → Prop where
  | nil : Sentence follow header []
  | function {token closing : Token} {body : Block} {more middle rest : List Token}
      (isDef : token.kind = .kwDef) (heads : header more middle)
      (derives : DerivesPart follow .block middle (.block body) (closing :: rest))
      (isEnd : closing.kind = .kwEnd) (others : Sentence follow header rest) :
      Sentence follow header (token :: more)
  | prototype {token : Token} {more rest : List Token}
      (isExtern : token.kind = .kwExtern) (heads : header more rest)
      (others : Sentence follow header rest) :
      Sentence follow header (token :: more)
  | expression {expr : Expr} {tokens rest : List Token}
      (derives : DerivesExpr follow tokens expr rest) (others : Sentence follow header rest) :
      Sentence follow header tokens

/-- Every sentence is one without variables in front of parentheses. -/
theorem Sentence.recovered
    {follow : Follow}
    {header : List Token → List Token → Prop}
    {tokens : List Token}
    (sentence : Sentence follow header tokens) :
    Sentence noParen header tokens := by
  induction sentence with
  | nil => exact .nil
  | function isDef heads body isEnd _ inductionHypothesis =>
      obtain ⟨block, derives⟩ := body.recovered (by simp [noParen, isEnd])
      exact .function isDef heads derives isEnd inductionHypothesis
  | prototype isExtern heads _ inductionHypothesis =>
      exact .prototype isExtern heads inductionHypothesis
  | expression derives _ inductionHypothesis =>
      rcases derives.recovered with ⟨expr, derives⟩ | dangles
      · exact .expression derives inductionHypothesis
      · have opens := dangles.opens
        cases inductionHypothesis with
        | nil => cases opens
        | function isDef => simp [isDef] at opens
        | prototype isExtern => simp [isExtern] at opens
        | expression derives others =>
            obtain ⟨expr, absorbed⟩ := dangles.absorb derives
            exact .expression absorbed others

/-- The headers that are prototypes. -/
def Declares (tokens rest : List Token) : Prop :=
  ∃ proto, DerivesPrototype tokens proto rest

/-- Programs are sentences whose headers declare prototypes. -/
theorem exists_derivesProgram_iff
    {follow : Follow}
    {tokens : List Token} :
    (∃ statements, DerivesProgram follow tokens statements) ↔ Sentence follow Declares tokens := by
  constructor
  · rintro ⟨statements, derives⟩
    induction derives with
    | nil => exact .nil
    | function isDef header body isEnd _ inductionHypothesis =>
        exact .function isDef ⟨_, header⟩ body isEnd inductionHypothesis
    | prototype isExtern header _ inductionHypothesis =>
        exact .prototype isExtern ⟨_, header⟩ inductionHypothesis
    | expression derives _ inductionHypothesis => exact .expression derives inductionHypothesis
  · intro sentence
    induction sentence with
    | nil => exact ⟨[], .nil⟩
    | function isDef heads body isEnd _ inductionHypothesis =>
        obtain ⟨proto, header⟩ := heads
        obtain ⟨statements, others⟩ := inductionHypothesis
        exact ⟨_, .function isDef header body isEnd others⟩
    | prototype isExtern heads _ inductionHypothesis =>
        obtain ⟨proto, header⟩ := heads
        obtain ⟨statements, others⟩ := inductionHypothesis
        exact ⟨_, .prototype isExtern header others⟩
    | expression derives _ inductionHypothesis =>
        obtain ⟨statements, others⟩ := inductionHypothesis
        exact ⟨_, .expression derives others⟩

/-- Every program is derived without variables in front of parentheses, perhaps as other
statements. -/
theorem DerivesProgram.recovered
    {follow : Follow}
    {tokens : List Token}
    {statements : List Stmt}
    (derives : DerivesProgram follow tokens statements) :
    ∃ others, DerivesProgram noParen tokens others := by
  have sentence := exists_derivesProgram_iff.1 ⟨statements, derives⟩
  exact exists_derivesProgram_iff.2 sentence.recovered

end Grammar

open Grammar

/-- Tokens are accepted exactly when those before the end of input are derivable as a program,
and they are read as the program that is derived with a call wherever a name stands in front of
a parenthesis. -/
theorem Parse.ofTokens_accepts (tokens : List Token) :
    let body := tokens.takeWhile fun token => token.kind ≠ .eof
    ((∃ statements, (Parse.ofTokens tokens).result = .ok statements) ↔
        ∃ statements, DerivesProgram anything body statements) ∧
      ∀ statements, (Parse.ofTokens tokens).result = .ok statements ↔
        DerivesProgram noParen body statements := by
  intro body
  have reads (statements : List Stmt) :
      (Parse.ofTokens tokens).result = .ok statements ↔ DerivesProgram noParen body statements :=
    ofBody_iff
  refine ⟨?_, reads⟩
  constructor
  · rintro ⟨statements, read⟩
    exact ⟨statements, ((reads statements).1 read).mono fun _ _ => trivial⟩
  · rintro ⟨statements, derives⟩
    obtain ⟨others, derivesOthers⟩ := derives.recovered
    exact ⟨others, (reads others).2 derivesOthers⟩

end ScalarScript
