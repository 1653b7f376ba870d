import ScalarScript.Proofs.Derivation
import ScalarScript.Proofs.Printing

/-!
# Splitting at the loosest operator

A chain of operands can be grouped from the outside.  The operator that binds least is the root of
the tree, the last one if several bind equally; what stands before it and what stands behind it are
grouped in the same way.  `Chain.tree` groups from the inside, from left to right and with a stack
of operators that wait, and gives the same tree.  An expression is therefore read as the chain of
its operands, split at the loosest operators.
-/

namespace ScalarScript
namespace Chain

/-- The tree of a chain that is split at the last of its loosest operators. -/
inductive Split : Chain → Expr → Prop where
  | operand (first : Expr) : Split ⟨first, []⟩ first
  | root {first operand left right : Expr} {op : Token} {before after : List (Token × Expr)}
      (loosest : ∀ link ∈ before, binding op ≤ binding link.1)
      (last : ∀ link ∈ after, binding op < binding link.1)
      (splitLeft : Split ⟨first, before⟩ left)
      (splitRight : Split ⟨operand, after⟩ right) :
      Split ⟨first, before ++ (op, operand) :: after⟩ (.binary op.kind left right op.span)

/-- A chain between operators that bind no tighter than any of its own is grouped by itself. -/
theorem Split.group_append
    {chain : Chain}
    {expr : Expr}
    (split : Split chain expr)
    {waiting : List (Expr × Token)}
    {more : List (Token × Expr)}
    (looserBefore : ∀ pair ∈ waiting.head?, ∀ link ∈ chain.links, binding pair.2 < binding link.1)
    (looserAfter : ∀ next ∈ more.head?, ∀ link ∈ chain.links, binding next.1 ≤ binding link.1) :
    group waiting chain.first (chain.links ++ more) = group waiting expr more := by
  induction split generalizing waiting more with
  | operand first => rfl
  | @root first operand left right op before after loosest last _ _ leftHypothesis
      rightHypothesis =>
      simp only [List.forall_mem_append, List.forall_mem_cons] at looserBefore looserAfter
      have waits : ∀ pair ∈ waiting.head?, binding pair.2 < binding op :=
        fun pair member => (looserBefore pair member).2.1
      calc group waiting first (before ++ (op, operand) :: after ++ more)
          = group waiting left ((op, operand) :: (after ++ more)) := by
            rw [List.append_assoc]
            apply leftHypothesis
            · exact fun pair member => (looserBefore pair member).1
            · rintro _ ⟨⟩
              exact loosest
        _ = group ((left, op) :: waiting) operand (after ++ more) := by
            simp only [group, Layered.settle_of_lt waits]
        _ = group ((left, op) :: waiting) right more := by
            apply rightHypothesis
            · rintro _ ⟨⟩
              exact last
            · exact fun next member => (looserAfter next member).2.2
        _ = group waiting (join op left right) more := by
            apply Layered.group_join
            exact fun next member => (looserAfter next member).2.1

/-- Links that are not empty have a last one among the loosest. -/
theorem exists_loosest
    {links : List (Token × Expr)}
    (nonempty : links ≠ []) :
    ∃ before op operand after, links = before ++ (op, operand) :: after ∧
      (∀ link ∈ before, binding op ≤ binding link.1) ∧
      ∀ link ∈ after, binding op < binding link.1 := by
  induction links with
  | nil => exact absurd rfl nonempty
  | cons link links inductionHypothesis =>
      by_cases alone : links = []
      · subst alone
        exact ⟨[], link.1, link.2, [], rfl, by simp, by simp⟩
      · obtain ⟨before, op, operand, after, isLinks, loosest, last⟩ := inductionHypothesis alone
        by_cases looser : binding link.1 < binding op
        · -- the first link is looser than everything behind it
          refine ⟨[], link.1, link.2, links, rfl, by simp, ?_⟩
          rw [isLinks]
          simp only [List.forall_mem_append, List.forall_mem_cons]
          exact ⟨fun other member => Nat.lt_of_lt_of_le looser (loosest other member), looser,
            fun other member => Nat.lt_trans looser (last other member)⟩
        · refine ⟨link :: before, op, operand, after, by rw [isLinks]; rfl, ?_, last⟩
          exact List.forall_mem_cons.2 ⟨Nat.le_of_not_lt looser, loosest⟩

theorem exists_split (chain : Chain) : ∃ expr, Split chain expr := by
  obtain ⟨first, links⟩ := chain
  induction bound : links.length using Nat.strongRecOn generalizing first links with
  | _ bound shorter =>
      by_cases alone : links = []
      · subst alone
        exact ⟨first, .operand first⟩
      · obtain ⟨before, op, operand, after, rfl, loosest, last⟩ := exists_loosest alone
        rw [List.length_append, List.length_cons] at bound
        obtain ⟨left, splitLeft⟩ := shorter before.length (by omega) first before rfl
        obtain ⟨right, splitRight⟩ := shorter after.length (by omega) operand after rfl
        exact ⟨_, .root loosest last splitLeft splitRight⟩

/-- A chain is split in one way only, and this gives its tree. -/
theorem split_iff
    (chain : Chain)
    (expr : Expr) :
    Split chain expr ↔ expr = chain.tree := by
  have grouped {other : Expr} (split : Split chain other) : chain.tree = other := by
    have whole : group [] chain.first (chain.links ++ []) = group [] other [] :=
      split.group_append nofun nofun
    rwa [List.append_nil] at whole
  constructor
  · exact fun split => (grouped split).symm
  · rintro rfl
    obtain ⟨other, split⟩ := exists_split chain
    rwa [grouped split]

end Chain

namespace Grammar

/-! ## Operands by themselves and in their place -/

/-- A variable stands in front of a parenthesis only at the end of a phrase. -/
theorem Derives.strict
    {follow : Follow}
    {phrase : Phrase}
    {tokens rest : List Token}
    {trees : List Expr}
    (derives : Derives follow phrase tokens trees rest)
    (avoids : noParen rest) :
    Derives noParen phrase tokens trees rest := by
  induction derives with
  | number isNumber => exact .number isNumber
  | name isName _ => exact .name isName avoids
  | callEmpty isName opens closes => exact .callEmpty isName opens closes
  | call isName opens _ closes inductionHypothesis =>
      exact .call isName opens (inductionHypothesis (by simp [noParen, closes])) closes
  | group opens _ closes inductionHypothesis =>
      exact .group opens (inductionHypothesis (by simp [noParen, closes])) closes
  | ascend isNext _ inductionHypothesis => exact .ascend isNext (inductionHypothesis avoids)
  | joined isNext member _ _ leftHypothesis rightHypothesis =>
      refine .joined isNext member (leftHypothesis ?_) (rightHypothesis avoids)
      exact noParen_of_joins (Level.isSome_precedence?_of_mem_operators member) _
  | last _ inductionHypothesis => exact .last (inductionHypothesis avoids)
  | more _ isComma _ inductionHypothesis othersHypothesis =>
      exact .more (inductionHypothesis (by simp [noParen, isComma])) isComma
        (othersHypothesis avoids)

/-- A phrase is derived as well with more tokens behind what it leaves. -/
theorem Derives.append
    {phrase : Phrase}
    {tokens rest : List Token}
    {trees : List Expr}
    (derives : Derives noParen phrase tokens trees rest)
    {suffix : List Token}
    (keeps : noParen rest → noParen (rest ++ suffix)) :
    Derives noParen phrase (tokens ++ suffix) trees (rest ++ suffix) := by
  induction derives with
  | number isNumber => exact .number isNumber
  | name isName follows => exact .name isName (keeps follows)
  | callEmpty isName opens closes => exact .callEmpty isName opens closes
  | call isName opens _ closes inductionHypothesis =>
      exact .call isName opens (inductionHypothesis fun _ => by simp [noParen, closes]) closes
  | group opens _ closes inductionHypothesis =>
      exact .group opens (inductionHypothesis fun _ => by simp [noParen, closes]) closes
  | ascend isNext _ inductionHypothesis => exact .ascend isNext (inductionHypothesis keeps)
  | joined isNext member _ _ leftHypothesis rightHypothesis =>
      have joins := Level.isSome_precedence?_of_mem_operators member
      exact .joined isNext member (leftHypothesis fun _ => noParen_of_joins joins _)
        (rightHypothesis keeps)
  | last _ inductionHypothesis => exact .last (inductionHypothesis keeps)
  | more _ isComma _ inductionHypothesis othersHypothesis =>
      exact .more (inductionHypothesis fun _ => by simp [noParen, isComma]) isComma
        (othersHypothesis keeps)

/-- A primary expression with the tokens that it is made of. -/
structure Operand where
  tokens : List Token
  expr : Expr
  derives : DerivesPrimary anything tokens expr []

namespace Operand

/-- A token goes on with an operand: together they begin another primary expression. -/
def ExtendedBy (operand : Operand) (next : Token) : Prop :=
  ∃ more expr, DerivesPrimary anything (operand.tokens ++ next :: more) expr []

/-- Only a variable can be gone on with, and by a parenthesis. -/
theorem derives_append
    (operand : Operand)
    {suffix : List Token}
    (apart : noParen suffix ∨ ∀ next ∈ suffix.head?, ¬operand.ExtendedBy next) :
    DerivesPrimary noParen (operand.tokens ++ suffix) operand.expr suffix := by
  obtain ⟨tokens, expr, derives⟩ := operand
  cases derives.strict (nextAvoids_nil _) with
  | number isNumber => exact .number isNumber
  | name isName =>
      apply Derives.name isName
      rcases apart with avoids | notExtended
      · exact avoids
      · intro next member opens
        apply notExtended next member
        exact ⟨[.word .rightParen], _, .callEmpty isName opens rfl⟩
  | callEmpty isName opens closes => exact .callEmpty isName opens closes
  | call isName opens arguments closes =>
      exact .call isName opens (arguments.append fun _ => by simp [noParen, closes]) closes
  | group opens inner closes =>
      exact .group opens (inner.append fun _ => by simp [noParen, closes]) closes
  | ascend isNext | joined isNext => cases isNext

end Operand

/-! ## Sequences of operands -/

/-- An operand, and more of them behind operators. -/
structure Sequence where
  first : Operand
  links : List (Token × Operand)
  joins : ∀ link ∈ links, link.1.kind.precedence?.isSome = true

namespace Sequence

/-- The tokens from the first operand to the last. -/
def tokens (sequence : Sequence) : List Token :=
  sequence.first.tokens ++ sequence.links.flatMap fun link => link.1 :: link.2.tokens

/-- The operand that ends the sequence. -/
def last (sequence : Sequence) : Operand :=
  (sequence.links.map Prod.snd).getLastD sequence.first

/-- The trees of the operands. -/
def chain (sequence : Sequence) : Chain :=
  ⟨sequence.first.expr, sequence.links.map fun link => (link.1, link.2.expr)⟩

/-- Each operand is found in front of the operator behind it, and the last one in front of what
follows the sequence. -/
theorem run
    (sequence : Sequence)
    {rest : List Token}
    (apart : ∀ next ∈ rest.head?, ¬sequence.last.ExtendedBy next) :
    ∃ middle, DerivesPrimary noParen (sequence.tokens ++ rest) sequence.chain.first middle ∧
      Run (DerivesPrimary noParen) middle sequence.chain.links rest := by
  obtain ⟨first, links, joins⟩ := sequence
  induction links generalizing first with
  | nil =>
      refine ⟨rest, ?_, .nil rest⟩
      rw [tokens, List.flatMap_nil, List.append_nil]
      exact first.derives_append (.inr apart)
  | cons link links inductionHypothesis =>
      obtain ⟨opJoins, joins⟩ := List.forall_mem_cons.1 joins
      obtain ⟨middle, found, run⟩ := inductionHypothesis link.2 joins (by
        simpa only [last, List.map_cons, List.getLastD_cons] using apart)
      refine ⟨_, ?_, .cons opJoins found run⟩
      rw [tokens, List.append_assoc]
      exact first.derives_append (.inl (noParen_of_joins opJoins _))

end Sequence
end Grammar

open Grammar

/-- Operands with operators between them are read up to the last operand, as the one tree that
splits them at the loosest operators, if what follows is no operator and does not go on with the
last operand. -/
theorem Expr.readExpr_splits
    (final : Token)
    (sequence : Sequence)
    (rest : List Token)
    (noOperator : ∀ next ∈ rest.head?, next.kind.precedence? = none)
    (apart : ∀ next ∈ rest.head?, ¬sequence.last.ExtendedBy next) :
    ∃ expr, Yields (Expr.readExpr final (sequence.tokens ++ rest)) expr rest ∧
      ∀ other, Chain.Split sequence.chain other ↔ other = expr := by
  refine ⟨sequence.chain.tree, ?_, Chain.split_iff sequence.chain⟩
  obtain ⟨middle, found, run⟩ := sequence.run apart
  obtain ⟨expr, layered⟩ := Layered.exists_of_joins sequence.chain.first run.joins
  have isTree : sequence.chain.tree = expr := layered.tree_eq
  rw [readExpr_iff, isTree]
  refine ⟨derives_layer_iff.2 ⟨_, _, middle, found, run, layered⟩, ?_⟩
  intro next member
  simp [noOperator next member]

/-- The sequence `a - 1 * f() < 2`. -/
def mixedSequence : Sequence where
  first := ⟨[.ofName "a"], .var "a" .zero, .name rfl trivial⟩
  links :=
    [(.word .minus, ⟨[.ofNumber 1], .num 1 .zero, .number rfl⟩),
      (.word .star, ⟨[.ofName "f", .word .leftParen, .word .rightParen], .call "f" [] .zero,
        .callEmpty rfl rfl rfl⟩),
      (.word .lesser, ⟨[.ofNumber 2], .num 2 .zero, .number rfl⟩)]
  joins := by decide

/-- The comparison is the root of `a - 1 * f() < 2`, the difference stands on its left and holds
the product; a parenthesis behind the last number begins something else. -/
theorem Expr.readExpr_splits_mixed :
    Yields (Expr.readExpr (.word .eof) (mixedSequence.tokens ++ [.word .leftParen]))
      (.binary .lesser
        (.binary .minus (.var "a" .zero)
          (.binary .star (.num 1 .zero) (.call "f" [] .zero) .zero) .zero)
        (.num 2 .zero) .zero)
      [.word .leftParen] := by
  obtain ⟨expr, reads, splits⟩ := Expr.readExpr_splits (.word .eof) mixedSequence
    [.word .leftParen] (by rintro _ ⟨⟩; rfl) (by
      rintro _ ⟨⟩ ⟨more, expr, derives⟩
      cases derives with
      | callEmpty isName | call isName => cases isName
      | group opens => cases opens
      | ascend isNext | joined isNext => cases isNext)
  have split := (splits _).1
    (@Chain.Split.root _ _ _ _ _ (mixedSequence.chain.links.take 2) [] (by decide) (by decide)
      (@Chain.Split.root _ _ _ _ _ [] _ (by decide) (by decide) (.operand _)
        (@Chain.Split.root _ _ _ _ _ [] [] (by decide) (by decide) (.operand _) (.operand _)))
      (.operand _))
  rw [← split] at reads
  exact reads

end ScalarScript
