import Mathlib.Data.List.Induction
import ScalarScript.Tree.Chain

/-!
# Layers of operators

The grammar of expressions has a layer for each strength of operators: comparisons join sums,
sums join products, and products join primary expressions, each from left to right.  A chain
of operands is read in layers in exactly one way, and the tree that this gives is the one that
`Chain.tree` finds with its stack of waiting operators.
-/

namespace ScalarScript

/-- The layers of expressions, from the one whose operators bind least. -/
inductive Level where
  | comparison
  | additive
  | multiplicative
  | primary
deriving DecidableEq, Repr

namespace Level

/-- The operators that join expressions of a layer. -/
def operators : Level → List Token.Kind
  | .comparison => [.lesser, .greater, .lesserEqual, .greaterEqual, .equalEqual, .bangEqual]
  | .additive => [.plus, .minus]
  | .multiplicative => [.star, .slash]
  | .primary => []

/-- The next layer, to which right operands belong. -/
def tighter? : Level → Option Level
  | .comparison => some .additive
  | .additive => some .multiplicative
  | .multiplicative => some .primary
  | .primary => none

/-- How tightly the operators of a layer bind. -/
def binding : Level → Nat
  | .comparison => 10
  | .additive => 20
  | .multiplicative => 40
  | .primary => 50

/-- The next level binds more tightly. -/
theorem binding_lt_of_tighter?
    {level next : Level}
    (isNext : level.tighter? = some next) :
    level.binding < next.binding := by
  cases level <;> cases isNext <;> decide

/-- The operators of a level bind as the level does. -/
theorem precedence?_of_mem_operators
    {level : Level}
    {kind : Token.Kind}
    (member : kind ∈ level.operators) :
    kind.precedence? = some level.binding := by
  have all : ∀ other ∈ level.operators, other.precedence? = some level.binding := by
    cases level <;> decide
  exact all kind member

theorem binding_of_mem_operators
    {level : Level}
    {op : Token}
    (member : op.kind ∈ level.operators) :
    Chain.binding op = level.binding := by
  simp [Chain.binding, precedence?_of_mem_operators member]

theorem isSome_precedence?_of_mem_operators
    {level : Level}
    {kind : Token.Kind}
    (member : kind ∈ level.operators) :
    kind.precedence?.isSome = true := by
  simp [precedence?_of_mem_operators member]

/-- Every operator belongs to a layer. -/
theorem exists_mem_operators
    {kind : Token.Kind}
    (joins : kind.precedence?.isSome = true) :
    ∃ level : Level, kind ∈ level.operators := by
  cases kind with
  | lesser | greater | lesserEqual | greaterEqual | equalEqual | bangEqual =>
      exact ⟨.comparison, by decide⟩
  | plus | minus => exact ⟨.additive, by decide⟩
  | star | slash => exact ⟨.multiplicative, by decide⟩
  | _ => cases joins

/-- A level that binds no less is the same one or comes above it. -/
theorem eq_or_tighter_of_binding_le
    {level other : Level}
    (binds : level.binding ≤ other.binding) :
    level = other ∨ ∃ next, level.tighter? = some next ∧ next.binding ≤ other.binding := by
  cases level <;> cases other <;> simp_all [binding, tighter?]

/-- An operator that binds at least as tightly as a layer belongs to it, or to one above. -/
theorem mem_operators_or_tighter
    {level : Level}
    {op : Token}
    (joins : op.kind.precedence?.isSome = true)
    (binds : level.binding ≤ Chain.binding op) :
    op.kind ∈ level.operators ∨
      ∃ next, level.tighter? = some next ∧ next.binding ≤ Chain.binding op := by
  obtain ⟨other, member⟩ := exists_mem_operators joins
  rw [binding_of_mem_operators member] at binds ⊢
  rcases eq_or_tighter_of_binding_le binds with rfl | above
  · exact .inl member
  · exact .inr above

theorem comparison_le (level : Level) : comparison.binding ≤ level.binding := by
  cases level <;> decide

end Level

/-- A chain of operands is read as an expression of a layer. -/
inductive Layered : Level → Expr → List (Token × Expr) → Expr → Prop where
  | operand (first : Expr) : Layered .primary first [] first
  | ascend {level next : Level} {first expr : Expr} {links : List (Token × Expr)}
      (isNext : level.tighter? = some next) (layered : Layered next first links expr) :
      Layered level first links expr
  | joined {level next : Level} {first operand left right : Expr} {op : Token}
      {links others : List (Token × Expr)}
      (isNext : level.tighter? = some next) (member : op.kind ∈ level.operators)
      (layeredLeft : Layered level first links left)
      (layeredRight : Layered next operand others right) :
      Layered level first (links ++ (op, operand) :: others)
        (.binary op.kind left right op.span)

namespace Layered

/-! ## Grouping a chain -/

/-- Operators that bind less than the next one keep waiting for it. -/
theorem settle_of_lt
    {level : Nat}
    {waiting : List (Expr × Token)}
    (looser : ∀ pair ∈ waiting.head?, Chain.binding pair.2 < level)
    (operand : Expr) :
    Chain.settle level waiting operand = (waiting, operand) := by
  cases waiting with
  | nil => rfl
  | cons pair waiting =>
      have binds := looser pair rfl
      rw [Chain.settle, if_neg (by omega)]

/-- An operator that waits on top is grouped first, unless the next one binds more tightly. -/
theorem group_join
    {op : Token}
    (left right : Expr)
    (waiting : List (Expr × Token))
    {links : List (Token × Expr)}
    (looser : ∀ link ∈ links.head?, Chain.binding link.1 ≤ Chain.binding op) :
    Chain.group ((left, op) :: waiting) right links =
      Chain.group waiting (Chain.join op left right) links := by
  cases links with
  | nil => simp [Chain.group, Chain.settle]
  | cons link links =>
      have binds := looser link rfl
      simp only [Chain.group, Chain.settle, if_pos binds]

/-- The operands of an expression of a layer are grouped into it, between operators that do
not bind more tightly than those of the layer. -/
theorem group_append
    {level : Level}
    {first expr : Expr}
    {links : List (Token × Expr)}
    (layered : Layered level first links expr)
    {waiting : List (Expr × Token)}
    {more : List (Token × Expr)}
    (looserBefore : ∀ pair ∈ waiting.head?, Chain.binding pair.2 < level.binding)
    (looserAfter : ∀ link ∈ more.head?, Chain.binding link.1 ≤ level.binding) :
    Chain.group waiting first (links ++ more) = Chain.group waiting expr more := by
  induction layered generalizing waiting more with
  | operand first => rfl
  | ascend isNext layered inductionHypothesis =>
      have binds := Level.binding_lt_of_tighter? isNext
      apply inductionHypothesis
      · exact fun pair member => Nat.lt_trans (looserBefore pair member) binds
      · exact fun link member => Nat.le_trans (looserAfter link member) (Nat.le_of_lt binds)
  | @joined level next first operand left right op links others isNext member layeredLeft
      layeredRight leftHypothesis rightHypothesis =>
      have binds := Level.binding_lt_of_tighter? isNext
      have sameBinding := Level.binding_of_mem_operators member
      -- `op` leaves the stack alone when it comes, and is on top of it while its right operand
      -- is grouped
      calc Chain.group waiting first (links ++ (op, operand) :: others ++ more)
          = Chain.group waiting left ((op, operand) :: (others ++ more)) := by
            rw [List.append_assoc]
            apply leftHypothesis looserBefore
            rintro _ ⟨⟩
            exact Nat.le_of_eq sameBinding
        _ = Chain.group ((left, op) :: waiting) operand (others ++ more) := by
            rw [← sameBinding] at looserBefore
            simp only [Chain.group, settle_of_lt looserBefore]
        _ = Chain.group ((left, op) :: waiting) right more := by
            apply rightHypothesis
            · rintro _ ⟨⟩
              exact sameBinding ▸ binds
            · exact fun link member => Nat.le_trans (looserAfter link member) (Nat.le_of_lt binds)
        _ = Chain.group waiting (Chain.join op left right) more := by
            rw [← sameBinding] at looserAfter
            exact group_join left right waiting looserAfter

/-- The tree of a chain is the one that its layers form. -/
theorem tree_eq
    {level : Level}
    {first expr : Expr}
    {links : List (Token × Expr)}
    (layered : Layered level first links expr) :
    Chain.tree ⟨first, links⟩ = expr := by
  have grouped : Chain.group [] first (links ++ []) = Chain.group [] expr [] :=
    layered.group_append nofun nofun
  rw [List.append_nil] at grouped
  exact grouped

/-! ## Reading a chain in layers -/

/-- An operand alone is a chain of every level. -/
theorem single (level : Level) (first : Expr) : Layered level first [] first := by
  have products : Layered .multiplicative first [] first := .ascend rfl (.operand first)
  have sums : Layered .additive first [] first := .ascend rfl products
  cases level with
  | comparison => exact .ascend rfl sums
  | additive => exact sums
  | multiplicative => exact products
  | primary => exact .operand first

/-- One more operand goes where its operator binds. -/
theorem snoc
    {level : Level}
    {first expr : Expr}
    {links : List (Token × Expr)}
    (layered : Layered level first links expr)
    {op : Token}
    (joins : op.kind.precedence?.isSome = true)
    (binds : level.binding ≤ Chain.binding op)
    (operand : Expr) :
    ∃ longer, Layered level first (links ++ [(op, operand)]) longer := by
  induction layered with
  | operand first =>
      rcases Level.mem_operators_or_tighter joins binds with member | ⟨next, isNext, _⟩
      · cases member
      · cases isNext
  | @ascend level next first expr links isNext layered inductionHypothesis =>
      rcases Level.mem_operators_or_tighter joins binds with member | ⟨other, isOther, bindsMore⟩
      · exact ⟨_, .joined isNext member (.ascend isNext layered) (single next operand)⟩
      · cases isNext.symm.trans isOther
        obtain ⟨longer, layeredLonger⟩ := inductionHypothesis bindsMore
        exact ⟨longer, .ascend isNext layeredLonger⟩
  | @joined level next first last left right lastOp links others isNext lastMember layeredLeft
      layeredRight _ rightHypothesis =>
      rcases Level.mem_operators_or_tighter joins binds with member | ⟨other, isOther, bindsMore⟩
      · have layered := Layered.joined isNext lastMember layeredLeft layeredRight
        exact ⟨_, .joined isNext member layered (single next operand)⟩
      · cases isNext.symm.trans isOther
        obtain ⟨longer, layeredLonger⟩ := rightHypothesis bindsMore
        rw [List.append_assoc]
        exact ⟨_, .joined isNext lastMember layeredLeft layeredLonger⟩

/-- Every chain of operators falls into layers. -/
theorem exists_of_joins
    (first : Expr)
    {links : List (Token × Expr)}
    (joins : ∀ link ∈ links, link.1.kind.precedence?.isSome = true) :
    ∃ expr, Layered .comparison first links expr := by
  induction links using List.reverseRecOn with
  | nil => exact ⟨first, single _ first⟩
  | append_singleton links link inductionHypothesis =>
      obtain ⟨expr, layered⟩ := inductionHypothesis
        fun other member => joins other (List.mem_append_left _ member)
      have joinsLast := joins link (by simp)
      obtain ⟨level, member⟩ := Level.exists_mem_operators joinsLast
      have binds : Level.comparison.binding ≤ Chain.binding link.1 := by
        rw [Level.binding_of_mem_operators member]
        exact level.comparison_le
      exact layered.snoc joinsLast binds link.2

/-- A chain of operators is read in layers as its tree and nothing else. -/
theorem comparison_iff
    {first expr : Expr}
    {links : List (Token × Expr)}
    (joins : ∀ link ∈ links, link.1.kind.precedence?.isSome = true) :
    Layered .comparison first links expr ↔ expr = Chain.tree ⟨first, links⟩ := by
  constructor
  · exact fun layered => layered.tree_eq.symm
  · rintro rfl
    obtain ⟨expr, layered⟩ := exists_of_joins first joins
    rw [layered.tree_eq]
    exact layered

end Layered
end ScalarScript
