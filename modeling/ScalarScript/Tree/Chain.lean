import ScalarScript.Tree

/-!
# Chains of operands

Operands joined by binary operators stand in a text one after the other.  `Chain.tree`
groups them: an operator that binds tighter is grouped first, and of operators that bind
equally the left one is grouped first.  Operators still waiting for their right operand
are kept on a stack, the innermost on top.
-/

namespace ScalarScript

/-- An operand followed by operators with their right operands. -/
structure Chain where
  first : Expr
  links : List (Token × Expr)
deriving Repr

namespace Chain

/-- How tightly an operator token binds. -/
def binding (op : Token) : Nat :=
  op.kind.precedence?.getD 0

/-- Two operands joined by an operator, located at the operator. -/
def join (op : Token) (left right : Expr) : Expr :=
  .binary op.kind left right op.span

/-- Groups the waiting operators that bind at least as tightly as `level`. -/
def settle (level : Nat) : List (Expr × Token) → Expr → List (Expr × Token) × Expr
  | [], operand => ([], operand)
  | (left, op) :: waiting, operand =>
      if level ≤ binding op then
        settle level waiting (join op left operand)
      else
        ((left, op) :: waiting, operand)

/-- Groups the rest of a chain, given the operators that wait and the last operand read. -/
def group (waiting : List (Expr × Token)) (operand : Expr) : List (Token × Expr) → Expr
  | [] => (settle 0 waiting operand).2
  | (op, next) :: links =>
      let settled := settle (binding op) waiting operand
      group ((settled.2, op) :: settled.1) next links

/-- The expression that a chain stands for. -/
def tree (chain : Chain) : Expr :=
  group [] chain.first chain.links

end Chain
end ScalarScript
