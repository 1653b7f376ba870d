import ScalarScript.Code

/-!
# Building bodies

A builder grows a body op by op.  Ops go to the end of the block at the insertion point;
results get registers whose names start from a hint and are numbered when the hint was
used before.
-/

namespace ScalarScript
namespace Code

/-- A body under construction. -/
structure Builder where
  blocks : List Block := []
  registers : List Register := []
  /-- The block to which ops are added. -/
  insertion : Option Nat := none
  /-- The hints from which names were made so far. -/
  hints : List String := []
  /-- The ops added so far with the labels of their blocks, the latest first. -/
  emitted : List (String × Op) := []
  /-- The ops that were added while the insertion point named no block. -/
  lost : List Op := []
deriving Repr

namespace Builder

/-- The body built so far. -/
def body (builder : Builder) : Body :=
  ⟨builder.blocks, builder.registers⟩

/-- The name made from a hint: the hint itself the first time, then numbered. -/
def freshName (builder : Builder) (hint : String) : String :=
  let uses := builder.hints.count hint
  if uses = 0 then hint else s!"{hint}{uses}"

/-- Adds a register. -/
def allocate (builder : Builder) (hint : String) (type : ValueType) : Nat × Builder :=
  (builder.registers.length,
    { builder with
      registers := builder.registers ++ [⟨builder.freshName hint, type⟩]
      hints := hint :: builder.hints })

/-- Adds an empty block; the insertion point stays where it is. -/
def createBlock (builder : Builder) (hint : String) : Nat × Builder :=
  (builder.blocks.length,
    { builder with
      blocks := builder.blocks ++ [⟨builder.freshName hint, []⟩]
      hints := hint :: builder.hints })

/-- Moves the insertion point to the end of a block. -/
def position (builder : Builder) (index : Nat) : Builder :=
  { builder with insertion := some index }

/-- Whether the block at the insertion point is complete. -/
def isTerminated (builder : Builder) : Bool :=
  (builder.insertion.bind fun index => builder.blocks[index]?).any Block.isTerminated

/-- Adds an op to a block. -/
def push (builder : Builder) (index : Nat) (op : Op) : Builder :=
  match builder.blocks[index]? with
  | some block =>
      { builder with
        blocks := builder.blocks.set index (block.push op)
        emitted := (block.label, op) :: builder.emitted }
  | none => { builder with lost := op :: builder.lost }

/-- Adds an op at the insertion point, opening the block `entry` if there is none. -/
def emit (builder : Builder) (op : Op) : Builder :=
  match builder.insertion with
  | some index => builder.push index op
  | none =>
      let created := builder.createBlock "entry"
      (created.2.position created.1).push created.1 op

/-- Adds an op that writes a new register. -/
def emitTo (builder : Builder) (hint : String) (type : ValueType) (op : Nat → Op) :
    Operand × Builder :=
  let allocated := builder.allocate hint type
  (.reg allocated.1, allocated.2.emit (op allocated.1))

/-- Adds an arithmetic op. -/
def arith (builder : Builder) (op : Arith) (lhs rhs : Operand) : Operand × Builder :=
  builder.emitTo op.hint .double fun dest => .arith op dest lhs rhs

/-- Adds a comparison. -/
def compare (builder : Builder) (predicate : Predicate) (lhs rhs : Operand) (hint : String) :
    Operand × Builder :=
  builder.emitTo hint .bool fun dest => .compare dest predicate lhs rhs

/-- Adds the widening of a truth value. -/
def widen (builder : Builder) (src : Operand) : Operand × Builder :=
  builder.emitTo "booltmp" .double fun dest => .widen dest src

/-- Adds a call. -/
def call (builder : Builder) (callee : String) (args : List Operand) : Operand × Builder :=
  builder.emitTo "calltmp" .double fun dest => .call dest callee args

/-- A builder at the end of an empty entry block. -/
def opened : Builder :=
  let created := ({} : Builder).createBlock "entry"
  created.2.position created.1

end Builder
end Code
end ScalarScript
