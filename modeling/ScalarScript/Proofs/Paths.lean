import ScalarScript.Proofs.WellFormed

/-!
# Paths through a body

A run of a body goes along a path: from the entry it follows the targets of ops from block to
block.  What holds on every path therefore holds on every run, whichever branches it takes.
-/

namespace ScalarScript
namespace Code
namespace Body

/-- The blocks on a path through the body that starts at the given block and follows the
targets of ops. -/
inductive Path (body : Body) : Nat → List Block → Prop where
  | stay {index : Nat} {block : Block}
      (found : body.blocks[index]? = some block) :
      Path body index [block]
  | step {index target : Nat} {block : Block} {blocks : List Block} {op : Op}
      (found : body.blocks[index]? = some block)
      (member : op ∈ block.ops)
      (leads : target ∈ op.successors)
      (rest : Path body target blocks) :
      Path body index (block :: blocks)

theorem Path.mem_blocks
    {body : Body}
    {index : Nat}
    {blocks : List Block}
    (path : body.Path index blocks)
    {block : Block}
    (member : block ∈ blocks) :
    block ∈ body.blocks := by
  induction path with
  | stay found =>
      obtain rfl := List.mem_singleton.1 member
      exact List.mem_of_getElem? found
  | step found _ _ _ inductionHypothesis =>
      rcases List.mem_cons.1 member with rfl | later
      · exact List.mem_of_getElem? found
      · exact inductionHypothesis later

/-- The ops on a path are ops of the body. -/
theorem Path.mem_ops
    {body : Body}
    {index : Nat}
    {blocks : List Block}
    (path : body.Path index blocks)
    {op : Op}
    (member : op ∈ blocks.flatMap Block.ops) :
    op ∈ body.ops := by
  obtain ⟨block, isBlock, isOp⟩ := List.mem_flatMap.1 member
  exact List.mem_flatMap.2 ⟨block, path.mem_blocks isBlock, isOp⟩

/-- On every path from the entry, whatever an op reads from a register is what the last op
before it that wrote the register has written, and it has the type that the op expects. -/
def WritesFirst (body : Body) : Prop :=
  ∀ blocks, body.Path 0 blocks →
    ∀ front op back, blocks.flatMap Block.ops = front ++ op :: back →
      ∀ index type, (.reg index, type) ∈ op.reads →
        ∃ before writer between, front = before ++ writer :: between ∧
          writer.result? = some (index, type) ∧
            ∀ other ∈ between, other.dest? ≠ some index

/-- An op on a path has in front of it the blocks passed and the ops before it in its own
block. -/
theorem exists_block_of_flatMap
    {blocks : List Block}
    {front back : List Op}
    {op : Op}
    (split : blocks.flatMap Block.ops = front ++ op :: back) :
    ∃ block ∈ blocks, ∃ passed inner rest,
      front = passed ++ inner ∧ block.ops = inner ++ op :: rest := by
  induction blocks generalizing front with
  | nil => simp at split
  | cons block blocks inductionHypothesis =>
      rw [List.flatMap_cons, List.append_eq_append_iff] at split
      rcases split with ⟨inner, rfl, others⟩ | ⟨rest, ops, same⟩
      · obtain ⟨other, member, passed, inner, rest, rfl, ops⟩ := inductionHypothesis others
        exact ⟨other, List.mem_cons_of_mem _ member, block.ops ++ passed, inner, rest, by simp,
          ops⟩
      · cases rest with
        | nil =>
            have others : blocks.flatMap Block.ops = [] ++ op :: back := same.symm
            obtain ⟨other, member, passed, inner, rest, empty, otherOps⟩ :=
              inductionHypothesis others
            obtain ⟨rfl, rfl⟩ := List.append_eq_nil_iff.1 empty.symm
            exact ⟨other, List.mem_cons_of_mem _ member, front, [], rest, by simp, otherOps⟩
        | cons first rest =>
            obtain ⟨rfl, _⟩ : op = first ∧ _ := by simpa using same
            exact ⟨block, List.mem_cons_self, [], front, rest, rfl, ops⟩

end Body
end Code
end ScalarScript
