import ScalarScript.Proofs.Growth
import ScalarScript.Proofs.Paths
import ScalarScript.Proofs.Statement

/-!
# Registers are written before they are read

Lowering never carries a value from one block to another: whatever an op reads from a
register was written by an op before it in the same block.  `Builder.Orderly` states this
of a body under construction, and every piece of lowering keeps it.  It follows that on
every path through the blocks of a lowered body a register is written, with the type that
the reading op expects, before it is read.
-/

namespace ScalarScript
namespace Code

/-! ## Ops in order -/

/-- Each op reads only what is there after the ops before it. -/
def Ordered (ops : List Op) : Prop :=
  ∀ front op back, ops = front ++ op :: back → ∀ read ∈ op.reads, Available front read

theorem Ordered.nil : Ordered [] := by
  intro front op back split
  simp at split

theorem Ordered.concat
    {ops : List Op}
    (ordered : Ordered ops)
    {op : Op}
    (reads : ∀ read ∈ op.reads, Available ops read) :
    Ordered (ops ++ [op]) := by
  intro front other back split
  rcases List.eq_nil_or_concat back with rfl | ⟨middle, last, rfl⟩
  · obtain ⟨rfl, same⟩ := List.append_inj' split rfl
    obtain rfl : op = other := by simpa using same
    exact reads
  · rw [List.concat_eq_append, ← List.cons_append, ← List.append_assoc] at split
    obtain ⟨earlier, _⟩ := List.append_inj' split rfl
    exact ordered front other middle earlier

namespace Body

/-- In every block each op reads only what ops before it in the block have written. -/
def Orderly (body : Body) : Prop :=
  ∀ block ∈ body.blocks, Ordered block.ops

/-- A well-formed body whose blocks are in order writes registers before it reads them. -/
theorem Orderly.writesFirst
    {body : Body}
    (orderly : body.Orderly)
    (once : (dests body.ops).Nodup) :
    body.WritesFirst := by
  intro blocks path front op back split index type isRead
  obtain ⟨block, member, passed, inner, rest, rfl, inBlock⟩ := exists_block_of_flatMap split
  have inBody := path.mem_blocks member
  obtain ⟨writer, writerMember, writes⟩ := orderly block inBody inner op rest inBlock _ isRead
  obtain ⟨before, between, rfl⟩ := List.append_of_mem writerMember
  refine ⟨passed ++ before, writer, between, by simp, writes, ?_⟩
  intro other otherMember again
  -- otherwise two ops of the block would write the register
  have isDest := Op.dest?_of_result? writes
  have blockOnce : (dests block.ops).Nodup := by
    refine once.sublist (List.Sublist.filterMap _ ?_)
    exact List.sublist_flatten_of_mem (List.mem_map.2 ⟨block, inBody, rfl⟩)
  rw [inBlock, List.append_assoc, List.cons_append, dests_append, dests_cons, isDest,
    dests_append, Option.toList_some, List.singleton_append] at blockOnce
  have fresh := (List.nodup_cons.1 (List.nodup_append.1 blockOnce).2.1).1
  exact fresh (List.mem_append_left _ (List.mem_filterMap.2 ⟨other, otherMember, again⟩))

end Body

/-! ## Builders in order -/

namespace Builder

/-- The insertion point is at a block, and all blocks are in order. -/
structure Orderly (builder : Builder) : Prop where
  placed : ∃ index block, builder.At index block
  ordered : builder.body.Orderly

theorem Orderly.opened : opened.Orderly where
  placed := ⟨0, ⟨"entry", []⟩, rfl, rfl⟩
  ordered := by
    intro block member
    obtain rfl : block = ⟨"entry", []⟩ := List.mem_singleton.1 member
    exact .nil

/-- An op that reads what its block has written keeps the order. -/
theorem Orderly.emit
    {builder : Builder}
    (orderly : builder.Orderly)
    {index : Nat}
    {block : Block}
    (here : builder.At index block)
    {op : Op}
    (reads : ∀ read ∈ op.reads, Available block.ops read) :
    (builder.emit op).Orderly where
  placed := ⟨index, _, here.emit op⟩
  ordered := by
    obtain ⟨insertion, found⟩ := here
    intro other member
    simp only [Builder.emit, insertion, push, found, body] at member
    rcases List.mem_or_eq_of_mem_set member with former | rfl
    · exact orderly.ordered other former
    · exact (orderly.ordered block (List.mem_of_getElem? found)).concat reads

/-- An op that reads nothing keeps the order. -/
theorem Orderly.emit_closed
    {builder : Builder}
    (orderly : builder.Orderly)
    {op : Op}
    (closed : op.reads = []) :
    (builder.emit op).Orderly := by
  obtain ⟨index, block, here⟩ := orderly.placed
  refine orderly.emit here ?_
  rw [closed]
  intro read member
  cases member

theorem Orderly.addAll
    {builder : Builder}
    (orderly : builder.Orderly)
    {index : Nat}
    {block : Block}
    (here : builder.At index block)
    {low : Nat}
    {emissions : List Emission}
    (laid : Lowering.Laid low block.ops emissions) :
    (builder.addAll emissions).Orderly := by
  induction emissions generalizing builder block low with
  | nil => exact orderly
  | cons emission emissions inductionHypothesis =>
      obtain ⟨_, reads, others⟩ := laid
      have allocated : (builder.allocate emission.hint emission.type).2.Orderly :=
        ⟨orderly.placed, orderly.ordered⟩
      have added : (builder.add emission).Orderly := allocated.emit here reads
      exact inductionHypothesis added (here.add emission) others

theorem Orderly.createBlocks
    {builder : Builder}
    (orderly : builder.Orderly)
    (hints : List String) :
    (builder.createBlocks hints).Orderly := by
  induction hints generalizing builder with
  | nil => exact orderly
  | cons hint hints inductionHypothesis =>
      obtain ⟨index, block, here⟩ := orderly.placed
      refine inductionHypothesis ⟨⟨index, block, here.createBlock hint⟩, ?_⟩
      intro other member
      rcases List.mem_append.1 member with former | new
      · exact orderly.ordered other former
      · obtain rfl := List.mem_singleton.1 new
        exact .nil

theorem Orderly.position
    {builder : Builder}
    (orderly : builder.Orderly)
    {index : Nat}
    (inside : index < builder.blocks.length) :
    (builder.position index).Orderly where
  placed := ⟨index, _, rfl, List.getElem?_eq_getElem inside⟩
  ordered := orderly.ordered

end Builder
end Code

/-! ## Lowering keeps the order -/

namespace Lowering

open Code (Available Builder)

/-- Straight-line code that is laid keeps the order, and what holds after it holds of the
ops at the insertion point. -/
theorem Straight.Lays.orderly
    {α : Type}
    {straight : Straight α}
    {after : α → List Code.Op → Prop}
    (lays : straight.Lays (fun _ => True) after)
    {builder : Builder}
    (orderly : builder.Orderly)
    {emissions : List Emission}
    {value : α}
    (made : straight builder.registers.length = ⟨emissions, .ok value⟩) :
    (builder.addAll emissions).Orderly ∧
      ∃ index block, (builder.addAll emissions).At index block ∧ after value block.ops := by
  obtain ⟨index, block, here⟩ := orderly.placed
  obtain ⟨laid, result⟩ := lays builder.registers.length block.ops trivial
  rw [made] at laid result
  exact ⟨orderly.addAll here laid, index, _, here.addAll emissions, result value rfl⟩

/-- Every step of lowering keeps the order: what the op at the end of some code reads is there
after the code. -/
theorem orderly_invariant
    {table : Code.Module}
    {scope : Scope}
    (given : scope.BindsGiven) :
    Invariant table scope Builder.Orderly where
  evaluation := by
    intro expr builder emissions operand made orderly
    obtain ⟨added, index, block, here, available⟩ :=
      (exprCode_lays table given expr).orderly orderly made
    refine ⟨added, added.emit here ?_⟩
    intro read member
    obtain rfl : read = (operand, .double) := List.mem_singleton.1 member
    exact available
  finish := fun orderly => orderly.emit_closed rfl
  jump := fun _ orderly => orderly.emit_closed rfl
  fork := by
    intro condition builder emissions flag hints made _ orderly
    obtain ⟨added, index, block, here, available⟩ :=
      (conditionCode_lays table given condition).orderly orderly made
    refine (added.createBlocks hints).emit (here.createBlocks hints) ?_
    intro read member
    obtain rfl : read = (flag, .bool) := List.mem_singleton.1 member
    exact available
  position := fun inside orderly => orderly.position inside

/-! ## Tables in order -/

/-- The bodies of all functions in the table are in order. -/
def BodiesOrderly (table : Code.Module) : Prop :=
  ∀ name function body, table.find? name = some function → function.body = some body →
    body.Orderly

theorem Built.orderly
    {function : Code.Function}
    (built : Built function)
    {body : Code.Body}
    (code : function.body = some body) :
    body.Orderly := by
  obtain ⟨table, proto, source, builder, built, rfl⟩ := built
  cases code
  have given := Scope.bindsGiven_ofParams proto.name proto.params
  exact ((orderly_invariant given).source (.block source) _ _ built .opened).ordered

/-- In a table without defects, bodies in order write registers before they read them. -/
theorem BodiesOrderly.writesFirst
    {table : Code.Module}
    (orderly : BodiesOrderly table)
    (sound : Sound table)
    {function : Code.Function}
    (member : function ∈ table.functions)
    {body : Code.Body}
    (code : function.body = some body) :
    body.WritesFirst := by
  have wellFormed := Code.Module.wellFormed_of_verify sound.verified member code
  have found := sound.distinct.find?_of_mem member
  exact (orderly _ function body found code).writesFirst wellFormed.once

end Lowering
end ScalarScript
