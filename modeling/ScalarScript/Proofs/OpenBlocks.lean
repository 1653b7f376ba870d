import Mathlib.Data.List.Permutation
import ScalarScript.Proofs.Grammatical
import ScalarScript.Proofs.Growth

/-!
# Every block ends once

While a body is being built some of its blocks are open: the one at the insertion point, and those
that were created for the arms of conditionals around it.  Nothing in an open block ends it, and
every other block ends in its only terminator.  In a grammatical body a return stands only at the
end of a block, so each piece of lowering closes what it opens, and in the end no block is open.
-/

namespace ScalarScript
namespace Code

/-- No op ends the block. -/
def Block.Open (block : Block) : Prop :=
  ∀ op ∈ block.ops, op.isTerminator = false

namespace Block.Open

variable {block : Block}

/-- A block stays open behind an instruction that does not end it. -/
theorem push
    (isOpen : block.Open)
    {op : Op}
    (straight : op.isTerminator = false) :
    (block.push op).Open := by
  rw [Open, Block.push, List.forall_mem_append]
  exact ⟨isOpen, List.forall_mem_singleton.2 straight⟩

/-- A terminator ends a block that is open. -/
theorem shaped_push
    (isOpen : block.Open)
    {op : Op}
    (ends : op.isTerminator = true) :
    (block.push op).Shaped :=
  ⟨block.ops, op, rfl, ends, isOpen⟩

theorem isTerminated_eq_false (isOpen : block.Open) : block.isTerminated = false := by
  unfold isTerminated
  cases isLast : block.ops.getLast? with
  | none => rfl
  | some op => exact isOpen op (List.mem_of_getLast? isLast)

end Block.Open

/-- The listed blocks are open, and all others end in their only terminator. -/
structure Settled (opens : List Nat) (blocks : List Block) : Prop where
  nodup : opens.Nodup
  inside : ∀ index ∈ opens, index < blocks.length
  isOpen : ∀ index ∈ opens, ∀ block, blocks[index]? = some block → block.Open
  shaped : ∀ index ∉ opens, ∀ block, blocks[index]? = some block → block.Shaped

namespace Settled

variable {opens rest : List Nat} {blocks : List Block} {index : Nat}

theorem nil : Settled [] [] where
  nodup := .nil
  inside := List.forall_mem_nil _
  isOpen := List.forall_mem_nil _
  shaped := by
    rintro index _ block ⟨⟩

theorem perm
    (settled : Settled opens blocks)
    (same : opens.Perm rest) :
    Settled rest blocks where
  nodup := same.nodup_iff.1 settled.nodup
  inside := fun index member => settled.inside index (same.mem_iff.2 member)
  isOpen := fun index member => settled.isOpen index (same.mem_iff.2 member)
  shaped := fun index absent => settled.shaped index (mt same.mem_iff.1 absent)

/-- An open block stays open when it is replaced by one that is. -/
theorem set_open
    (settled : Settled opens blocks)
    (member : index ∈ opens)
    {block : Block}
    (isOpen : block.Open) :
    Settled opens (blocks.set index block) where
  nodup := settled.nodup
  inside := by simpa using settled.inside
  isOpen := by
    intro other otherMember found otherFound
    rw [List.getElem?_set] at otherFound
    split at otherFound
    · obtain ⟨_, rfl⟩ : _ ∧ block = found := by simpa using otherFound
      exact isOpen
    · exact settled.isOpen other otherMember found otherFound
  shaped := by
    intro other absent found otherFound
    have different : index ≠ other := fun same => absent (same ▸ member)
    rw [List.getElem?_set_ne different] at otherFound
    exact settled.shaped other absent found otherFound

/-- An open block is closed when it is replaced by one with a terminator. -/
theorem set_shaped
    (settled : Settled (index :: rest) blocks)
    {block : Block}
    (shaped : block.Shaped) :
    Settled rest (blocks.set index block) where
  nodup := (List.nodup_cons.1 settled.nodup).2
  inside := by
    rw [List.length_set]
    exact fun other member => settled.inside other (.tail _ member)
  isOpen := by
    intro other member found otherFound
    have different : index ≠ other := by
      rintro rfl
      exact (List.nodup_cons.1 settled.nodup).1 member
    rw [List.getElem?_set_ne different] at otherFound
    exact settled.isOpen other (.tail _ member) found otherFound
  shaped := by
    intro other absent found otherFound
    rw [List.getElem?_set] at otherFound
    split at otherFound
    · obtain ⟨_, rfl⟩ : _ ∧ block = found := by simpa using otherFound
      exact shaped
    · rename_i different
      apply settled.shaped other _ found otherFound
      simp only [List.mem_cons, not_or]
      exact ⟨Ne.symm different, absent⟩

/-- A new block is open. -/
theorem concat
    (settled : Settled opens blocks)
    (label : String) :
    Settled (blocks.length :: opens) (blocks ++ [⟨label, []⟩]) where
  nodup := by
    apply List.nodup_cons.2
    exact ⟨fun member => Nat.lt_irrefl _ (settled.inside _ member), settled.nodup⟩
  inside := by
    rw [List.length_append, List.forall_mem_cons]
    exact ⟨Nat.lt_succ_self _, fun index member => Nat.lt_succ_of_lt (settled.inside index member)⟩
  isOpen := by
    intro index member block found
    rcases List.mem_cons.1 member with rfl | member
    · obtain rfl : (⟨label, []⟩ : Block) = block := by simpa using found
      exact List.forall_mem_nil _
    · rw [List.getElem?_append_left (settled.inside index member)] at found
      exact settled.isOpen index member block found
  shaped := by
    intro index absent block found
    simp only [List.mem_cons, not_or] at absent
    obtain ⟨isOld, absent⟩ := absent
    have inside := (List.getElem?_eq_some_iff.1 found).1
    rw [List.length_append, List.length_singleton] at inside
    rw [List.getElem?_append_left (by omega)] at found
    exact settled.shaped index absent block found

end Settled

namespace Builder

/-- New blocks are open, and the others are as before. -/
theorem settled_createBlocks
    {builder : Builder}
    {opens : List Nat}
    (settled : Settled opens builder.blocks)
    (hints : List String) :
    Settled (List.range' builder.blocks.length hints.length ++ opens)
      (builder.createBlocks hints).blocks := by
  induction hints generalizing builder opens with
  | nil => exact settled
  | cons hint hints inductionHypothesis =>
      have created : Settled (builder.blocks.length :: opens)
          (builder.createBlock hint).2.blocks := settled.concat _
      have others := inductionHypothesis created
      rw [length_createBlock] at others
      exact others.perm List.perm_middle

/-- The block at the insertion point is open, and apart from it only the listed ones are. -/
def Tidy (rest : List Nat) (builder : Builder) : Prop :=
  ∃ index block, builder.At index block ∧ Settled (index :: rest) builder.blocks

theorem tidy_opened : opened.Tidy [] :=
  ⟨0, ⟨"entry", []⟩, ⟨rfl, rfl⟩, Settled.nil.concat "entry"⟩

namespace Tidy

variable {rest : List Nat} {builder : Builder}

theorem isTerminated_eq_false (tidy : builder.Tidy rest) : builder.isTerminated = false := by
  obtain ⟨index, block, here, settled⟩ := tidy
  rw [here.isTerminated]
  exact (settled.isOpen index (.head _) block here.2).isTerminated_eq_false

/-- An instruction that does not end its block leaves everything in order. -/
theorem emit
    (tidy : builder.Tidy rest)
    {op : Op}
    (straight : op.isTerminator = false) :
    (builder.emit op).Tidy rest := by
  obtain ⟨index, block, here, settled⟩ := tidy
  refine ⟨index, _, here.emit op, ?_⟩
  rw [here.blocks_emit]
  exact settled.set_open (.head _) ((settled.isOpen index (.head _) block here.2).push straight)

/-- Straight-line code leaves everything in order. -/
theorem addAll
    (tidy : builder.Tidy rest)
    {emissions : List Emission}
    (straight : ∀ op ∈ Lowering.opsOf emissions, op.isTerminator = false) :
    (builder.addAll emissions).Tidy rest := by
  induction emissions generalizing builder with
  | nil => exact tidy
  | cons emission emissions inductionHypothesis =>
      obtain ⟨first, straight⟩ := List.forall_mem_cons.1 straight
      have allocated : (builder.allocate emission.hint emission.type).2.Tidy rest := tidy
      exact inductionHypothesis (allocated.emit first) straight

/-- A terminator closes the block at the insertion point. -/
theorem close
    (tidy : builder.Tidy rest)
    {op : Op}
    (ends : op.isTerminator = true) :
    Settled rest (builder.emit op).blocks := by
  obtain ⟨index, block, here, settled⟩ := tidy
  rw [here.blocks_emit]
  exact settled.set_shaped ((settled.isOpen index (.head _) block here.2).shaped_push ends)

theorem isTerminated_emit
    (tidy : builder.Tidy rest)
    {op : Op}
    (ends : op.isTerminator = true) :
    (builder.emit op).isTerminated = true := by
  obtain ⟨index, block, here, _⟩ := tidy
  rw [(here.emit op).isTerminated]
  simp [Block.isTerminated, Block.push, ends]

/-- New blocks are added to those that are still open. -/
theorem createBlocks
    (tidy : builder.Tidy rest)
    (hints : List String) :
    (builder.createBlocks hints).Tidy
      (List.range' builder.blocks.length hints.length ++ rest) := by
  obtain ⟨index, block, here, settled⟩ := tidy
  refine ⟨index, block, here.createBlocks hints, ?_⟩
  exact (settled_createBlocks settled hints).perm List.perm_middle

end Tidy

/-- Work goes on in an open block. -/
theorem tidy_position
    {builder : Builder}
    {index : Nat}
    {rest : List Nat}
    (settled : Settled (index :: rest) builder.blocks) :
    (builder.position index).Tidy rest :=
  ⟨index, _, ⟨rfl, List.getElem?_eq_getElem (settled.inside index (.head _))⟩, settled⟩

end Builder
end Code

/-! ## Lowering closes what it opens -/

namespace Lowering

open Code (Builder Settled)

/-- When the piece of lowering goes through, lowering can go on in an open block. -/
def Continues (build : Build Unit) : Prop :=
  ∀ rest, Keeps (Builder.Tidy rest) build

/-- When the piece of lowering goes through, the block at the insertion point is complete. -/
def Completes (build : Build Unit) : Prop :=
  ∀ rest builder final, build builder = .ok () final → builder.Tidy rest →
    final.isTerminated = true ∧ Settled rest final.blocks

/-- When the piece of lowering goes through, lowering can go on or the block is complete. -/
def Closes (build : Build Unit) : Prop :=
  ∀ rest builder final, build builder = .ok () final → builder.Tidy rest →
    final.Tidy rest ∨ final.isTerminated = true ∧ Settled rest final.blocks

theorem Continues.closes
    {build : Build Unit}
    (continues : Continues build) :
    Closes build :=
  fun rest builder final built tidy => .inl (continues rest builder final built tidy)

/-- A body that is ended where it does not end itself leaves its block closed. -/
theorem Closes.ending
    {build : Build Unit}
    (closes : Closes build)
    {op : Code.Op}
    (ends : op.isTerminator = true)
    {rest : List Nat}
    {builder final : Builder}
    (built : Lowering.ending build op builder = .ok () final)
    (tidy : builder.Tidy rest) :
    Settled rest final.blocks := by
  obtain ⟨middle, bodyBuilt, rfl⟩ := ending_ok built
  rcases closes rest _ _ bodyBuilt tidy with goesOn | ⟨complete, settled⟩
  · simp only [goesOn.isTerminated_eq_false, Bool.false_eq_true, if_false]
    exact goesOn.close ends
  · simp only [complete, if_true]
    exact settled

/-- An arm of a branch closes its block. -/
theorem Closes.arm
    {build : Build Unit}
    (closes : Closes build)
    {rest : List Nat}
    {index merge : Nat}
    {builder final : Builder}
    (built : Lowering.arm index merge build builder = .ok () final)
    (settled : Settled (index :: rest) builder.blocks) :
    Settled rest final.blocks := by
  rw [arm_eq_ending] at built
  exact closes.ending rfl built (Builder.tidy_position settled)

section

variable {table : Code.Module} {scope : Scope} (given : scope.BindsGiven)
include given

theorem Continues.evaluation (expr : Expr) :
    Continues (lowerExpr table scope expr >>= fun _ => pure ()) := by
  intro rest builder final built tidy
  rw [lowerExpr_eq_build] at built
  obtain ⟨operand, middle, exprBuilt, same⟩ := (Build.bind_eq_ok_iff ..).1 built
  obtain ⟨emissions, made, rfl⟩ := (Straight.build_eq_ok_iff ..).1 exprBuilt
  cases same
  exact tidy.addAll ((exprCode_lays table given expr).straight made)

/-- The value of an expression is returned at the end of its block. -/
theorem Completes.returned (expr : Expr) :
    Completes (lowerExpr table scope expr >>= fun operand => emit (.ret (some operand))) := by
  intro rest builder final built tidy
  rw [lowerExpr_eq_build] at built
  obtain ⟨operand, middle, exprBuilt, same⟩ := (Build.bind_eq_ok_iff ..).1 built
  obtain ⟨emissions, made, rfl⟩ := (Straight.build_eq_ok_iff ..).1 exprBuilt
  cases same
  have added := tidy.addAll ((exprCode_lays table given expr).straight made)
  exact ⟨added.isTerminated_emit rfl, added.close rfl⟩

/-- After its branch a conditional has closed the block before it and opened its own. -/
theorem forked_settled
    {condition : Expr}
    {rest : List Nat}
    {builder : Builder}
    {emissions : List Emission}
    {flag : Code.Operand}
    (made : conditionCode table scope condition builder.registers.length =
      ⟨emissions, .ok flag⟩)
    (tidy : builder.Tidy rest)
    (hints : List String) :
    Settled (List.range' (builder.addAll emissions).blocks.length hints.length ++ rest)
      (((builder.addAll emissions).createBlocks hints).emit
        (.branch flag (builder.addAll emissions).blocks.length
          ((builder.addAll emissions).blocks.length + 1))).blocks := by
  have straight := (conditionCode_lays table given condition).straight made
  exact ((tidy.addAll straight).createBlocks hints).close rfl

/-- Behind a branch, building goes on in an open block. -/
theorem Continues.conditional
    (condition : Expr)
    {thenArm : Build Unit}
    (thenCloses : Closes thenArm)
    {elseArm : Option (Build Unit)}
    (elseCloses : ∀ build, elseArm = some build → Closes build) :
    Continues (Lowering.conditional (lowerExpr table scope condition) thenArm elseArm) := by
  intro rest builder final built tidy
  cases elseArm with
  | none =>
      obtain ⟨emissions, flag, size, last, made, rfl, armBuilt, rfl⟩ := conditional_none_ok built
      have forked := forked_settled given made tidy ["then", "ifcont"]
      exact Builder.tidy_position (thenCloses.arm armBuilt forked)
  | some elseArm =>
      obtain ⟨emissions, flag, size, middle, last, made, rfl, thenBuilt, elseBuilt, rfl⟩ :=
        conditional_some_ok built
      have forked := forked_settled given made tidy ["then", "else", "ifcont"]
      have afterThen := thenCloses.arm thenBuilt forked
      exact Builder.tidy_position ((elseCloses elseArm rfl).arm elseBuilt afterThen)

omit given in
/-- Statements one after another go on in an open block. -/
theorem lowerStmts_continues
    {statements : List Stmt}
    (continues : ∀ statement ∈ statements, Continues (lowerBodyStmt table scope statement)) :
    Continues (lowerStmts table scope statements) := by
  induction statements with
  | nil =>
      intro rest builder final built tidy
      rw [lowerStmts] at built
      cases built
      exact tidy
  | cons statement statements inductionHypothesis =>
      obtain ⟨first, others⟩ := List.forall_mem_cons.1 continues
      intro rest builder final built tidy
      rw [lowerStmts] at built
      obtain ⟨_, middle, firstBuilt, othersBuilt⟩ := (Build.bind_eq_ok_iff ..).1 built
      exact inductionHypothesis others rest _ _ othersBuilt (first rest _ _ firstBuilt tidy)

/-- A return ends its block. -/
theorem lowerReturn_completes (value : Return) :
    Completes (lowerReturn table scope value) := by
  unfold lowerReturn
  cases value.value with
  | some expr => exact .returned given expr
  | none =>
      intro rest builder final built tidy
      cases built
      exact ⟨tidy.isTerminated_emit rfl, tidy.close rfl⟩

/-- A return stands only at the end of a block. -/
theorem lowerBlock_closes
    {statements : List Stmt}
    (continues : ∀ statement ∈ statements, Continues (lowerBodyStmt table scope statement))
    (tail : Option Return) :
    Closes (lowerBlock table scope (.mk statements tail)) := by
  have first := lowerStmts_continues continues
  intro rest builder final built tidy
  cases tail with
  | none =>
      rw [lowerBlock] at built
      obtain ⟨_, middle, stmtsBuilt, same⟩ := (Build.bind_eq_ok_iff ..).1 built
      cases same
      exact .inl (first rest _ _ stmtsBuilt tidy)
  | some value =>
      rw [lowerBlock] at built
      obtain ⟨_, middle, stmtsBuilt, tailBuilt⟩ := (Build.bind_eq_ok_iff ..).1 built
      exact .inr (lowerReturn_completes given value rest _ _ tailBuilt
        (first rest _ _ stmtsBuilt tidy))

/-- A statement inside a function closes all blocks that it opens but the last. -/
theorem lowerBodyStmt_continues
    {statement : Stmt}
    (inner : statement.Inner) :
    Continues (lowerBodyStmt table scope statement) := by
  induction inner with
  | @expression proto body _ _ =>
      rw [lowerBodyStmt]
      exact .evaluation given body
  | @done condition statements tail _ _ _ _ thenContinues =>
      rw [lowerBodyStmt]
      apply Continues.conditional given condition (lowerBlock_closes given thenContinues tail)
      rintro _ ⟨⟩
  | @otherwise condition statements others tail otherTail _ _ _ _ _ _ thenContinues
      elseContinues =>
      rw [lowerBodyStmt]
      apply Continues.conditional given condition (lowerBlock_closes given thenContinues tail)
      rintro _ ⟨⟩
      exact lowerBlock_closes given elseContinues otherTail
  | @elif condition _ statements tail _ _ _ _ _ _ _ _ _ thenContinues elseContinues =>
      rw [lowerBodyStmt]
      apply Continues.conditional given condition (lowerBlock_closes given thenContinues tail)
      rintro _ ⟨⟩
      exact elseContinues.closes

/-- What the body of a function is made from is grammatical. -/
def Source.Grammatical : Source → Prop
  | .block body => body.Grammatical
  | .expr body => body.Grammatical

/-- In the body that is made for a grammatical tree every block ends in its only terminator. -/
theorem lowerSource_shaped
    {source : Source}
    (grammatical : source.Grammatical)
    {final : Builder}
    (built : lowerSource table scope source .opened = .ok () final) :
    ∀ block ∈ final.body.blocks, block.Shaped := by
  have settled : Settled [] final.blocks := by
    cases source with
    | block body =>
        obtain ⟨statements, tail⟩ := body
        rw [lowerSource_block_eq_ending] at built
        apply (lowerBlock_closes given _ tail).ending rfl built Builder.tidy_opened
        exact fun statement member => lowerBodyStmt_continues given (grammatical.1 statement member)
    | expr body => exact (Completes.returned given body [] _ _ built Builder.tidy_opened).2
  intro block member
  obtain ⟨index, found⟩ := List.getElem?_of_mem member
  exact settled.shaped index List.not_mem_nil block found

end

end Lowering
end ScalarScript
