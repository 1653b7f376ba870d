import Mathlib.Data.List.Chain
import Mathlib.Logic.Relation
import ScalarScript.Proofs.Growth
import ScalarScript.Proofs.Statement

/-!
# Lowered code has no loops

The numbers of blocks say nothing about the order in which they run: where the arms of an
inner conditional meet, the code goes on to the block where the arms of an outer one meet,
and that block was made before.  What does hold is that a branch is only ever added towards
a block that is still empty.  Such a branch closes no cycle, so the blocks of a lowered body
form a graph without cycles.
-/

namespace ScalarScript

/-- Edges towards points that nothing leaves close no cycle. -/
theorem acyclic_of_sinks
    {old new : Nat → Nat → Prop}
    (sink : Nat → Prop)
    (acyclic : ∀ index, ¬ Relation.TransGen old index index)
    (added : ∀ source target, new source target → old source target ∨ sink target)
    (final : ∀ source target, sink source → ¬ new source target)
    (index : Nat) :
    ¬ Relation.TransGen new index index := by
  -- a path of the new graph is one of the old graph, or it ends in a sink
  have paths : ∀ target, Relation.TransGen new index target →
      Relation.TransGen old index target ∨ sink target := by
    intro target path
    induction path with
    | single edge => exact (added _ _ edge).imp_left .single
    | tail _ edge inductionHypothesis =>
        rcases inductionHypothesis with former | isSink
        · exact (added _ _ edge).imp_left former.tail
        · exact absurd edge (final _ _ isSink)
  intro cycle
  rcases paths index cycle with former | isSink
  · exact acyclic index former
  · obtain ⟨target, edge, _⟩ := Relation.TransGen.head'_iff.1 cycle
    exact final _ _ isSink edge

namespace Code

/-! ## The graph of a body -/

namespace Body

/-- An op of one block may go to the other. -/
def LeadsTo (body : Body) (source target : Nat) : Prop :=
  ∃ block, body.blocks[source]? = some block ∧ ∃ op ∈ block.ops, target ∈ op.successors

/-- No block can be reached from itself. -/
def Acyclic (body : Body) : Prop :=
  ∀ index, ¬ Relation.TransGen body.LeadsTo index index

/-- Blocks that lead from one to the next are different. -/
theorem Acyclic.nodup
    {body : Body}
    (acyclic : body.Acyclic)
    {indices : List Nat}
    (chain : indices.IsChain body.LeadsTo) :
    indices.Nodup := by
  have paths : indices.IsChain (Relation.TransGen body.LeadsTo) :=
    chain.imp fun _ _ edge => .single edge
  refine (List.isChain_iff_pairwise.1 paths).imp ?_
  rintro source _ path rfl
  exact acyclic source path

end Body

theorem successors_of_straight
    {op : Op}
    (straight : op.isTerminator = false) :
    op.successors = [] := by
  cases op with
  | jump | branch | ret => cases straight
  | _ => rfl

/-! ## Builders without cycles -/

namespace Builder

/-- The insertion point is at a block, and the blocks form no cycle. -/
structure Forward (builder : Builder) : Prop where
  placed : ∃ index block, builder.At index block
  acyclic : builder.body.Acyclic

theorem Forward.opened : opened.Forward where
  placed := ⟨0, ⟨"entry", []⟩, rfl, rfl⟩
  acyclic := by
    have isolated : ∀ source target, ¬ Builder.opened.body.LeadsTo source target := by
      rintro source target ⟨block, found, op, member, _⟩
      obtain rfl : block = ⟨"entry", []⟩ := List.mem_singleton.1 (List.mem_of_getElem? found)
      cases member
    intro index cycle
    obtain ⟨target, edge, _⟩ := Relation.TransGen.head'_iff.1 cycle
    exact isolated _ _ edge

/-- An op at the insertion point adds edges to its targets only. -/
theorem leadsTo_emit
    {builder : Builder}
    {index : Nat}
    {block : Block}
    (here : builder.At index block)
    {op : Op}
    {source target : Nat}
    (leads : (builder.emit op).body.LeadsTo source target) :
    builder.body.LeadsTo source target ∨ source = index ∧ target ∈ op.successors := by
  obtain ⟨insertion, found⟩ := here
  obtain ⟨later, laterFound, other, member, isTarget⟩ := leads
  simp only [Builder.emit, insertion, push, found, body] at laterFound
  by_cases same : index = source
  · subst same
    have inside := (List.getElem?_eq_some_iff.1 found).1
    obtain rfl : block.push op = later := by simpa [inside] using laterFound
    rcases List.mem_append.1 member with former | new
    · exact .inl ⟨block, found, other, former, isTarget⟩
    · obtain rfl := List.mem_singleton.1 new
      exact .inr ⟨rfl, isTarget⟩
  · rw [List.getElem?_set_ne same] at laterFound
    exact .inl ⟨later, laterFound, other, member, isTarget⟩

/-- Nothing leaves an empty block. -/
theorem EmptyAt.not_leadsTo
    {builder : Builder}
    {index : Nat}
    (empty : builder.EmptyAt index)
    (target : Nat) :
    ¬ builder.body.LeadsTo index target := by
  rintro ⟨block, found, op, member, _⟩
  obtain ⟨label, emptyFound⟩ := empty
  obtain rfl : (⟨label, []⟩ : Block) = block := by simpa [body, emptyFound] using found
  cases member

/-- The block is empty and not the one at the insertion point. -/
def Ahead (builder : Builder) (index : Nat) : Prop :=
  builder.EmptyAt index ∧ builder.insertion ≠ some index

/-- An op that goes only to blocks ahead closes no cycle. -/
theorem Forward.emit
    {builder : Builder}
    (forward : builder.Forward)
    {op : Op}
    (ahead : ∀ target ∈ op.successors, builder.Ahead target) :
    (builder.emit op).Forward := by
  obtain ⟨index, block, here⟩ := forward.placed
  refine ⟨⟨index, _, here.emit op⟩, ?_⟩
  refine acyclic_of_sinks (· ∈ op.successors) forward.acyclic ?_ ?_
  · intro source target leads
    exact (leadsTo_emit here leads).imp_right And.right
  · intro source target isTarget leads
    obtain ⟨empty, elsewhere⟩ := ahead source isTarget
    rcases leadsTo_emit here leads with former | ⟨rfl, _⟩
    · exact empty.not_leadsTo target former
    · exact elsewhere here.1

theorem Forward.emit_straight
    {builder : Builder}
    (forward : builder.Forward)
    {op : Op}
    (closed : op.successors = []) :
    (builder.emit op).Forward := by
  refine forward.emit ?_
  rw [closed]
  intro target member
  cases member

theorem Forward.addAll
    {builder : Builder}
    (forward : builder.Forward)
    {emissions : List Emission}
    (straight : ∀ op ∈ Lowering.opsOf emissions, op.isTerminator = false) :
    (builder.addAll emissions).Forward := by
  induction emissions generalizing builder with
  | nil => exact forward
  | cons emission emissions inductionHypothesis =>
      rw [Lowering.opsOf, List.map_cons, List.forall_mem_cons] at straight
      have allocated : (builder.allocate emission.hint emission.type).2.Forward :=
        ⟨forward.placed, forward.acyclic⟩
      have added : (builder.add emission).Forward :=
        allocated.emit_straight (successors_of_straight straight.1)
      exact inductionHypothesis added straight.2

theorem Forward.createBlocks
    {builder : Builder}
    (forward : builder.Forward)
    (hints : List String) :
    (builder.createBlocks hints).Forward := by
  induction hints generalizing builder with
  | nil => exact forward
  | cons hint hints inductionHypothesis =>
      obtain ⟨index, block, here⟩ := forward.placed
      refine inductionHypothesis ⟨⟨index, block, here.createBlock hint⟩, ?_⟩
      refine acyclic_of_sinks (fun _ => False) forward.acyclic ?_ (fun _ _ => nofun)
      rintro source target ⟨other, found, op, member, isTarget⟩
      change (builder.blocks ++ [⟨builder.freshName hint, []⟩])[source]? = some other at found
      rw [List.getElem?_append] at found
      split at found
      · exact .inl ⟨other, found, op, member, isTarget⟩
      · obtain rfl := List.mem_singleton.1 (List.mem_of_getElem? found)
        cases member

theorem Forward.position
    {builder : Builder}
    (forward : builder.Forward)
    {index : Nat}
    (inside : index < builder.blocks.length) :
    (builder.position index).Forward where
  placed := ⟨index, _, rfl, List.getElem?_eq_getElem inside⟩
  acyclic := forward.acyclic

theorem EmptyAt.inside
    {builder : Builder}
    {index : Nat}
    (empty : builder.EmptyAt index) :
    index < builder.blocks.length := by
  obtain ⟨label, found⟩ := empty
  exact (List.getElem?_eq_some_iff.1 found).1

/-- What is ahead stays so while other blocks are worked on. -/
theorem Ahead.grows
    {before after : Builder}
    {index : Nat}
    (ahead : before.Ahead index)
    (grows : before.Grows after) :
    after.Ahead index := by
  obtain ⟨empty, elsewhere⟩ := ahead
  refine ⟨empty.grows grows elsewhere, ?_⟩
  rcases grows.insertion with same | ⟨other, moved, new, _⟩
  · rwa [same]
  · have inside := empty.inside
    rw [moved, ne_eq, Option.some.injEq]
    omega

/-- New blocks are ahead. -/
theorem Ahead.createBlocks
    {builder : Builder}
    {index : Nat}
    {block : Block}
    (here : builder.At index block)
    {hints : List String}
    {other : Nat}
    (new : builder.blocks.length ≤ other)
    (inside : other < builder.blocks.length + hints.length) :
    (builder.createBlocks hints).Ahead other := by
  have old := (List.getElem?_eq_some_iff.1 here.2).1
  have elsewhere : builder.insertion ≠ some other := by
    rw [here.1, ne_eq, Option.some.injEq]
    omega
  exact ⟨.createBlocks new inside elsewhere, by rwa [insertion_createBlocks]⟩

end Builder
end Code

/-! ## Lowering makes no cycles -/

namespace Lowering

open Code (Builder)

/-- When the piece of lowering goes through, it has closed no cycle. -/
def Forwards (build : Build Unit) : Prop :=
  ∀ builder final, build builder = .ok () final → builder.Forward → final.Forward

section

variable {table : Code.Module} {scope : Scope}

theorem Forwards.emit
    {op : Code.Op}
    (closed : op.successors = []) :
    Forwards (Lowering.emit op) := by
  intro builder final built forward
  cases built
  exact forward.emit_straight closed

/-- An expression and what comes after it. -/
theorem Forwards.expression
    (given : scope.BindsGiven)
    (expr : Expr)
    {next : Code.Operand → Build Unit}
    (nextForwards : ∀ operand, Forwards (next operand)) :
    Forwards (lowerExpr table scope expr >>= next) := by
  intro builder final built forward
  obtain ⟨operand, middle, exprBuilt, nextBuilt⟩ := (Build.bind_eq_ok_iff ..).1 built
  rw [lowerExpr_eq_build, Straight.build_eq_ok_iff] at exprBuilt
  obtain ⟨emissions, made, rfl⟩ := exprBuilt
  have straight := (exprCode_lays table given expr).straight made
  exact nextForwards operand _ _ nextBuilt (forward.addAll straight)

theorem Forwards.pure : Forwards (Pure.pure ()) := by
  intro builder final built forward
  cases built
  exact forward

theorem lowerReturn_forwards
    (given : scope.BindsGiven)
    (value : Return) :
    Forwards (lowerReturn table scope value) := by
  unfold lowerReturn
  cases value.value with
  | none => exact .emit rfl
  | some expr => exact .expression given expr fun operand => .emit rfl

/-- Code that is ended by an op towards blocks ahead closes no cycle. -/
theorem Forwards.ending
    {build : Build Unit}
    (forwards : Forwards build)
    (growing : Growing build)
    {op : Code.Op}
    {builder final : Builder}
    (built : Lowering.ending build op builder = .ok () final)
    (forward : builder.Forward)
    (ahead : ∀ target ∈ op.successors, builder.Ahead target) :
    final.Forward := by
  obtain ⟨middle, bodyBuilt, rfl⟩ := ending_ok built
  have kept := forwards _ _ bodyBuilt forward
  split
  · exact kept
  · exact kept.emit fun target isTarget => (ahead target isTarget).grows (growing _ _ bodyBuilt)

/-- An arm goes on to the block where the arms meet, which is still ahead. -/
theorem Forwards.arm
    {build : Build Unit}
    (forwards : Forwards build)
    (growing : Growing build)
    {index merge : Nat}
    {builder final : Builder}
    (built : Lowering.arm index merge build builder = .ok () final)
    (forward : builder.Forward)
    (inside : index < builder.blocks.length)
    (empty : builder.EmptyAt merge)
    (different : index ≠ merge) :
    final.Forward := by
  rw [arm_eq_ending] at built
  refine forwards.ending growing built (forward.position inside) ?_
  intro target isTarget
  obtain rfl : target = merge := List.mem_singleton.1 isTarget
  refine ⟨empty, ?_⟩
  rw [Builder.position, ne_eq, Option.some.injEq]
  exact different

/-- The branch of a conditional goes to blocks that were just made. -/
theorem forked_forward
    (given : scope.BindsGiven)
    {condition : Expr}
    {builder : Builder}
    {emissions : List Emission}
    {flag : Code.Operand}
    (made : conditionCode table scope condition builder.registers.length =
      ⟨emissions, .ok flag⟩)
    (forward : builder.Forward)
    {hints : List String}
    {thenIndex elseIndex : Nat}
    (new : ∀ target ∈ [thenIndex, elseIndex],
      (builder.addAll emissions).blocks.length ≤ target ∧
        target < (builder.addAll emissions).blocks.length + hints.length) :
    (((builder.addAll emissions).createBlocks hints).emit
      (.branch flag thenIndex elseIndex)).Forward := by
  have added := forward.addAll ((conditionCode_lays table given condition).straight made)
  obtain ⟨index, block, here⟩ := added.placed
  refine (added.createBlocks hints).emit ?_
  intro target isTarget
  exact .createBlocks here (new target isTarget).1 (new target isTarget).2

theorem Forwards.conditional
    (given : scope.BindsGiven)
    (condition : Expr)
    {thenArm : Build Unit}
    (thenForwards : Forwards thenArm)
    (thenGrowing : Growing thenArm)
    {elseArm : Option (Build Unit)}
    (elseForwards : ∀ build, elseArm = some build → Forwards build)
    (elseGrowing : ∀ build, elseArm = some build → Growing build) :
    Forwards (Lowering.conditional (lowerExpr table scope condition) thenArm elseArm) := by
  intro builder final built forward
  obtain ⟨index, block, here⟩ := forward.placed
  cases elseArm with
  | none =>
      obtain ⟨emissions, flag, size, last, made, sizeEq, armBuilt, rfl⟩ :=
        conditional_none_ok built
      have forked : (((builder.addAll emissions).createBlocks ["then", "ifcont"]).emit
          (.branch flag size (size + 1))).Forward := by
        refine forked_forward given made forward ?_
        simp only [List.forall_mem_cons, List.length_cons, List.length_nil, ← sizeEq]
        refine ⟨by omega, by omega, nofun⟩
      have empty := forked_emptyAt here emissions ["then", "ifcont"]
        (.branch flag size (size + 1))
      have thenGrows := thenGrowing.arm armBuilt
      simp only [List.length_cons, List.length_nil, ← sizeEq] at empty
      have thenEmpty := empty size (by omega) (by omega)
      have mergeEmpty := empty (size + 1) (by omega) (by omega)
      have afterThen := thenForwards.arm thenGrowing armBuilt forked thenEmpty.inside mergeEmpty
        (by omega)
      exact afterThen.position (mergeEmpty.position thenGrows (by omega)).inside
  | some elseArm =>
      obtain ⟨emissions, flag, size, middle, last, made, sizeEq, thenBuilt, elseBuilt, rfl⟩ :=
        conditional_some_ok built
      have forked : (((builder.addAll emissions).createBlocks ["then", "else", "ifcont"]).emit
          (.branch flag size (size + 1))).Forward := by
        refine forked_forward given made forward ?_
        simp only [List.forall_mem_cons, List.length_cons, List.length_nil, ← sizeEq]
        refine ⟨by omega, by omega, nofun⟩
      have empty := forked_emptyAt here emissions ["then", "else", "ifcont"]
        (.branch flag size (size + 1))
      have thenGrows := thenGrowing.arm thenBuilt
      have elseGrows := (elseGrowing elseArm rfl).arm elseBuilt
      simp only [List.length_cons, List.length_nil, ← sizeEq] at empty
      have thenEmpty := empty size (by omega) (by omega)
      have mergeEmpty := empty (size + 2) (by omega) (by omega)
      have afterThen := thenForwards.arm thenGrowing thenBuilt forked thenEmpty.inside mergeEmpty
        (by omega)
      -- the blocks of the other arm and of the meeting point are untouched by the first arm
      have elseEmpty := (empty (size + 1) (by omega) (by omega)).position thenGrows (by omega)
      have mergeStillEmpty := mergeEmpty.position thenGrows (by omega)
      have afterElse := (elseForwards elseArm rfl).arm (elseGrowing elseArm rfl) elseBuilt
        afterThen elseEmpty.inside mergeStillEmpty (by omega)
      exact afterElse.position (mergeStillEmpty.position elseGrows (by omega)).inside

/-- No piece of lowering closes a cycle. -/
theorem Piece.forwards
    (given : scope.BindsGiven)
    {build : Build Unit}
    (piece : Piece table scope build) :
    Forwards build := by
  induction piece with
  | nothing => exact .pure
  | refused error =>
      intro builder final built
      cases built
  | evaluation expr => exact .expression given expr fun _ => .pure
  | ret value => exact lowerReturn_forwards given value
  | sequence _ _ firstForwards secondForwards =>
      intro builder final built forward
      obtain ⟨_, middle, firstBuilt, secondBuilt⟩ := (Build.bind_eq_ok_iff ..).1 built
      exact secondForwards _ _ secondBuilt (firstForwards _ _ firstBuilt forward)
  | conditional condition thenPiece elsePiece thenForwards elseForwards =>
      exact .conditional given condition thenForwards thenPiece.growing elseForwards
        fun build same => (elsePiece build same).growing

theorem lowerSource_acyclic
    (given : scope.BindsGiven)
    {source : Source}
    {builder : Builder}
    (built : lowerSource table scope source .opened = .ok () builder) :
    builder.body.Acyclic := by
  cases source with
  | block body =>
      rw [lowerSource_block_eq_ending] at built
      have piece := lowerBlock_piece table scope body
      exact ((piece.forwards given).ending piece.growing built .opened nofun).acyclic
  | expr body =>
      have forwards : Forwards (lowerSource table scope (.expr body)) :=
        .expression given body fun operand => .emit rfl
      exact (forwards _ _ built .opened).acyclic

end

/-! ## Bodies in tables -/

/-- Announcing a function changes its parameters and no other function. -/
theorem find?_announce
    (table : Code.Module)
    (proto : Prototype)
    (other : String) :
    (announce table proto).find? other =
      if other = proto.name then
        some ⟨proto.name, proto.params, (table.find? proto.name).bind Code.Function.body⟩
      else table.find? other := by
  have keepsName : ∀ function : Code.Function, function.name = proto.name →
      ({ function with params := proto.params } : Code.Function).name = proto.name :=
    fun _ same => same
  rw [announce, Code.Module.setParams, Code.Module.find?_modify _ _ _ _ keepsName,
    Code.Module.declare]
  cases found : table.find? proto.name with
  | some former =>
      have sameName := Code.Module.name_of_find? found
      simp [found, sameName]
  | none =>
      have absent : table.find? (⟨proto.name, proto.params, none⟩ : Code.Function).name = none :=
        found
      simp only [Option.isSome_none, Bool.false_eq_true, if_false,
        Code.Module.find?_append _ _ absent]
      split <;> simp

/-- A definition that went through has attached a body without cycles, and no other. -/
theorem defineFunction_attached
    {proto : Prototype}
    {source : Source}
    {table : Code.Module}
    (undefined : (table.find? proto.name).bind Code.Function.body = none)
    {former : Option Code.Function}
    {name : String}
    (succeeded : (defineFunction proto source table former).result = .ok name)
    {other : String}
    {function : Code.Function}
    (found : (defineFunction proto source table former).table.find? other = some function)
    {body : Code.Body}
    (code : function.body = some body) :
    table.find? other = some function ∨ other = name ∧ body.Acyclic := by
  have given := Scope.bindsGiven_ofParams proto.name proto.params
  unfold defineFunction at succeeded found
  cases built : lowerSource (announce table proto) (Scope.ofParams proto.name proto.params) source
      .opened with
  | error error builder =>
      simp only [built] at succeeded
      cases succeeded
  | ok _ builder =>
      have acyclic := lowerSource_acyclic given built
      -- the announced function has no body yet, so it takes the one that was built
      have present := find?_announce table proto proto.name
      rw [if_pos rfl, undefined] at present
      have defined : (announce table proto).define? proto.name builder.body =
          some ((announce table proto).modify proto.name
            fun function => { function with body := some builder.body }) := by
        simp [Code.Module.define?, present, Code.Function.isDefined]
      simp only [built, defined, Option.getD_some] at succeeded found
      split at succeeded
      · rename_i verified
        cases succeeded
        simp only [verified] at found
        have keepsName : ∀ function : Code.Function, function.name = proto.name →
            ({ function with body := some builder.body } : Code.Function).name = proto.name :=
          fun _ same => same
        rw [Code.Module.find?_modify _ _ _ _ keepsName] at found
        split at found
        · rename_i same
          rw [present, Option.map_some, Option.some.injEq] at found
          rw [← found, Option.some.injEq] at code
          exact .inr ⟨same, code ▸ acyclic⟩
        · rename_i different
          rw [find?_announce, if_neg different] at found
          exact .inl found
      · cases succeeded

theorem lowerFunction_attached
    {proto : Prototype}
    {source : Source}
    {table : Code.Module}
    {scope : Scope}
    {name : String}
    (succeeded : (lowerFunction proto source table scope).result = .ok name)
    {other : String}
    {function : Code.Function}
    (found : (lowerFunction proto source table scope).table.find? other = some function)
    {body : Code.Body}
    (code : function.body = some body) :
    table.find? other = some function ∨ other = name ∧ body.Acyclic := by
  unfold lowerFunction at succeeded found
  cases present : table.find? proto.name with
  | none =>
      simp only [present] at succeeded found
      exact defineFunction_attached (by rw [present]; rfl) succeeded found code
  | some former =>
      simp only [present] at succeeded found
      split at succeeded
      · cases succeeded
      · rename_i notDefined
        have undefined : former.body = none := by
          simpa [Code.Function.isDefined] using notDefined
        simp only [notDefined] at found
        split at succeeded
        · cases succeeded
        · rename_i sameArity
          simp only [sameArity, if_false] at found
          exact defineFunction_attached (by rw [present]; exact undefined) succeeded found code

/-- The bodies after a statement that went through are those that were there before and one,
under the name of the statement, without cycles. -/
theorem lowerStmt_attached
    {statement : Stmt}
    {table : Code.Module}
    {scope : Scope}
    {name : String}
    (succeeded : (lowerStmt statement table scope).result = .ok name)
    {other : String}
    {function : Code.Function}
    (found : (lowerStmt statement table scope).table.find? other = some function)
    {body : Code.Body}
    (code : function.body = some body) :
    table.find? other = some function ∨ other = name ∧ body.Acyclic := by
  cases statement with
  | prototype proto =>
      obtain ⟨rfl, applied⟩ := lowerPrototype_ok succeeded
      change (lowerPrototype proto table scope).table.find? other = some function at found
      generalize (lowerPrototype proto table scope).table = final at applied found
      cases applied with
      | known => exact .inl found
      | declared absent =>
          rw [Code.Module.find?_put] at found
          split at found
          · cases found
            cases code
          · exact .inl found
  | function proto block => exact lowerFunction_attached succeeded found code
  | expression proto expr => exact lowerFunction_attached succeeded found code
  | _ => cases succeeded

/-- No body in the table has a cycle. -/
def BodiesAcyclic (table : Code.Module) : Prop :=
  ∀ name function body, table.find? name = some function → function.body = some body →
    body.Acyclic

theorem Built.acyclic
    {function : Code.Function}
    (built : Built function)
    {body : Code.Body}
    (code : function.body = some body) :
    body.Acyclic := by
  obtain ⟨table, proto, source, builder, built, rfl⟩ := built
  cases code
  exact lowerSource_acyclic (Scope.bindsGiven_ofParams proto.name proto.params) built

end Lowering
end ScalarScript
