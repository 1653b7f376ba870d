import ScalarScript.Proofs.OpenBlocks
import ScalarScript.Proofs.Order

/-!
# Ops that fit their body

Whatever lowering adds to a body fits it: registers have the type of what is written to them and
are written once, jumps go to blocks that are there, arguments are among those of the function, and
calls pass as many arguments as the callee has parameters.  `Builder.Checked` states this of a body
under construction, and every piece of lowering keeps it.  Together with the order of ops and with
the shape of blocks this is all that the checks ask, so they accept every body that was built from
a grammatical tree.
-/

namespace ScalarScript
namespace Code

/-- The operand is no argument beyond the given number of them. -/
def Operand.Within (count : Nat) (operand : Operand) : Prop :=
  ∀ index, operand = .arg index → index < count

/-- The op reads arguments that are there and calls a function with as many arguments as it has
parameters. -/
structure Op.Admitted (table : Module) (count : Nat) (op : Op) : Prop where
  operands : ∀ operand ∈ op.operands, operand.Within count
  callee : ∀ callee passed, op.callee? = some (callee, passed) →
    ∃ target, table.find? callee = some target ∧ target.arity = passed

namespace Builder

/-- An op that is added is one more op of the body. -/
theorem At.perm_ops
    {builder : Builder}
    {index : Nat}
    {block : Block}
    (here : builder.At index block)
    (op : Op) :
    (builder.emit op).body.ops.Perm (op :: builder.body.ops) := by
  have general {blocks : List Block} {index : Nat} (found : blocks[index]? = some block) :
      ((blocks.set index (block.push op)).flatMap Block.ops).Perm
        (op :: blocks.flatMap Block.ops) := by
    induction blocks generalizing index with
    | nil => cases found
    | cons first blocks inductionHypothesis =>
        cases index with
        | zero =>
            cases found
            simp only [List.set_cons_zero, List.flatMap_cons, Block.push, List.append_assoc]
            exact List.perm_middle
        | succ index =>
            simp only [List.set_cons_succ, List.flatMap_cons]
            exact ((inductionHypothesis found).append_left first.ops).trans List.perm_middle
  rw [Body.ops, body, here.blocks_emit]
  exact general here.2

/-- The insertion point is at a block, and the ops so far fit the body. -/
structure Checked (table : Module) (count : Nat) (builder : Builder) : Prop where
  placed : ∃ index block, builder.At index block
  declared : ∀ op ∈ builder.body.ops, ∀ index type, op.result? = some (index, type) →
    builder.registers[index]?.map Register.type = some type
  once : (dests builder.body.ops).Nodup
  targets : ∀ op ∈ builder.body.ops, ∀ target ∈ op.successors, target < builder.blocks.length
  admitted : ∀ op ∈ builder.body.ops, op.Admitted table count

namespace Checked

variable {table : Module} {count : Nat} {builder : Builder}

/-- A new body is checked. -/
theorem opened : Checked table count opened where
  placed := ⟨0, ⟨"entry", []⟩, rfl, rfl⟩
  declared := List.forall_mem_nil _
  once := List.nodup_nil
  targets := List.forall_mem_nil _
  admitted := List.forall_mem_nil _

/-- Registers that are written are there. -/
theorem dest_lt
    (checked : builder.Checked table count)
    {index : Nat}
    (written : index ∈ dests builder.body.ops) :
    index < builder.registers.length := by
  obtain ⟨op, member, isDest⟩ := List.mem_filterMap.1 written
  rw [← op.result?_map_fst] at isDest
  obtain ⟨⟨_, type⟩, writes, rfl⟩ := Option.map_eq_some_iff.1 isDest
  obtain ⟨register, found, _⟩ :=
    Option.map_eq_some_iff.1 (checked.declared op member _ type writes)
  exact (List.getElem?_eq_some_iff.1 found).1

/-- An instruction keeps the body checked if it writes a register of its type that nothing else
writes, and jumps to blocks that exist. -/
theorem emit
    (checked : builder.Checked table count)
    {op : Op}
    (writes : ∀ index type, op.result? = some (index, type) →
      builder.registers[index]?.map Register.type = some type ∧ index ∉ dests builder.body.ops)
    (targets : ∀ target ∈ op.successors, target < builder.blocks.length)
    (admitted : op.Admitted table count) :
    (builder.emit op).Checked table count := by
  obtain ⟨index, block, here⟩ := checked.placed
  have perm := here.perm_ops op
  have members {other : Op} : other ∈ (builder.emit op).body.ops ↔
      other = op ∨ other ∈ builder.body.ops := by
    rw [perm.mem_iff, List.mem_cons]
  constructor
  · exact ⟨index, _, here.emit op⟩
  · intro other member
    rw [registers_emit]
    rcases members.1 member with rfl | former
    · exact fun index type result => (writes index type result).1
    · exact checked.declared other former
  · rw [dests, (perm.filterMap Op.dest?).nodup_iff, ← dests, dests_cons]
    cases isDest : op.dest? with
    | none => exact checked.once
    | some dest =>
        rw [← op.result?_map_fst] at isDest
        obtain ⟨⟨_, type⟩, result, rfl⟩ := Option.map_eq_some_iff.1 isDest
        exact List.nodup_cons.2 ⟨(writes _ type result).2, checked.once⟩
  · intro other member
    rw [here.blocks_emit, List.length_set]
    rcases members.1 member with rfl | former
    · exact targets
    · exact checked.targets other former
  · intro other member
    rcases members.1 member with rfl | former
    · exact admitted
    · exact checked.admitted other former

/-- An op that ends a block writes nothing. -/
theorem emit_terminator
    (checked : builder.Checked table count)
    {op : Op}
    (ends : op.result? = none)
    (targets : ∀ target ∈ op.successors, target < builder.blocks.length)
    (admitted : op.Admitted table count) :
    (builder.emit op).Checked table count := by
  apply checked.emit _ targets admitted
  intro index type result
  rw [ends] at result
  cases result

/-- A new register keeps the body checked. -/
theorem allocate
    (checked : builder.Checked table count)
    (hint : String)
    (type : ValueType) :
    (builder.allocate hint type).2.Checked table count where
  placed := checked.placed
  declared := by
    intro op member index type writes
    have found := checked.declared op member index type writes
    obtain ⟨register, isRegister, isType⟩ := Option.map_eq_some_iff.1 found
    have inside := (List.getElem?_eq_some_iff.1 isRegister).1
    simp only [Builder.allocate]
    rw [List.getElem?_append_left inside]
    exact found
  once := checked.once
  targets := checked.targets
  admitted := checked.admitted

/-- An op that writes the next register. -/
theorem add
    (checked : builder.Checked table count)
    {emission : Emission}
    (writes : emission.op.result? = some (builder.registers.length, emission.type))
    (admitted : emission.op.Admitted table count) :
    (builder.add emission).Checked table count := by
  apply (checked.allocate emission.hint emission.type).emit _ _ admitted
  · intro index type result
    obtain ⟨rfl, rfl⟩ : builder.registers.length = index ∧ emission.type = type := by
      simpa [writes] using result
    refine ⟨by simp [Builder.allocate], fun again => ?_⟩
    exact Nat.lt_irrefl _ (checked.dest_lt again)
  · have straight := Op.isTerminator_of_result? writes
    intro target member
    cases isOp : emission.op with
    | jump | branch | ret => simp [isOp, Op.isTerminator] at straight
    | _ => simp [isOp, Op.successors] at member

/-- Straight-line code keeps the body checked. -/
theorem addAll
    (checked : builder.Checked table count)
    {emissions : List Emission}
    {front : List Op}
    (laid : Lowering.Laid builder.registers.length front emissions)
    (admitted : ∀ op ∈ Lowering.opsOf emissions, op.Admitted table count) :
    (builder.addAll emissions).Checked table count := by
  induction emissions generalizing builder front with
  | nil => exact checked
  | cons emission emissions inductionHypothesis =>
      obtain ⟨writes, _, others⟩ := laid
      obtain ⟨first, admitted⟩ := List.forall_mem_cons.1 admitted
      apply inductionHypothesis (checked.add writes first) _ admitted
      · exact front ++ [emission.op]
      · rw [registers_add, List.length_append]
        exact others

/-- New blocks keep the body checked. -/
theorem createBlocks
    (checked : builder.Checked table count)
    (hints : List String) :
    (builder.createBlocks hints).Checked table count := by
  induction hints generalizing builder with
  | nil => exact checked
  | cons hint hints inductionHypothesis =>
      apply inductionHypothesis
      obtain ⟨index, block, here⟩ := checked.placed
      have sameOps : (builder.createBlock hint).2.body.ops = builder.body.ops := by
        simp [Builder.createBlock, body, Body.ops]
      constructor
      · exact ⟨index, block, here.createBlock hint⟩
      · rw [sameOps]
        exact checked.declared
      · rw [sameOps]
        exact checked.once
      · intro op member target isTarget
        rw [sameOps] at member
        rw [length_createBlock]
        exact Nat.lt_succ_of_lt (checked.targets op member target isTarget)
      · rw [sameOps]
        exact checked.admitted

/-- Going to a block that exists keeps the body checked. -/
theorem position
    (checked : builder.Checked table count)
    {index : Nat}
    (inside : index < builder.blocks.length) :
    (builder.position index).Checked table count where
  placed := ⟨index, _, rfl, List.getElem?_eq_getElem inside⟩
  declared := checked.declared
  once := checked.once
  targets := checked.targets
  admitted := checked.admitted

end Checked
end Builder
end Code

/-- Names stand for arguments that are there. -/
def Scope.BindsWithin (scope : Scope) (count : Nat) : Prop :=
  ∀ name operand, scope.lookup name = some operand → operand.Within count

/-- Parameters are bound within their number. -/
theorem Scope.bindsWithin_ofParams
    (function : String)
    (params : List String) :
    (Scope.ofParams function params).BindsWithin params.length := by
  intro name operand found
  obtain ⟨index, rfl, isParam⟩ := lookup_ofParams found
  rintro _ ⟨⟩
  exact (List.getElem?_eq_some_iff.1 isParam).1

namespace Lowering

open Code (Builder Op Operand)

/-! ## The code of expressions -/

/-- All ops of the code are good, and so is the value for which it was made. -/
def Straight.Makes
    {α : Type}
    (good : Op → Prop)
    (after : α → Prop)
    (straight : Straight α) : Prop :=
  ∀ low, (∀ op ∈ opsOf (straight low).emissions, good op) ∧
    ∀ value, (straight low).result = .ok value → after value

namespace Straight.Makes

variable {α β : Type} {good : Op → Prop} {after : α → Prop}

theorem pure
    {value : α}
    (holds : after value) :
    Makes good after (Pure.pure value : Straight α) := by
  intro low
  refine ⟨List.forall_mem_nil _, ?_⟩
  rintro _ ⟨⟩
  exact holds

theorem fail (error : LoweringError) : Makes good after (Straight.fail error : Straight α) := by
  intro low
  refine ⟨List.forall_mem_nil _, ?_⟩
  rintro _ ⟨⟩

theorem emit
    {hint : String}
    {type : Code.ValueType}
    {op : Nat → Op}
    {after : Operand → Prop}
    (isGood : ∀ low, good (op low))
    (holds : ∀ low, after (.reg low)) :
    Makes good after (Straight.emit hint type op) := by
  intro low
  refine ⟨List.forall_mem_singleton.2 (isGood low), ?_⟩
  rintro _ ⟨⟩
  exact holds low

/-- Steps that make good instructions only do so together. -/
theorem bind
    {first : Straight α}
    {next : α → Straight β}
    {middle : β → Prop}
    (firstMakes : Makes good after first)
    (nextMakes : ∀ value, after value → Makes good middle (next value)) :
    Makes good middle (first >>= next) := by
  intro low
  obtain ⟨firstGood, firstHolds⟩ := firstMakes low
  simp only [Bind.bind]
  cases ended : (first low).result with
  | error error =>
      refine ⟨firstGood, ?_⟩
      rintro _ ⟨⟩
  | ok value =>
      obtain ⟨nextGood, nextHolds⟩ := nextMakes value (firstHolds value ended) _
      rw [opsOf_append, List.forall_mem_append]
      exact ⟨⟨firstGood, nextGood⟩, nextHolds⟩

end Straight.Makes

section

variable {table : Code.Module} {scope : Scope} {count : Nat}

theorem within_const (value : Float) : (Operand.const value).Within count := by
  rintro _ ⟨⟩

theorem within_reg (index : Nat) : (Operand.reg index).Within count := by
  rintro _ ⟨⟩

/-- An instruction without call is admitted by its operands. -/
theorem admitted_of_operands
    {op : Op}
    (operands : ∀ operand ∈ op.operands, operand.Within count)
    (noCall : op.callee? = none) :
    op.Admitted table count := by
  refine ⟨operands, ?_⟩
  intro callee passed isCall
  rw [noCall] at isCall
  cases isCall

/-- The code of an operation is admitted. -/
theorem binaryCode_makes
    (op : Token.Kind)
    {lhs rhs : Operand}
    (left : lhs.Within count)
    (right : rhs.Within count)
    (span : Span) :
    (binaryCode op lhs rhs span).Makes (Op.Admitted table count) (Operand.Within count) := by
  have both : ∀ operand ∈ [lhs, rhs], operand.Within count := by
    simp only [List.forall_mem_cons]
    exact ⟨left, right, List.forall_mem_nil _⟩
  unfold binaryCode
  cases arith? op with
  | some arith => exact .emit (fun low => admitted_of_operands both rfl) within_reg
  | none =>
      cases predicate? op with
      | none => exact .fail _
      | some predicate =>
          have compared : (Straight.emit "cmptmp" .bool fun dest =>
              Op.compare dest predicate lhs rhs).Makes (Op.Admitted table count)
                (Operand.Within count) :=
            .emit (fun low => admitted_of_operands both rfl) within_reg
          apply compared.bind
          intro flag within
          refine .emit (fun low => admitted_of_operands ?_ rfl) within_reg
          exact List.forall_mem_singleton.2 within

mutual

/-- The code of an expression is admitted, and its operand is within the parameters. -/
theorem exprCode_makes
    (within : scope.BindsWithin count)
    (expr : Expr) :
    (exprCode table scope expr).Makes (Op.Admitted table count) (Operand.Within count) := by
  cases expr with
  | num value span =>
      rw [exprCode]
      exact .pure (within_const value)
  | var name span =>
      rw [exprCode]
      cases found : scope.lookup name with
      | none => exact .fail _
      | some operand => exact .pure (within name operand found)
  | binary op left right span =>
      rw [exprCode]
      apply (exprCode_makes within left).bind
      intro lhs leftWithin
      apply (exprCode_makes within right).bind
      intro rhs rightWithin
      exact binaryCode_makes op leftWithin rightWithin span
  | call callee args span =>
      rw [exprCode]
      cases found : table.find? callee with
      | none => exact .fail _
      | some target =>
          by_cases sameCount : target.arity = args.length
          · simp only [ne_eq, sameCount, not_true_eq_false, if_false]
            apply (argsCode_makes within args).bind
            rintro values ⟨sameLength, valuesWithin⟩
            refine .emit (fun low => ⟨valuesWithin, ?_⟩) within_reg
            rintro _ _ ⟨⟩
            exact ⟨target, found, sameCount.trans sameLength.symm⟩
          · simp only [ne_eq, sameCount, not_false_eq_true, if_true]
            exact .fail _

/-- The code of arguments is admitted, with one operand for each. -/
theorem argsCode_makes
    (within : scope.BindsWithin count)
    (args : List Expr) :
    (argsCode table scope args).Makes (Op.Admitted table count) fun values =>
      values.length = args.length ∧ ∀ value ∈ values, value.Within count := by
  cases args with
  | nil =>
      rw [argsCode]
      exact .pure ⟨rfl, List.forall_mem_nil _⟩
  | cons arg args =>
      rw [argsCode]
      apply (exprCode_makes within arg).bind
      intro value valueWithin
      apply (argsCode_makes within args).bind
      rintro values ⟨sameLength, valuesWithin⟩
      apply Straight.Makes.pure
      exact ⟨congrArg Nat.succ sameLength, List.forall_mem_cons.2 ⟨valueWithin, valuesWithin⟩⟩

end

/-- The code of a condition is admitted. -/
theorem conditionCode_makes
    (within : scope.BindsWithin count)
    (condition : Expr) :
    (conditionCode table scope condition).Makes (Op.Admitted table count)
      (Operand.Within count) := by
  unfold conditionCode
  apply (exprCode_makes within condition).bind
  intro value valueWithin
  refine .emit (fun low => admitted_of_operands ?_ rfl) within_reg
  simp only [Op.operands, List.forall_mem_cons]
  exact ⟨valueWithin, within_const 0, List.forall_mem_nil _⟩

/-! ## Lowering keeps the checks -/

/-- Straight-line code fits, and so does its value. -/
theorem Straight.Makes.checked
    {straight : Straight Operand}
    {type : Code.ValueType}
    (makes : straight.Makes (Op.Admitted table count) (Operand.Within count))
    (lays : straight.Lays (fun _ => True) fun operand ops => Code.Available ops (operand, type))
    {builder : Builder}
    {emissions : List Emission}
    {value : Operand}
    (made : straight builder.registers.length = ⟨emissions, .ok value⟩)
    (checked : builder.Checked table count) :
    (builder.addAll emissions).Checked table count ∧ value.Within count := by
  have laid := (lays builder.registers.length [] trivial).1
  obtain ⟨admitted, within⟩ := makes builder.registers.length
  rw [made] at laid admitted within
  exact ⟨checked.addAll laid admitted, within value rfl⟩

/-- Every step of lowering adds ops that fit. -/
theorem checked_invariant
    (given : scope.BindsGiven)
    (within : scope.BindsWithin count) :
    Invariant table scope (Builder.Checked table count) where
  evaluation := by
    intro expr builder emissions operand made checked
    obtain ⟨added, operandWithin⟩ := (exprCode_makes within expr).checked
      (exprCode_lays table given expr) made checked
    refine ⟨added, added.emit_terminator rfl (List.forall_mem_nil _) ?_⟩
    exact admitted_of_operands (List.forall_mem_singleton.2 operandWithin) rfl
  finish := by
    intro builder checked
    apply checked.emit_terminator rfl (List.forall_mem_nil _)
    exact admitted_of_operands (List.forall_mem_nil _) rfl
  jump := by
    intro builder target inside checked
    apply checked.emit_terminator rfl
    · exact List.forall_mem_singleton.2 inside
    · exact admitted_of_operands (List.forall_mem_nil _) rfl
  fork := by
    intro condition builder emissions flag hints made isArms checked
    have enough : ∀ hints ∈ armHints, 2 ≤ hints.length := by decide
    have twoBlocks := enough hints isArms
    obtain ⟨added, flagWithin⟩ := (conditionCode_makes within condition).checked
      (conditionCode_lays table given condition) made checked
    apply (added.createBlocks hints).emit_terminator rfl
    · rw [Builder.length_createBlocks]
      simp only [Op.successors, List.forall_mem_cons]
      exact ⟨by omega, by omega, List.forall_mem_nil _⟩
    · exact admitted_of_operands (List.forall_mem_singleton.2 flagWithin) rfl
  position := fun inside checked => checked.position inside

end

end Lowering

/-! ## Bodies that pass the checks -/

namespace Code

/-- An operand that is there has the type with which it is read. -/
theorem Builder.Checked.typeOf?_of_available
    {table : Module}
    {function : Function}
    {builder : Builder}
    (checked : builder.Checked table function.params.length)
    (code : function.body = some builder.body)
    {operand : Operand}
    {type : ValueType}
    (available : Available builder.body.ops (operand, type))
    (within : operand.Within function.params.length) :
    function.typeOf? operand = some type := by
  cases operand with
  | const value => exact congrArg some (Eq.symm available)
  | arg index =>
      rw [Function.typeOf?, if_pos (within index rfl)]
      exact congrArg some (Eq.symm available)
  | reg index =>
      obtain ⟨writer, member, writes⟩ := available
      rw [Function.typeOf?, code]
      exact checked.declared writer member index type writes

/-- Where blocks are in order, each op of the body reads what other ops of it have written. -/
theorem Body.Orderly.available
    {body : Body}
    (orderly : body.Orderly)
    {op : Op}
    (member : op ∈ body.ops)
    {read : Operand × ValueType}
    (isRead : read ∈ op.reads) :
    Available body.ops read := by
  obtain ⟨block, blockMember, opMember⟩ := List.mem_flatMap.1 member
  obtain ⟨front, back, split⟩ := List.append_of_mem opMember
  apply (orderly block blockMember front op back split read isRead).mono
  intro other otherMember
  apply List.mem_flatMap.2
  exact ⟨block, blockMember, split ▸ List.mem_append_left _ otherMember⟩

/-- Ops that fit, in order, in blocks that end once make a well-formed body. -/
theorem Builder.Checked.wellFormed
    {table : Module}
    {function : Function}
    {builder : Builder}
    (checked : builder.Checked table function.params.length)
    (orderly : builder.body.Orderly)
    (shaped : ∀ block ∈ builder.body.blocks, block.Shaped)
    (code : function.body = some builder.body) :
    builder.body.WellFormed table function where
  nonempty := by
    obtain ⟨index, block, here⟩ := checked.placed
    exact List.ne_nil_of_mem (List.mem_of_getElem? here.2)
  shaped := shaped
  fits := by
    intro op member
    have admitted := checked.admitted op member
    constructor
    · intro index isDest
      exact checked.dest_lt (List.mem_filterMap.2 ⟨op, member, isDest⟩)
    · exact checked.targets op member
    · intro read isRead
      have isOperand : read.1 ∈ op.operands := by
        rw [← op.reads_map_fst]
        exact List.mem_map_of_mem isRead
      exact checked.typeOf?_of_available code (orderly.available member isRead)
        (admitted.operands read.1 isOperand)
    · exact admitted.callee
  once := checked.once
  written := by
    intro op member index isOperand
    rw [← op.reads_map_fst] at isOperand
    obtain ⟨⟨_, type⟩, isRead, rfl⟩ := List.mem_map.1 isOperand
    obtain ⟨writer, writerMember, writes⟩ := orderly.available member isRead
    exact List.mem_filterMap.2 ⟨writer, writerMember, Op.dest?_of_result? writes⟩

end Code

namespace Lowering

/-- The checks accept what was built from a grammatical tree. -/
theorem verifyFunction_of_built
    {table : Code.Module}
    {proto : Prototype}
    {source : Source}
    (grammatical : source.Grammatical)
    {builder : Code.Builder}
    (built : buildBody table proto source = .ok () builder) :
    (table.put (definition proto builder.body)).verifyFunction (definition proto builder.body) =
      .ok () := by
  have given := Scope.bindsGiven_ofParams proto.name proto.params
  have within := Scope.bindsWithin_ofParams proto.name proto.params
  have checked := (checked_invariant given within).source source _ _ built .opened
  have orderly := ((orderly_invariant given).source source _ _ built .opened).ordered
  have shaped := lowerSource_shaped given grammatical built
  have wellFormed : builder.body.WellFormed (table.put (declaration proto))
      (definition proto builder.body) := checked.wellFormed orderly shaped rfl
  -- the table of the checks has the definition where that of lowering had the declaration
  have keeps : (table.put (declaration proto)).KeepsArities
      (table.put (definition proto builder.body)) := by
    have again : (table.put (declaration proto)).put (definition proto builder.body) =
        table.put (definition proto builder.body) := table.put_put rfl
    rw [← again]
    apply Code.Module.KeepsArities.put
    intro former found
    obtain rfl : declaration proto = former := by simpa using found
    rfl
  rw [Code.Module.verifyFunction_eq_ok_iff]
  rintro _ ⟨⟩
  exact wellFormed.mono keeps

end Lowering
end ScalarScript
