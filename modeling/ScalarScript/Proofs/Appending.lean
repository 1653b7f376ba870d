import ScalarScript.Proofs.Growth

/-!
# Expressions append straight-line code

Lowering an expression touches a builder in one way only: ops are put at the end of the block
at the insertion point, and their results get new registers.  `Builder.Appends` says what stays
as it is, and `Op.Linear` what the new ops are like.  Both hold of every expression in every
scope, also when an error leaves the code incomplete.
-/

namespace ScalarScript
namespace Code

/-- Truth values are the results of comparisons. -/
theorem Op.type_eq_bool_iff
    {op : Op}
    {dest : Nat}
    {type : ValueType}
    (writes : op.result? = some (dest, type)) :
    type = .bool ↔ ∃ predicate lhs rhs, op = .compare dest predicate lhs rhs := by
  cases op <;> cases writes <;> simp

namespace Builder

/-! ## What stays as it is -/

/-- Ops are added to the block at the insertion point, and registers after those that are
there.  Nothing else of the body changes, and no op is lost. -/
structure Appends (ops : List Op) (before after : Builder) : Prop where
  insertion : after.insertion = before.insertion
  count : after.blocks.length = before.blocks.length
  others : ∀ index, before.insertion ≠ some index → after.blocks[index]? = before.blocks[index]?
  extended : ∀ index block, before.At index block →
    after.blocks[index]? = some { block with ops := block.ops ++ ops }
  registers : before.registers <+: after.registers
  lost : after.lost = before.lost

namespace Appends

theorem refl (builder : Builder) : Appends [] builder builder where
  insertion := rfl
  count := rfl
  others := fun _ _ => rfl
  extended := by
    intro index block here
    rw [List.append_nil]
    exact here.2
  registers := List.prefix_refl _
  lost := rfl

theorem trans
    {front back : List Op}
    {first second third : Builder}
    (early : Appends front first second)
    (late : Appends back second third) :
    Appends (front ++ back) first third where
  insertion := late.insertion.trans early.insertion
  count := late.count.trans early.count
  others := by
    intro index elsewhere
    have stillElsewhere : second.insertion ≠ some index := early.insertion ▸ elsewhere
    rw [late.others index stillElsewhere, early.others index elsewhere]
  extended := by
    intro index block here
    have hereSecond : second.At index { block with ops := block.ops ++ front } :=
      ⟨early.insertion.trans here.1, early.extended index block here⟩
    rw [late.extended index _ hereSecond, List.append_assoc]
  registers := early.registers.trans late.registers
  lost := late.lost.trans early.lost

/-- One op with its register. -/
theorem add
    {builder : Builder}
    {index : Nat}
    {block : Block}
    (here : builder.At index block)
    (emission : Emission) :
    Appends [emission.op] builder (builder.add emission) := by
  have allocated : (builder.allocate emission.hint emission.type).2.At index block := here
  have blocks : (builder.add emission).blocks = builder.blocks.set index (block.push emission.op) :=
    allocated.blocks_emit emission.op
  constructor
  · exact (here.add emission).1.trans here.1.symm
  · rw [blocks, List.length_set]
  · intro other elsewhere
    have different : index ≠ other := fun same => elsewhere (same ▸ here.1)
    rw [blocks, List.getElem?_set_ne different]
  · intro other former hereToo
    obtain rfl : index = other := Option.some.inj (here.1.symm.trans hereToo.1)
    obtain rfl : block = former := Option.some.inj (here.2.symm.trans hereToo.2)
    exact (here.add emission).2
  · rw [registers_add]
    exact List.prefix_append _ _
  · simp only [Builder.add, Builder.emit, Builder.push, allocated.1, allocated.2]
    rfl

theorem addAll
    {builder : Builder}
    {index : Nat}
    {block : Block}
    (here : builder.At index block)
    (emissions : List Emission) :
    Appends (Lowering.opsOf emissions) builder (builder.addAll emissions) := by
  induction emissions generalizing builder block with
  | nil => exact refl builder
  | cons emission emissions inductionHypothesis =>
      exact (add here emission).trans (inductionHypothesis (here.add emission))

end Appends

/-- The new registers have the types of the emissions, in order. -/
theorem types_addAll
    (builder : Builder)
    (emissions : List Emission) :
    (builder.addAll emissions).registers.map Register.type =
      builder.registers.map Register.type ++ emissions.map Emission.type := by
  induction emissions generalizing builder with
  | nil => simp
  | cons emission emissions inductionHypothesis =>
      rw [addAll_cons, inductionHypothesis, registers_add]
      simp

end Builder

/-! ## What is added -/

/-- Straight-line code in a scope: the results of the ops are in registers from `low` on, and the
ops read only constants, what the scope binds and results of ops before them. -/
structure Op.Linear
    (scope : Scope)
    (low : Nat)
    (registers : List Register)
    (ops : List Op) : Prop where
  straight : ∀ op ∈ ops, op.isTerminator = false
  /-- Each result has a register of its type. -/
  results : ∀ op ∈ ops, ∃ dest register, low ≤ dest ∧ registers[dest]? = some register ∧
    op.result? = some (dest, register.type) ∧
      (register.type = .bool ↔ ∃ predicate lhs rhs, op = .compare dest predicate lhs rhs)
  once : (dests ops).Nodup
  reads : ∀ front op back, ops = front ++ op :: back →
    ∀ read ∈ op.reads, scope.Supplies front read

/-- A number that is supplied after the code is in a register of its type, unless it is a constant
or bound in the scope. -/
theorem Op.Linear.origin
    {scope : Scope}
    {low : Nat}
    {registers : List Register}
    {ops : List Op}
    (linear : Op.Linear scope low registers ops)
    {operand : Operand}
    (supplies : scope.Supplies ops (operand, .double)) :
    (∃ value, operand = .const value) ∨ (∃ name, scope.lookup name = some operand) ∨
      ∃ dest ∈ dests ops, operand = .reg dest ∧
        registers[dest]?.map Register.type = some .double := by
  cases supplies with
  | const value => exact .inl ⟨value, rfl⟩
  | bound found => exact .inr (.inl ⟨_, found⟩)
  | @written op index _ member writes =>
      obtain ⟨dest, register, _, found, result, _⟩ := linear.results op member
      obtain ⟨rfl, isType⟩ : index = dest ∧ ValueType.double = register.type := by
        simpa [writes] using result
      refine .inr (.inr ⟨index, ?_, rfl, ?_⟩)
      · exact List.mem_filterMap.2 ⟨op, member, Op.dest?_of_result? writes⟩
      · rw [found, isType]
        rfl

end Code

namespace Lowering

open Code (Builder Op)

section

variable {scope : Scope} {low : Nat} {front : List Op} {emissions : List Emission}

/-- Supplied code writes the registers from `low` on, one after the other. -/
theorem Supplied.dests_eq
    (supplied : Supplied scope low front emissions) :
    Code.dests (opsOf emissions) = List.range' low emissions.length := by
  induction emissions generalizing low front with
  | nil => rfl
  | cons emission emissions inductionHypothesis =>
      obtain ⟨writes, _, others⟩ := supplied
      rw [opsOf_cons, Code.dests_cons, Op.dest?_of_result? writes, inductionHypothesis others,
        List.length_cons, List.range'_succ]
      rfl

/-- What each op of supplied code writes and reads. -/
theorem Supplied.split
    (supplied : Supplied scope low front emissions)
    {before after : List Op}
    {op : Op}
    (split : opsOf emissions = before ++ op :: after) :
    (∃ type, op.result? = some (low + before.length, type) ∧
      (emissions.map Emission.type)[before.length]? = some type) ∧
      ∀ read ∈ op.reads, scope.Supplies (front ++ before) read := by
  obtain ⟨earlier, others, rfl, rfl, same⟩ := List.map_eq_append_iff.1 split
  obtain ⟨emission, later, rfl, rfl, _⟩ := List.map_eq_cons_iff.1 same
  obtain ⟨_, writes, reads, _⟩ := (supplied_append ..).1 supplied
  refine ⟨⟨emission.type, ?_, by simp⟩, reads⟩
  rw [List.length_map]
  exact writes

end

section

variable {scope : Scope} {builder : Builder} {emissions : List Emission}

/-- In the builder to which supplied code is added, each of its ops has a new register of the type
that it writes. -/
theorem Supplied.register
    (supplied : Supplied scope builder.registers.length [] emissions)
    {op : Op}
    (member : op ∈ opsOf emissions) :
    ∃ dest register, builder.registers.length ≤ dest ∧
      (builder.addAll emissions).registers[dest]? = some register ∧
        op.result? = some (dest, register.type) := by
  obtain ⟨before, after, split⟩ := List.append_of_mem member
  obtain ⟨⟨type, result, isType⟩, _⟩ := supplied.split split
  -- the op at some place of the code writes the register at that place of the new ones
  have declared : ((builder.addAll emissions).registers.map Code.Register.type)[
      builder.registers.length + before.length]? = some type := by
    rw [Builder.types_addAll, List.getElem?_append_right (by simp)]
    simpa using isType
  rw [List.getElem?_map] at declared
  obtain ⟨register, found, rfl⟩ := Option.map_eq_some_iff.1 declared
  exact ⟨_, register, Nat.le_add_right _ _, found, result⟩

/-- Supplied code is straight-line code in any builder to which it is added. -/
theorem Supplied.linear
    (supplied : Supplied scope builder.registers.length [] emissions) :
    Op.Linear scope builder.registers.length (builder.addAll emissions).registers
      (opsOf emissions) := by
  constructor
  · intro op member
    obtain ⟨_, _, _, _, result⟩ := supplied.register member
    exact Op.isTerminator_of_result? result
  · intro op member
    obtain ⟨dest, register, new, found, result⟩ := supplied.register member
    exact ⟨dest, register, new, found, result, Op.type_eq_bool_iff result⟩
  · rw [supplied.dests_eq]
    exact List.nodup_range'
  · intro before op after split
    exact (supplied.split split).2

/-- All new registers are written. -/
theorem Supplied.mem_dests
    (supplied : Supplied scope builder.registers.length [] emissions)
    {index : Nat}
    (new : builder.registers.length ≤ index)
    (inside : index < (builder.addAll emissions).registers.length) :
    index ∈ Code.dests (opsOf emissions) := by
  rw [Builder.length_registers_addAll] at inside
  rw [supplied.dests_eq, List.mem_range'_1]
  exact ⟨new, inside⟩

end

/-- Lowering an expression appends straight-line code to the block at the insertion point, whether
it succeeds or fails.  If it succeeds, all new registers are written, and the operand it returns
is a constant, is bound in the scope or is one of the new registers that hold numbers. -/
theorem lowerExpr_appends
    (table : Code.Module)
    (scope : Scope)
    (expr : Expr)
    {builder : Builder}
    {index : Nat}
    {block : Code.Block}
    (here : builder.At index block) :
    ∃ ops final, builder.Appends ops final ∧
      Op.Linear scope builder.registers.length final.registers ops ∧
        ((∃ error, lowerExpr table scope expr builder = .error error final) ∨
          ∃ operand, lowerExpr table scope expr builder = .ok operand final ∧
            (∀ index, builder.registers.length ≤ index → index < final.registers.length →
              index ∈ Code.dests ops) ∧
            ((∃ value, operand = .const value) ∨ (∃ name, scope.lookup name = some operand) ∨
              ∃ dest ∈ Code.dests ops, operand = .reg dest ∧
                final.registers[dest]?.map Code.Register.type = some .double)) := by
  obtain ⟨supplied, supplies⟩ :=
    exprCode_yields table scope expr builder.registers.length [] (List.forall_mem_nil _)
  have linear := supplied.linear
  refine ⟨_, _, .addAll here _, linear, ?_⟩
  rw [lowerExpr_eq_build]
  cases ended : (exprCode table scope expr builder.registers.length).result with
  | error error => exact .inl ⟨error, by simp only [Straight.build, ended]⟩
  | ok operand =>
      refine .inr ⟨operand, by simp only [Straight.build, ended], ?_, ?_⟩
      · exact fun index new inside => supplied.mem_dests new inside
      · exact linear.origin (supplies operand ended _ (List.mem_singleton_self _))

/-- A builder in the middle of a body. -/
def resumed : Builder where
  blocks := [⟨"entry", [.compare 0 .ult (.arg 0) (.const 1)]⟩, ⟨"exit", []⟩]
  registers := [⟨"cmptmp", .bool⟩]
  insertion := some 0
  hints := ["exit", "cmptmp", "entry"]

/-- The name `x` stands for the register that is there. -/
def resumedScope : Scope :=
  ⟨some "f", [("x", .reg 0)]⟩

/-- The functions that can be called: `f(a)`. -/
def resumedTable : Code.Module :=
  ⟨"m", [⟨"f", ["a"], none⟩]⟩

/-- The sum of `f(x < 2)` and `f(y)`. -/
def interrupted : Expr :=
  .binary .plus
    (.call "f" [.binary .lesser (.var "x" .zero) (.num 2 .zero) .zero] .zero)
    (.call "f" [.var "y" .zero] .zero) .zero

/-- The code of the first call stays when the second one fails. -/
theorem lowerExpr_appends_interrupted :
    resumed.At 0 ⟨"entry", [.compare 0 .ult (.arg 0) (.const 1)]⟩ ∧
      ∃ ops final, Code.dests ops = [1, 2, 3] ∧ resumed.Appends ops final ∧
        Op.Linear resumedScope 1 final.registers ops ∧
          ∃ error, lowerExpr resumedTable resumedScope interrupted resumed =
            .error error final := by
  have here : resumed.At 0 ⟨"entry", [.compare 0 .ult (.arg 0) (.const 1)]⟩ := ⟨rfl, rfl⟩
  refine ⟨here, ?_⟩
  obtain ⟨ops, final, appends, linear, ⟨error, failed⟩ | ⟨operand, done, _⟩⟩ :=
    lowerExpr_appends resumedTable resumedScope interrupted here
  · refine ⟨ops, final, ?_, appends, linear, error, failed⟩
    -- what was appended is read off the block in which it stands
    have extended := appends.extended 0 _ here
    cases failed
    cases extended
    rfl
  · cases done

end Lowering
end ScalarScript
