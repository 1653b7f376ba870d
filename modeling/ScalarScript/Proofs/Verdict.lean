import ScalarScript.Proofs.WellFormed

/-!
# The verdict of the checks

What is asked of a function body is said here once more without the course of the checks: by rules
for what an op uses and for the types of operands, and by the places of ops in the body.  The
checks go through the blocks with a list of the registers written so far, and then a second time
through everything that is read.  They accept exactly the admissible bodies.
-/

namespace ScalarScript
namespace Code

/-- The op reads an operand and takes it for a value of the type. -/
inductive Op.Uses : Op → Operand → ValueType → Prop where
  | arithLeft (op : Arith) (dest : Nat) (lhs rhs : Operand) :
      Uses (.arith op dest lhs rhs) lhs .double
  | arithRight (op : Arith) (dest : Nat) (lhs rhs : Operand) :
      Uses (.arith op dest lhs rhs) rhs .double
  | compareLeft (dest : Nat) (predicate : Predicate) (lhs rhs : Operand) :
      Uses (.compare dest predicate lhs rhs) lhs .double
  | compareRight (dest : Nat) (predicate : Predicate) (lhs rhs : Operand) :
      Uses (.compare dest predicate lhs rhs) rhs .double
  | widen (dest : Nat) (src : Operand) :
      Uses (.widen dest src) src .bool
  | argument (dest : Nat) (callee : String) {args : List Operand} {arg : Operand}
      (member : arg ∈ args) :
      Uses (.call dest callee args) arg .double
  | condition (condition : Operand) (thenBlock elseBlock : Nat) :
      Uses (.branch condition thenBlock elseBlock) condition .bool
  | result (value : Operand) :
      Uses (.ret (some value)) value .double

/-- Constants are numbers, and so are the arguments that there are; a register has the type with
which it is declared. -/
inductive Operand.HasType (params : List String) (body : Body) :
    Operand → ValueType → Prop where
  | const (value : Float) : HasType params body (.const value) .double
  | arg {index : Nat} (inside : index < params.length) :
      HasType params body (.arg index) .double
  | reg {index : Nat} {register : Register} (declared : body.registers[index]? = some register) :
      HasType params body (.reg index) register.type

/-- What is asked of the body of a function with the given parameters, inside a module. -/
structure Body.Admissible (table : Module) (params : List String) (body : Body) : Prop where
  nonempty : body.blocks ≠ []
  /-- Of the ops of a block, of which there are some, exactly the last one ends it. -/
  ended : ∀ block ∈ body.blocks, block.ops ≠ [] ∧
    ∀ place op, block.ops[place]? = some op →
      (op.isTerminator = true ↔ place + 1 = block.ops.length)
  /-- The registers that are written exist. -/
  registers : ∀ op ∈ body.ops, ∀ index, op.dest? = some index → index < body.registers.length
  /-- Ops at different places of the body write different registers. -/
  once : ∀ (first second : Nat) (op other : Op) (index : Nat),
    body.ops[first]? = some op → op.dest? = some index →
    body.ops[second]? = some other → other.dest? = some index → first = second
  /-- Branches go to blocks that exist. -/
  targets : ∀ op ∈ body.ops, ∀ target ∈ op.successors, target < body.blocks.length
  /-- Operands have the types that are asked for. -/
  typed : ∀ op ∈ body.ops, ∀ operand type, op.Uses operand type →
    operand.HasType params body type
  /-- Calls pass as many arguments to a function of the module as it has parameters. -/
  calls : ∀ dest callee args, Op.call dest callee args ∈ body.ops →
    ∃ target, table.find? callee = some target ∧ target.params.length = args.length
  /-- Registers that are read are written by some op of the body. -/
  written : ∀ op ∈ body.ops, ∀ index type, op.Uses (.reg index) type →
    ∃ writer ∈ body.ops, writer.dest? = some index

/-! ## The same demands in the words of the checks -/

theorem Op.uses_iff
    (op : Op)
    (operand : Operand)
    (type : ValueType) :
    op.Uses operand type ↔ (operand, type) ∈ op.reads := by
  constructor
  · intro uses
    cases uses with
    | argument dest callee member => exact List.mem_map_of_mem member
    | _ => simp [Op.reads]
  · intro member
    cases op with
    | arith op dest lhs rhs =>
        rcases List.mem_pair.1 member with same | same
        · cases same
          apply Uses.arithLeft
        · cases same
          apply Uses.arithRight
    | compare dest predicate lhs rhs =>
        rcases List.mem_pair.1 member with same | same
        · cases same
          apply Uses.compareLeft
        · cases same
          apply Uses.compareRight
    | widen dest src =>
        cases List.mem_singleton.1 member
        apply Uses.widen
    | call dest callee args =>
        obtain ⟨arg, inArgs, same⟩ := List.mem_map.1 member
        cases same
        exact .argument dest callee inArgs
    | jump target => cases member
    | branch condition thenBlock elseBlock =>
        cases List.mem_singleton.1 member
        apply Uses.condition
    | ret value =>
        cases value with
        | none => cases member
        | some value =>
            cases List.mem_singleton.1 member
            apply Uses.result

theorem Op.uses_some_iff
    (op : Op)
    (operand : Operand) :
    (∃ type, op.Uses operand type) ↔ operand ∈ op.operands := by
  rw [← op.reads_map_fst]
  simp [Op.uses_iff]

theorem Operand.hasType_iff
    (name : String)
    (params : List String)
    (body : Body)
    (operand : Operand)
    (type : ValueType) :
    operand.HasType params body type ↔
      Function.typeOf? ⟨name, params, some body⟩ operand = some type := by
  constructor
  · intro hasType
    cases hasType with
    | const value => rfl
    | arg inside => simp [Function.typeOf?, inside]
    | reg declared => simp [Function.typeOf?, declared]
  · intro typed
    cases operand with
    | const value =>
        cases typed
        exact .const value
    | arg index =>
        by_cases inside : index < params.length
        · simp only [Function.typeOf?, inside, if_true] at typed
          cases typed
          exact .arg inside
        · simp [Function.typeOf?, inside] at typed
    | reg index =>
        simp only [Function.typeOf?, Option.bind_some, Option.map_eq_some_iff] at typed
        obtain ⟨register, declared, rfl⟩ := typed
        exact .reg declared

/-- The last op of a block is its only terminator exactly when terminators stand at its last place
and nowhere else. -/
theorem Block.shaped_iff (block : Block) :
    block.Shaped ↔ block.ops ≠ [] ∧
      ∀ place op, block.ops[place]? = some op →
        (op.isTerminator = true ↔ place + 1 = block.ops.length) := by
  constructor
  · rintro ⟨front, last, split, ends, straight⟩
    rw [split]
    refine ⟨by simp, ?_⟩
    intro place op found
    rw [List.length_append, List.length_singleton, Nat.add_right_cancel_iff]
    by_cases inside : place < front.length
    · rw [List.getElem?_append_left inside] at found
      have early := straight op (List.mem_of_getElem? found)
      simp only [early, Bool.false_eq_true, false_iff]
      omega
    · rw [List.getElem?_append_right (by omega), List.getElem?_singleton] at found
      split at found
      · cases found
        simp only [ends, true_iff]
        omega
      · cases found
  · rintro ⟨nonempty, placed⟩
    refine ⟨block.ops.dropLast, block.ops.getLast nonempty,
      (List.dropLast_append_getLast nonempty).symm, ?_, ?_⟩
    · refine (placed (block.ops.length - 1) _ ?_).2 ?_
      · rw [← List.getLast?_eq_getElem?, List.getLast?_eq_getLast_of_ne_nil nonempty]
      · have := List.length_pos_of_ne_nil nonempty
        omega
    · intro op member
      obtain ⟨place, found⟩ := List.mem_iff_getElem?.1 member
      have early := (List.getElem?_eq_some_iff.1 found).1
      rw [List.length_dropLast] at early
      rw [List.getElem?_dropLast, if_pos early] at found
      have notLast := (placed place op found).1.mt (by omega)
      simpa using notLast

/-- Ops write distinct registers exactly when no register is written at two places. -/
theorem nodup_dests_iff (ops : List Op) :
    (dests ops).Nodup ↔ ∀ (first second : Nat) (op other : Op) (index : Nat),
      ops[first]? = some op → op.dest? = some index →
      ops[second]? = some other → other.dest? = some index → first = second := by
  unfold dests List.Nodup
  rw [List.pairwise_filterMap, List.pairwise_iff_getElem]
  constructor
  · intro apart first second op other index found writes otherFound otherWrites
    obtain ⟨inside, rfl⟩ := List.getElem?_eq_some_iff.1 found
    obtain ⟨otherInside, rfl⟩ := List.getElem?_eq_some_iff.1 otherFound
    -- of two different places one comes first
    rcases Nat.lt_trichotomy first second with before | same | after
    · exact absurd rfl (apart first second inside otherInside before _ writes _ otherWrites)
    · exact same
    · exact absurd rfl (apart second first otherInside inside after _ otherWrites _ writes)
  · rintro once first second inside otherInside before index writes other otherWrites rfl
    have same := once first second _ _ index (List.getElem?_eq_getElem inside) writes
      (List.getElem?_eq_getElem otherInside) otherWrites
    omega

/-- Admissible bodies are the well-formed ones. -/
theorem Body.admissible_iff
    (table : Module)
    (name : String)
    (params : List String)
    (body : Body) :
    body.Admissible table params ↔ body.WellFormed table ⟨name, params, some body⟩ := by
  constructor
  · intro admissible
    refine ⟨admissible.nonempty, ?_, ?_, ?_, ?_⟩
    · intro block member
      exact block.shaped_iff.2 (admissible.ended block member)
    · intro op member
      refine ⟨admissible.registers op member, admissible.targets op member, ?_, ?_⟩
      · rintro ⟨operand, type⟩ isRead
        apply (operand.hasType_iff name params body type).1
        exact admissible.typed op member operand type ((op.uses_iff operand type).2 isRead)
      · intro callee count isCall
        cases op with
        | call dest other args =>
            cases isCall
            exact admissible.calls dest callee args member
        | _ => cases isCall
    · exact (nodup_dests_iff body.ops).2 admissible.once
    · intro op member index isOperand
      obtain ⟨type, uses⟩ := (op.uses_some_iff _).2 isOperand
      exact List.mem_filterMap.2 (admissible.written op member index type uses)
  · intro wellFormed
    have fits := wellFormed.fits
    refine ⟨wellFormed.nonempty, ?_, fun op member => (fits op member).dest,
      (nodup_dests_iff body.ops).1 wellFormed.once, fun op member => (fits op member).targets,
      ?_, ?_, ?_⟩
    · intro block member
      exact block.shaped_iff.1 (wellFormed.shaped block member)
    · intro op member operand type uses
      apply (operand.hasType_iff name params body type).2
      exact (fits op member).reads _ ((op.uses_iff operand type).1 uses)
    · intro dest callee args member
      exact (fits _ member).callee callee args.length rfl
    · intro op member index type uses
      have isOperand := (op.uses_some_iff _).1 ⟨type, uses⟩
      exact List.mem_filterMap.1 (wellFormed.written op member index isOperand)

/-- A function with a body passes the checks exactly when the body is admissible, a function
without a body always, and a module exactly when all of its functions do. -/
theorem Module.verify_decides (table : Module) :
    (∀ name params body, table.verifyFunction ⟨name, params, some body⟩ = .ok () ↔
        body.Admissible table params) ∧
      (∀ name params, table.verifyFunction ⟨name, params, none⟩ = .ok ()) ∧
      (table.verify = .ok () ↔
        ∀ function ∈ table.functions, table.verifyFunction function = .ok ()) := by
  refine ⟨?_, fun name params => rfl, verify_eq_ok_iff table⟩
  intro name params body
  rw [verifyFunction_eq_ok_iff, body.admissible_iff table name params]
  simp

end Code
end ScalarScript
