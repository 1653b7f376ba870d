import ScalarScript.Code.WellFormed
import ScalarScript.Proofs.Table

/-!
# What the checks accept

The checks of a body go through its ops and stop at the first defect.  This module says
what a body without defects is, without an order: `Body.WellFormed` asks the same of every
block and of every op.  `verifyFunction_eq_ok_iff` is the equivalence.

Checking a function asks only one thing of the module, namely the arities of the
functions that are called.  A module that keeps all arities therefore keeps all verdicts.
-/

namespace ScalarScript
namespace Code

/-- A composed check succeeds when both of its parts do. -/
theorem bind_eq_ok_iff
    {ε α β : Type}
    (first : Except ε α)
    (next : α → Except ε β)
    (result : β) :
    (first >>= next) = .ok result ↔
      ∃ value, first = .ok value ∧ next value = .ok result := by
  cases first with
  | error failure => simp [bind, Except.bind]
  | ok value => simp [bind, Except.bind]

/-- Two checks pass together if both do. -/
theorem then_eq_ok_iff
    {ε β : Type}
    (first : Except ε Unit)
    (next : Unit → Except ε β)
    (result : β) :
    (first >>= next) = .ok result ↔ first = .ok () ∧ next () = .ok result := by
  rw [bind_eq_ok_iff]
  exact ⟨fun ⟨(), both⟩ => both, fun both => ⟨(), both⟩⟩

/-! ## The demands of one op -/

namespace Op

/-- What the op reads, each operand with the type that the op expects. -/
def reads : Op → List (Operand × ValueType)
  | .arith _ _ lhs rhs => [(lhs, .double), (rhs, .double)]
  | .compare _ _ lhs rhs => [(lhs, .double), (rhs, .double)]
  | .widen _ src => [(src, .bool)]
  | .call _ _ args => args.map fun arg => (arg, .double)
  | .jump _ => []
  | .branch condition _ _ => [(condition, .bool)]
  | .ret value => value.toList.map fun operand => (operand, .double)

/-- The register that the op writes, with the type of what it writes. -/
def result? : Op → Option (Nat × ValueType)
  | .arith _ dest _ _ => some (dest, .double)
  | .compare dest _ _ _ => some (dest, .bool)
  | .widen dest _ => some (dest, .double)
  | .call dest _ _ => some (dest, .double)
  | .jump .. | .branch .. | .ret .. => none

/-- The function that the op calls, with the number of arguments passed. -/
def callee? : Op → Option (String × Nat)
  | .call _ callee args => some (callee, args.length)
  | _ => none

theorem reads_map_fst (op : Op) : op.reads.map Prod.fst = op.operands := by
  cases op with
  | call dest callee args => simp [reads, operands, Function.comp_def]
  | ret value => cases value <;> rfl
  | _ => rfl

theorem result?_map_fst (op : Op) : op.result?.map Prod.fst = op.dest? := by
  cases op <;> rfl

theorem dest?_of_result?
    {op : Op}
    {index : Nat}
    {type : ValueType}
    (writes : op.result? = some (index, type)) :
    op.dest? = some index := by
  rw [← op.result?_map_fst, writes]
  rfl

theorem isTerminator_of_result?
    {op : Op}
    {written : Nat × ValueType}
    (writes : op.result? = some written) :
    op.isTerminator = false := by
  cases op with
  | jump target => cases writes
  | branch condition thenBlock elseBlock => cases writes
  | ret value => cases writes
  | _ => rfl

/-- The op writes a register that exists, goes to blocks that exist, reads operands of the
types it expects and calls a function with as many arguments as it has parameters. -/
structure Fits
    (table : Module)
    (function : Function)
    (body : Body)
    (op : Op) : Prop where
  dest : ∀ index, op.dest? = some index → index < body.registers.length
  targets : ∀ target ∈ op.successors, target < body.blocks.length
  reads : ∀ read ∈ op.reads, function.typeOf? read.1 = some read.2
  callee : ∀ callee count, op.callee? = some (callee, count) →
    ∃ target, table.find? callee = some target ∧ target.arity = count

end Op

/-- An operand passes exactly if it has the type of its role. -/
theorem checkOperand_eq_ok_iff
    (function : Function)
    (role : Role)
    (operand : Operand) :
    checkOperand function role operand = .ok () ↔
      function.typeOf? operand = some role.type := by
  unfold checkOperand
  cases type : function.typeOf? operand with
  | none => simp
  | some found =>
      by_cases same : found = role.type
      · simp [same]
      · simp [same]

theorem checkOperands_eq_ok_iff
    (function : Function)
    (role : Role)
    (operands : List Operand) :
    checkOperands function role operands = .ok () ↔
      ∀ operand ∈ operands, function.typeOf? operand = some role.type := by
  induction operands with
  | nil => simp [checkOperands]
  | cons operand operands inductionHypothesis =>
      rw [checkOperands, then_eq_ok_iff]
      simp [checkOperand_eq_ok_iff, inductionHypothesis]

/-- The reads of an instruction pass exactly if its operands have their types and its callee exists
with as many parameters. -/
theorem checkReads_eq_ok_iff
    (table : Module)
    (function : Function)
    (op : Op) :
    checkReads table function op = .ok () ↔
      (∀ read ∈ op.reads, function.typeOf? read.1 = some read.2) ∧
        ∀ callee count, op.callee? = some (callee, count) →
          ∃ target, table.find? callee = some target ∧ target.arity = count := by
  cases op with
  | arith op dest lhs rhs =>
      simp [checkReads, checkOperands_eq_ok_iff, Op.reads, Op.callee?, Role.type]
  | compare dest predicate lhs rhs =>
      simp [checkReads, checkOperands_eq_ok_iff, Op.reads, Op.callee?, Role.type]
  | widen dest src =>
      simp [checkReads, checkOperand_eq_ok_iff, Op.reads, Op.callee?, Role.type]
  | jump target => simp [checkReads, Op.reads, Op.callee?]
  | branch condition thenBlock elseBlock =>
      simp [checkReads, checkOperand_eq_ok_iff, Op.reads, Op.callee?, Role.type]
  | ret value =>
      cases value with
      | none => simp [checkReads, Op.reads, Op.callee?]
      | some operand =>
          simp [checkReads, checkOperand_eq_ok_iff, Op.reads, Op.callee?, Role.type]
  | call dest callee args =>
      unfold checkReads
      cases found : table.find? callee with
      | none => simp [Op.callee?, found]
      | some target =>
          by_cases count : target.arity = args.length
          · simp [count, checkOperands_eq_ok_iff, Op.reads, Op.callee?, Role.type, found]
          · simp [count, Op.callee?, found]

/-- Jumps pass exactly if their targets are blocks of the body. -/
theorem checkTargets_eq_ok_iff
    (body : Body)
    (targets : List Nat) :
    checkTargets body targets = .ok () ↔ ∀ target ∈ targets, target < body.blocks.length := by
  induction targets with
  | nil => simp [checkTargets]
  | cons target targets inductionHypothesis =>
      unfold checkTargets
      by_cases inside : target < body.blocks.length
      · simp [inside, inductionHypothesis]
      · simp [inside]

/-- The register of an instruction passes exactly if it exists and has not been written. -/
theorem checkDest_eq_ok_iff
    (body : Body)
    (written : List Nat)
    (op : Op)
    (next : List Nat) :
    checkDest body written op = .ok next ↔
      (∀ index, op.dest? = some index → index < body.registers.length ∧ index ∉ written) ∧
        next = op.dest?.toList ++ written := by
  unfold checkDest
  cases dest : op.dest? with
  | none => simp [eq_comm]
  | some index =>
      by_cases inside : index < body.registers.length
      · by_cases again : index ∈ written
        · simp [inside, again]
        · simp [inside, again, eq_comm]
      · simp [inside]

/-! ## The demands of a list of ops -/

/-- The registers that ops write, in order. -/
def dests (ops : List Op) : List Nat :=
  ops.filterMap Op.dest?

@[simp] theorem dests_nil : dests [] = [] := rfl

theorem dests_cons
    (op : Op)
    (ops : List Op) :
    dests (op :: ops) = op.dest?.toList ++ dests ops := by
  cases dest : op.dest? <;> simp [dests, dest]

@[simp] theorem dests_append
    (front back : List Op) :
    dests (front ++ back) = dests front ++ dests back :=
  List.filterMap_append

/-- The checked ops each fit, and they write registers that are distinct and not among
those written before. -/
theorem checkOps_eq_ok_iff
    (table : Module)
    (function : Function)
    (body : Body)
    (ops : List Op)
    (written final : List Nat) :
    checkOps table function body written ops = .ok final ↔
      (∀ op ∈ ops, op.Fits table function body) ∧
        ((dests ops).Nodup ∧ ∀ index ∈ dests ops, index ∉ written) ∧
          final = (dests ops).reverse ++ written := by
  induction ops generalizing written with
  | nil => simp [checkOps, eq_comm]
  | cons op ops inductionHypothesis =>
      unfold checkOps
      simp only [then_eq_ok_iff, bind_eq_ok_iff (checkDest _ _ _), checkDest_eq_ok_iff,
        checkTargets_eq_ok_iff, checkReads_eq_ok_iff, inductionHypothesis, dests_cons]
      constructor
      · rintro ⟨_, ⟨dest, rfl⟩, targets, ⟨reads, callee⟩, fits, ⟨once, fresh⟩, rfl⟩
        refine ⟨?_, ?_, ?_⟩
        · rw [List.forall_mem_cons]
          exact ⟨⟨fun index isDest => (dest index isDest).1, targets, reads, callee⟩, fits⟩
        · cases isDest : op.dest? with
          | none => simpa [isDest] using And.intro once fresh
          | some index =>
              have unwritten := (dest index isDest).2
              simp only [isDest, Option.toList_some, List.cons_append, List.nil_append,
                List.mem_cons, not_or] at fresh ⊢
              refine ⟨List.nodup_cons.2 ⟨fun again => ?_, once⟩, ?_⟩
              · exact (fresh index again).1 rfl
              · rintro other (rfl | member)
                · exact unwritten
                · exact (fresh other member).2
        · cases isDest : op.dest? <;> simp
      · rintro ⟨fits, ⟨once, fresh⟩, rfl⟩
        rw [List.forall_mem_cons] at fits
        obtain ⟨here, fits⟩ := fits
        refine ⟨_, ⟨?_, rfl⟩, here.targets, ⟨here.reads, here.callee⟩, fits, ?_, ?_⟩
        · intro index isDest
          exact ⟨here.dest index isDest, fresh index (by simp [isDest])⟩
        · cases isDest : op.dest? with
          | none => simpa [isDest] using And.intro once fresh
          | some index =>
              simp only [isDest, Option.toList_some, List.cons_append, List.nil_append,
                List.nodup_cons, List.mem_cons, not_or] at once fresh ⊢
              refine ⟨once.2, fun other member => ⟨?_, fresh other (Or.inr member)⟩⟩
              rintro rfl
              exact once.1 member
        · cases isDest : op.dest? <;> simp

/-! ## The demands of a body -/

/-- The block ends in its only terminator. -/
def Block.Shaped (block : Block) : Prop :=
  ∃ front last, block.ops = front ++ [last] ∧ last.isTerminator = true ∧
    ∀ op ∈ front, op.isTerminator = false

/-- A block passes exactly if it ends with its only terminator. -/
theorem checkShape_eq_ok_iff (block : Block) :
    checkShape block = .ok () ↔ block.Shaped := by
  unfold checkShape Block.Shaped
  rcases List.eq_nil_or_concat block.ops with empty | ⟨front, last, split⟩
  · simp [empty]
  · rw [split]
    simp only [List.concat_eq_append, List.getLast?_append, List.getLast?_singleton,
      Option.some_or, List.dropLast_concat]
    constructor
    · intro checked
      cases ends : last.isTerminator with
      | false => simp [ends] at checked
      | true =>
          refine ⟨front, last, rfl, ends, ?_⟩
          intro op member
          cases early : op.isTerminator with
          | false => rfl
          | true =>
              have someEnds : front.any Op.isTerminator = true :=
                List.any_eq_true.2 ⟨op, member, early⟩
              simp [ends, someEnds] at checked
    · rintro ⟨otherFront, otherLast, same, ends, straight⟩
      obtain ⟨rfl, sameLast⟩ := List.append_inj' same rfl
      obtain rfl : last = otherLast := by simpa using sameLast
      have late : front.any Op.isTerminator = false := by
        rw [List.any_eq_false]
        intro op member
        simp [straight op member]
      simp [ends, late]

namespace Body

/-- The ops of all blocks, in order. -/
def ops (body : Body) : List Op :=
  body.blocks.flatMap fun block => block.ops

/-- A body without defects, inside a function of a module. -/
structure WellFormed
    (table : Module)
    (function : Function)
    (body : Body) : Prop where
  nonempty : body.blocks ≠ []
  shaped : ∀ block ∈ body.blocks, block.Shaped
  fits : ∀ op ∈ body.ops, op.Fits table function body
  /-- No register is written by two ops. -/
  once : (dests body.ops).Nodup
  /-- What is read is written somewhere. -/
  written : ∀ op ∈ body.ops, ∀ index, Operand.reg index ∈ op.operands → index ∈ dests body.ops

end Body

/-- Blocks pass exactly if each is shaped and their instructions pass one after another. -/
theorem checkBlocks_eq_ok_iff
    (table : Module)
    (function : Function)
    (body : Body)
    (blocks : List Block)
    (written final : List Nat) :
    checkBlocks table function body written blocks = .ok final ↔
      (∀ block ∈ blocks, block.Shaped) ∧
        checkOps table function body written (blocks.flatMap fun block => block.ops) =
          .ok final := by
  induction blocks generalizing written with
  | nil => simp [checkBlocks, checkOps]
  | cons block blocks inductionHypothesis =>
      unfold checkBlocks
      simp only [then_eq_ok_iff, bind_eq_ok_iff (checkOps _ _ _ _ _), checkShape_eq_ok_iff,
        inductionHypothesis, List.flatMap_cons, checkOps_eq_ok_iff, List.forall_mem_cons,
        List.forall_mem_append, dests_append, List.nodup_append]
      constructor
      · rintro ⟨shaped, _, ⟨fits, ⟨once, fresh⟩, rfl⟩, others, otherFits,
          ⟨otherOnce, otherFresh⟩, rfl⟩
        simp only [List.mem_append, List.mem_reverse, not_or] at otherFresh
        refine ⟨⟨shaped, others⟩, ⟨fits, otherFits⟩, ⟨⟨once, otherOnce, ?_⟩, ?_⟩, by simp⟩
        · rintro index member _ later rfl
          exact (otherFresh index later).1 member
        · exact ⟨fresh, fun index later => (otherFresh index later).2⟩
      · rintro ⟨⟨shaped, others⟩, ⟨fits, otherFits⟩, ⟨⟨once, otherOnce, apart⟩, ⟨fresh,
          otherFresh⟩⟩, rfl⟩
        refine ⟨shaped, _, ⟨fits, ⟨once, fresh⟩, rfl⟩, others, otherFits, ⟨otherOnce, ?_⟩, by simp⟩
        intro index later
        simp only [List.mem_append, List.mem_reverse, not_or]
        exact ⟨fun early => apart index early index later rfl, otherFresh index later⟩

/-- Operands pass exactly if their registers are written somewhere. -/
theorem checkWritten_eq_ok_iff
    (written : List Nat)
    (operands : List Operand) :
    checkWritten written operands = .ok () ↔
      ∀ index, Operand.reg index ∈ operands → index ∈ written := by
  induction operands with
  | nil => simp [checkWritten]
  | cons operand operands inductionHypothesis =>
      cases operand with
      | const value => simp [checkWritten, inductionHypothesis]
      | arg index => simp [checkWritten, inductionHypothesis]
      | reg index =>
          by_cases known : index ∈ written
          · simp [checkWritten, known, inductionHypothesis]
          · simp [checkWritten, known]

/-- The checks accept a body exactly when it is well-formed. -/
theorem checkBody_eq_ok_iff
    (table : Module)
    (function : Function)
    (body : Body) :
    checkBody table function body = .ok () ↔ body.WellFormed table function := by
  unfold checkBody
  by_cases empty : body.blocks = []
  · constructor
    · intro checked
      simp [empty, throw, throwThe, MonadExceptOf.throw, bind, Except.bind] at checked
    · intro wellFormed
      exact absurd empty wellFormed.nonempty
  · have nonempty : body.blocks.isEmpty = false := by simpa using empty
    simp only [nonempty, Bool.false_eq_true, if_false,
      bind_eq_ok_iff (checkBlocks _ _ _ _ _), checkBlocks_eq_ok_iff, checkOps_eq_ok_iff,
      checkWritten_eq_ok_iff]
    constructor
    · rintro ⟨_, ⟨shaped, fits, ⟨once, _⟩, rfl⟩, known⟩
      refine ⟨empty, shaped, fits, once, ?_⟩
      intro op member index isRead
      have isOperand : Operand.reg index ∈ body.operands := by
        simp only [Body.operands, List.mem_flatMap]
        obtain ⟨block, blockMember, opMember⟩ := List.mem_flatMap.1 member
        exact ⟨block, blockMember, op, opMember, isRead⟩
      simpa [Body.ops] using known index isOperand
    · intro wellFormed
      refine ⟨_, ⟨wellFormed.shaped, wellFormed.fits, ⟨wellFormed.once, by simp⟩, rfl⟩, ?_⟩
      intro index isOperand
      simp only [Body.operands, List.mem_flatMap] at isOperand
      obtain ⟨block, blockMember, op, opMember, isRead⟩ := isOperand
      have member : op ∈ body.ops := List.mem_flatMap.2 ⟨block, blockMember, opMember⟩
      simpa [Body.ops] using wellFormed.written op member index isRead

namespace Module

/-- A function has no defect exactly when its body, if it has one, is well-formed. -/
theorem verifyFunction_eq_ok_iff
    (table : Module)
    (function : Function) :
    table.verifyFunction function = .ok () ↔
      ∀ body, function.body = some body → body.WellFormed table function := by
  unfold verifyFunction
  cases defined : function.body with
  | none => simp
  | some body =>
      simp only [Option.some.injEq, forall_eq', ← checkBody_eq_ok_iff]
      cases checkBody table function body with
      | error defect => simp
      | ok _ => simp

/-- Functions pass exactly if each of them does. -/
theorem verifyAll_eq_ok_iff
    (table : Module)
    (functions : List Function) :
    table.verifyAll functions = .ok () ↔
      ∀ function ∈ functions, table.verifyFunction function = .ok () := by
  induction functions with
  | nil => simp [verifyAll]
  | cons function functions inductionHypothesis =>
      rw [verifyAll, then_eq_ok_iff, inductionHypothesis, List.forall_mem_cons]

/-- A module has no defect exactly when none of its functions has one. -/
theorem verify_eq_ok_iff (table : Module) :
    table.verify = .ok () ↔
      ∀ function ∈ table.functions, table.verifyFunction function = .ok () :=
  verifyAll_eq_ok_iff table table.functions

/-- In a module without a defect every body is well-formed. -/
theorem wellFormed_of_verify
    {table : Module}
    (verified : table.verify = .ok ())
    {function : Function}
    (member : function ∈ table.functions)
    {body : Body}
    (defined : function.body = some body) :
    body.WellFormed table function := by
  have checked := (verify_eq_ok_iff table).1 verified function member
  exact (verifyFunction_eq_ok_iff table function).1 checked body defined

end Module

/-! ## Larger tables -/

/-- An instruction fits a larger table that keeps the numbers of parameters. -/
theorem Op.Fits.mono
    {table larger : Module}
    (keeps : table.KeepsArities larger)
    {function : Function}
    {body : Body}
    {op : Op}
    (fits : op.Fits table function body) :
    op.Fits larger function body where
  dest := fits.dest
  targets := fits.targets
  reads := fits.reads
  callee := by
    intro callee count isCall
    obtain ⟨target, found, arity⟩ := fits.callee callee count isCall
    obtain ⟨kept, keptFound, keptArity⟩ := keeps callee target found
    exact ⟨kept, keptFound, keptArity.trans arity⟩

/-- A body is well-formed in a larger table that keeps the numbers of parameters. -/
theorem Body.WellFormed.mono
    {table larger : Module}
    (keeps : table.KeepsArities larger)
    {function : Function}
    {body : Body}
    (wellFormed : body.WellFormed table function) :
    body.WellFormed larger function where
  nonempty := wellFormed.nonempty
  shaped := wellFormed.shaped
  fits := fun op member => (wellFormed.fits op member).mono keeps
  once := wellFormed.once
  written := wellFormed.written

/-- A function without a defect has none in a module that keeps all arities. -/
theorem Module.verifyFunction_mono
    {table larger : Module}
    (keeps : table.KeepsArities larger)
    {function : Function}
    (verified : table.verifyFunction function = .ok ()) :
    larger.verifyFunction function = .ok () := by
  rw [verifyFunction_eq_ok_iff] at verified ⊢
  exact fun body defined => (verified body defined).mono keeps

end Code
end ScalarScript
