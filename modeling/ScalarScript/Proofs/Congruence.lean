import ScalarScript.Machine.Run
import ScalarScript.Proofs.WellFormed

/-!
# Relations that the machine respects

Much of what is proved about runs does not depend on what the ops compute: that a run under
tighter limits is cut short, that it is never out of steps, that it depends only on the
functions it calls.  Such a fact is a relation between two runs of the same code that differ
in the calls they make.  A relation that holds of the simplest runs and goes through `bind`
holds of ops, blocks and host functions once it holds of the calls.
-/

namespace ScalarScript
namespace Machine

/-- A relation that holds between the simplest runs and themselves, and that runs one after the
other inherit. -/
structure Congruence (relates : ∀ ⦃α : Type⦄, Exec α → Exec α → Prop) : Prop where
  pure : ∀ ⦃α : Type⦄ (value : α), relates (Pure.pure value) (Pure.pure value)
  fail : ∀ ⦃α : Type⦄ (fault : Fault),
    relates (Machine.fail fault : Exec α) (Machine.fail fault)
  record : ∀ event, relates (Machine.record event) (Machine.record event)
  bind : ∀ ⦃α β : Type⦄ {run other : Exec α} {next otherNext : α → Exec β},
    relates run other → (∀ value, relates (next value) (otherNext value)) →
      relates (run >>= next) (other >>= otherNext)

/-- The calls that some ops make are related. -/
def RelatedCalls
    (relates : ∀ ⦃α : Type⦄, Exec α → Exec α → Prop)
    (call other : String → List Float → Exec Float)
    (ops : List Code.Op) : Prop :=
  ∀ op ∈ ops, ∀ callee count, op.callee? = some (callee, count) →
    ∀ values, relates (call callee values) (other callee values)

namespace Congruence

variable
  {relates : ∀ ⦃α : Type⦄, Exec α → Exec α → Prop}
  (congruence : Congruence relates)
  {call other : String → List Float → Exec Float}

include congruence

theorem lift {α : Type} (result : Except Fault α) :
    relates (Machine.lift result) (Machine.lift result) := by
  cases result with
  | ok value => exact congruence.pure value
  | error fault => exact congruence.fail fault

/-- One op: only a call can make a difference. -/
theorem step
    {op : Code.Op}
    (calls : ∀ callee count, op.callee? = some (callee, count) →
      ∀ values, relates (call callee values) (other callee values))
    (frame : Frame) :
    relates (Machine.step call frame op) (Machine.step other frame op) := by
  cases op with
  | call dest callee args =>
      refine congruence.bind (congruence.lift _) fun values => ?_
      exact congruence.bind (calls callee args.length rfl values) fun result => congruence.lift _
  | arith op dest lhs rhs => exact congruence.lift _
  | compare dest predicate lhs rhs => exact congruence.lift _
  | widen dest src => exact congruence.lift _
  | jump target => exact congruence.pure frame
  | branch condition thenBlock elseBlock => exact congruence.pure frame
  | ret value => exact congruence.pure frame

/-- The ops of a block. -/
theorem runOps
    {ops : List Code.Op}
    (calls : RelatedCalls relates call other ops)
    (frame : Frame) :
    relates (Machine.runOps call frame ops) (Machine.runOps other frame ops) := by
  induction ops generalizing frame with
  | nil => exact congruence.pure _
  | cons op ops inductionHypothesis =>
      obtain ⟨here, later⟩ := List.forall_mem_cons.1 calls
      unfold Machine.runOps
      cases transfer? frame op with
      | some result => exact congruence.bind (congruence.lift result) fun _ => congruence.pure _
      | none =>
          exact congruence.bind (congruence.step here frame) fun after =>
            inductionHypothesis later after

/-- One block more on both sides. -/
theorem runBlocks_succ
    {body : Code.Body}
    (calls : RelatedCalls relates call other body.ops)
    {steps otherSteps : Nat}
    (later : ∀ index frame, relates (runBlocks call body steps index frame)
      (runBlocks other body otherSteps index frame))
    (index : Nat)
    (frame : Frame) :
    relates (runBlocks call body (steps + 1) index frame)
      (runBlocks other body (otherSteps + 1) index frame) := by
  unfold runBlocks
  cases found : body.blocks[index]? with
  | none => exact congruence.fail _
  | some block =>
      have inBlock : RelatedCalls relates call other block.ops := fun op member =>
        calls op (List.mem_flatMap.2 ⟨block, List.mem_of_getElem? found, member⟩)
      refine congruence.bind (congruence.record _) fun _ => ?_
      refine congruence.bind (congruence.runOps inBlock frame) ?_
      rintro ⟨after, transfer⟩
      cases transfer with
      | done value => exact congruence.pure value
      | goto next => exact later next after
      | missing => exact congruence.fail _

/-- Functions without a body. -/
theorem runHost
    (name : String)
    (args : List Float) :
    relates (Machine.runHost name args) (Machine.runHost name args) := by
  unfold Machine.runHost
  cases host? name args with
  | none => exact congruence.fail _
  | some result =>
      simp only
      cases result.printed with
      | none => exact congruence.pure _
      | some text => exact congruence.bind (congruence.record _) fun _ => congruence.pure _

end Congruence

end Machine
end ScalarScript
