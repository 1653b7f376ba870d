import Mathlib.Data.List.Perm.Subperm
import ScalarScript.Proofs.Acyclic
import ScalarScript.Proofs.CallSafety
import ScalarScript.Proofs.Ending

/-!
# Calls of lowered code end

A call follows the edges between the blocks of its body.  Where these form no cycle, it
enters each block at most once, so it needs no more steps than the body has blocks; and as
calls nest only up to a limit, every call ends.

`visiting` is the run of a body that in addition lists the blocks that it enters.
-/

namespace ScalarScript
namespace Machine

open Lowering

/-! ## The blocks that a call enters -/

/-- Runs blocks as `runBlocks` does, and lists the blocks that this call enters.  The blocks
entered by the calls that it makes are not among them. -/
def visiting (call : String → List Float → Exec Float) (body : Code.Body) :
    (steps : Nat) → (index : Nat) → Frame → List Event →
      List Nat × EStateM.Result Stop (List Event) Float
  | 0, _, _, events => ([], .error .outOfSteps events)
  | steps + 1, index, frame, events =>
      match body.blocks[index]? with
      | none =>
          ([], .error (.fault (.invalidBody frame.function (.unknownBlock index))) events)
      | some block =>
          match runOps call frame block.ops (.entered frame.function block.label :: events) with
          | .error stop later => ([index], .error stop later)
          | .ok (_, .done value) later => ([index], .ok value later)
          | .ok (after, .goto next) later =>
              let rest := visiting call body steps next after later
              (index :: rest.1, rest.2)
          | .ok (after, .missing) later =>
              ([index],
                .error (.fault (.invalidBody after.function (.noTerminator block.label))) later)

section

variable (call : String → List Float → Exec Float) (body : Code.Body)

/-- Without the list of blocks it is the run itself. -/
theorem visiting_snd
    (steps index : Nat)
    (frame : Frame)
    (events : List Event) :
    (visiting call body steps index frame events).2 =
      runBlocks call body steps index frame events := by
  induction steps generalizing index frame events with
  | zero => rfl
  | succ steps inductionHypothesis =>
      unfold visiting runBlocks
      cases body.blocks[index]? with
      | none => rfl
      | some block =>
          dsimp only
          change _ = EStateM.bind (runOps call frame block.ops) _
            (.entered frame.function block.label :: events)
          unfold EStateM.bind
          cases runOps call frame block.ops (.entered frame.function block.label :: events) with
          | error stop later => rfl
          | ok ended later =>
              obtain ⟨after, transfer⟩ := ended
              cases transfer with
              | done value => rfl
              | goto next => exact inductionHypothesis next after later
              | missing => rfl

variable {call body}

theorem mem_successors_of_transfer?
    {frame : Frame}
    {op : Code.Op}
    {next : Nat}
    (transferred : transfer? frame op = some (.ok (.goto next))) :
    next ∈ op.successors := by
  cases op with
  | jump target =>
      cases transferred
      exact List.mem_singleton_self _
  | branch condition thenBlock elseBlock =>
      simp only [transfer?, Option.some.injEq] at transferred
      cases flag : frame.readBool condition with
      | error fault =>
          rw [flag] at transferred
          cases transferred
      | ok decision =>
          rw [flag] at transferred
          cases transferred
          cases decision <;> simp [Code.Op.successors]
  | ret value =>
      cases value with
      | none => cases transferred
      | some operand =>
          simp only [transfer?, Option.some.injEq] at transferred
          cases read : frame.readDouble operand with
          | error fault =>
              rw [read] at transferred
              cases transferred
          | ok result =>
              rw [read] at transferred
              cases transferred
  | _ => cases transferred

/-- A block is left towards a target of one of its ops. -/
theorem exists_successor_of_runOps
    {frame after : Frame}
    {ops : List Code.Op}
    {next : Nat}
    {events later : List Event}
    (ran : runOps call frame ops events = .ok (after, .goto next) later) :
    ∃ op ∈ ops, next ∈ op.successors := by
  induction ops generalizing frame events with
  | nil => cases ran
  | cons op ops inductionHypothesis =>
      unfold runOps at ran
      cases transferred : transfer? frame op with
      | some result =>
          rw [transferred] at ran
          cases result with
          | error fault => cases ran
          | ok transfer =>
              cases ran
              exact ⟨op, List.mem_cons_self, mem_successors_of_transfer? transferred⟩
      | none =>
          rw [transferred] at ran
          change EStateM.bind (step call frame op) (fun frame => runOps call frame ops) events = _
            at ran
          unfold EStateM.bind at ran
          cases stepped : step call frame op events with
          | error stop middle =>
              rw [stepped] at ran
              cases ran
          | ok middle passed =>
              rw [stepped] at ran
              obtain ⟨other, member, isTarget⟩ := inductionHypothesis ran
              exact ⟨other, List.mem_cons_of_mem _ member, isTarget⟩

/-- After its first block a call goes on to one that the first leads to, or it is over, and
then it is out of steps only if a call that the block makes is. -/
theorem visiting_succ_cases
    (steps index : Nat)
    (frame : Frame)
    (events : List Event) :
    (∃ next after later, body.LeadsTo index next ∧
      visiting call body (steps + 1) index frame events =
        (index :: (visiting call body steps next after later).1,
          (visiting call body steps next after later).2)) ∨
      ((visiting call body (steps + 1) index frame events).1 = [] ∨
        (visiting call body (steps + 1) index frame events).1 = [index]) ∧
        ∀ last, (visiting call body (steps + 1) index frame events).2 = .error .outOfSteps last →
          ∃ ops earlier, runOps call frame ops earlier = .error .outOfSteps last := by
  rw [visiting]
  cases found : body.blocks[index]? with
  | none => exact .inr ⟨.inl rfl, nofun⟩
  | some block =>
      dsimp only
      cases ran : runOps call frame block.ops (.entered frame.function block.label :: events) with
      | error stop later =>
          refine .inr ⟨.inr rfl, ?_⟩
          rintro last same
          cases same
          exact ⟨_, _, ran⟩
      | ok ended later =>
          obtain ⟨after, transfer⟩ := ended
          cases transfer with
          | done value => exact .inr ⟨.inr rfl, nofun⟩
          | missing => exact .inr ⟨.inr rfl, nofun⟩
          | goto next =>
              exact .inl ⟨next, after, later, ⟨block, found, exists_successor_of_runOps ran⟩, rfl⟩

/-- The blocks that a call enters lead from one to the next, the first being where it
starts. -/
theorem visiting_chain
    (steps index : Nat)
    (frame : Frame)
    (events : List Event) :
    (visiting call body steps index frame events).1.IsChain body.LeadsTo ∧
      ∀ first ∈ (visiting call body steps index frame events).1.head?, first = index := by
  induction steps generalizing index frame events with
  | zero => exact ⟨List.isChain_nil, nofun⟩
  | succ steps inductionHypothesis =>
      rcases visiting_succ_cases steps index frame events with
        ⟨next, after, later, leads, same⟩ | ⟨none | one, _⟩
      · obtain ⟨chain, starts⟩ := inductionHypothesis next after later
        rw [same]
        refine ⟨List.isChain_cons.2 ⟨?_, chain⟩, by simp⟩
        intro first isFirst
        rw [starts first isFirst]
        exact leads
      · rw [none]
        exact ⟨List.isChain_nil, nofun⟩
      · rw [one]
        exact ⟨List.isChain_singleton index, by simp⟩

/-- The run never is out of steps. -/
def Finishes {α : Type} (run : Exec α) : Prop :=
  ∀ events later, run events ≠ .error .outOfSteps later

namespace Finishes

theorem pure {α : Type} (value : α) : Finishes (Pure.pure value) :=
  fun _ _ => nofun

theorem fail {α : Type} (fault : Fault) : Finishes (Machine.fail fault : Exec α) :=
  fun _ _ => nofun

theorem bind
    {α β : Type}
    {run : Exec α}
    {next : α → Exec β}
    (first : Finishes run)
    (second : ∀ value, Finishes (next value)) :
    Finishes (run >>= next) := by
  intro events later
  change EStateM.bind run next events ≠ _
  unfold EStateM.bind
  cases ran : run events with
  | ok value middle => exact second value middle later
  | error stop middle =>
      intro stopped
      cases stopped
      exact first events _ ran

/-- The first of two runs finishes whatever the second does. -/
theorem congruence : Congruence fun _ run _ => Finishes run where
  pure := fun _ => pure
  fail := fun _ => fail
  record := fun _ _ _ => nofun
  bind := fun _ _ _ _ _ _ => bind

end Finishes

/-- A call that is out of steps has used them all, and has one more block ahead. -/
theorem visiting_outOfSteps
    (calls : ∀ name args, Finishes (call name args))
    {steps index : Nat}
    {frame : Frame}
    {events last : List Event}
    (stopped : (visiting call body steps index frame events).2 = .error .outOfSteps last) :
    ∃ others, (index :: others).IsChain body.LeadsTo ∧ others.length = steps := by
  induction steps generalizing index frame events with
  | zero => exact ⟨[], List.isChain_singleton index, rfl⟩
  | succ steps inductionHypothesis =>
      rcases visiting_succ_cases steps index frame events with
        ⟨next, after, later, leads, same⟩ | ⟨_, outOfSteps⟩
      · rw [same] at stopped
        obtain ⟨others, chain, length⟩ := inductionHypothesis stopped
        refine ⟨next :: others, List.isChain_cons_cons.2 ⟨leads, chain⟩, ?_⟩
        rw [List.length_cons, length]
      · obtain ⟨ops, earlier, ran⟩ := outOfSteps last stopped
        have related : RelatedCalls (fun _ run _ => Finishes run) call call ops :=
          fun _ _ callee _ _ values => calls callee values
        exact absurd ran (Finishes.congruence.runOps related frame earlier last)

/-- Blocks that lead from one to the next are no more than there are. -/
theorem length_lt_of_chain
    (acyclic : body.Acyclic)
    (closed : ∀ source target, body.LeadsTo source target → target < body.blocks.length)
    {index : Nat}
    (inside : index < body.blocks.length)
    {others : List Nat}
    (chain : (index :: others).IsChain body.LeadsTo) :
    others.length < body.blocks.length := by
  have targets : ∀ {source : Nat} {targets : List Nat}, (source :: targets).IsChain body.LeadsTo →
      ∀ target ∈ targets, target < body.blocks.length := by
    intro source targets chain
    induction targets generalizing source with
    | nil => nofun
    | cons target targets inductionHypothesis =>
        obtain ⟨leads, rest⟩ := List.isChain_cons_cons.1 chain
        exact List.forall_mem_cons.2 ⟨closed source target leads, inductionHypothesis rest⟩
  have exist : (index :: others) ⊆ List.range body.blocks.length := by
    intro target member
    rw [List.mem_range]
    rcases List.mem_cons.1 member with rfl | later
    · exact inside
    · exact targets chain target later
  have bounded := ((acyclic.nodup chain).subperm exist).length_le
  rwa [List.length_cons, List.length_range] at bounded

/-- A body without cycles needs no more steps than it has blocks. -/
theorem runBlocks_finishes
    (acyclic : body.Acyclic)
    (closed : ∀ source target, body.LeadsTo source target → target < body.blocks.length)
    (calls : ∀ name args, Finishes (call name args))
    {steps : Nat}
    (enough : body.blocks.length ≤ steps)
    {index : Nat}
    (inside : index < body.blocks.length)
    (frame : Frame) :
    Finishes (runBlocks call body steps index frame) := by
  intro events last stopped
  rw [← visiting_snd] at stopped
  obtain ⟨others, chain, length⟩ := visiting_outOfSteps calls stopped
  have fewer := length_lt_of_chain acyclic closed inside chain
  omega

end

/-! ## Calls -/

/-- In a table without defects and without cycles no call is out of steps. -/
theorem invoke_finishes
    {table : Code.Module}
    (verified : table.verify = .ok ())
    (acyclic : BodiesAcyclic table)
    {steps : Nat}
    (enough : table.blockCount ≤ steps)
    (limit room : Nat)
    (name : String)
    (args : List Float) :
    Finishes (invoke table limit steps room name args) := by
  induction room using Nat.strongRecOn generalizing name args with
  | ind room inductionHypothesis =>
      unfold invoke
      cases found : table.find? name with
      | none => exact .fail _
      | some function =>
          dsimp only
          split
          · exact .fail _
          · cases code : function.body with
            | none => exact Finishes.congruence.runHost name args
            | some body =>
                dsimp only
                cases room with
                | zero => exact .fail _
                | succ room =>
                    have member := Code.Module.mem_of_find? found
                    have wellFormed := Code.Module.wellFormed_of_verify verified member code
                    have closed : ∀ source target, body.LeadsTo source target →
                        target < body.blocks.length := by
                      rintro source target ⟨block, blockFound, op, isOp, isTarget⟩
                      have isBlock := List.mem_of_getElem? blockFound
                      exact (wellFormed.fits op
                        (List.mem_flatMap.2 ⟨block, isBlock, isOp⟩)).targets target isTarget
                    have nonempty : body.blocks.isEmpty = false := by
                      simpa using wellFormed.nonempty
                    simp only [Code.Body.entry?, nonempty, Bool.false_eq_true, if_false]
                    exact runBlocks_finishes (acyclic name function body found code) closed
                      (inductionHypothesis room (Nat.lt_succ_self room))
                      (Nat.le_trans (length_le_blockCount found code) enough)
                      (List.length_pos_iff.2 wellFormed.nonempty) _

/-- A call in a table without defects and without cycles ends. -/
theorem ends_call
    {table : Code.Module}
    (verified : table.verify = .ok ())
    (acyclic : BodiesAcyclic table)
    (limit : Nat)
    (name : String)
    (args : List Float) :
    Ends table limit name args (call table limit name args) := by
  refine ends_callWithin ?_
  have finishes := invoke_finishes verified acyclic (Nat.le_refl _) limit limit name args []
  unfold callWithin
  intro stopped
  cases ran : invoke table limit table.blockCount limit name args [] with
  | ok value events =>
      rw [ran] at stopped
      cases stopped
  | error stop events =>
      rw [ran] at stopped
      cases stopped
      exact finishes events ran

/-- Every call in a module that comes from texts ends. -/
theorem FromTexts.ends
    {table : Code.Module}
    (fromTexts : FromTexts table)
    (limit : Nat)
    (name : String)
    (args : List Float) :
    Ends table limit name args (call table limit name args) := by
  have acyclic : BodiesAcyclic table :=
    fun name function body found code => (fromTexts.built found code).acyclic code
  exact ends_call fromTexts.sound.verified acyclic limit name args

/-- Lowered code always ends.  A statement that goes through, whatever tree it is, attaches no
body in which a block can be reached from itself; a call enters each block of such a body at
most once, whatever the calls do that it makes.  Every call in a module that comes from texts
ends, under every limit on nested calls. -/
theorem lowered_code_ends :
    (∀ statement table scope name, (lowerStmt statement table scope).result = .ok name →
      ∀ other function body, (lowerStmt statement table scope).table.find? other = some function →
        function.body = some body →
          table.find? other = some function ∨
            other = name ∧ body.Acyclic ∧
              ∀ call steps index frame events,
                (visiting call body steps index frame events).1.Nodup ∧
                  (visiting call body steps index frame events).2 =
                    runBlocks call body steps index frame events) ∧
      ∀ table, FromTexts table → ∀ limit name args,
        Ends table limit name args (call table limit name args) := by
  constructor
  · intro statement table scope name succeeded other function body found code
    refine (lowerStmt_attached succeeded found code).imp_right ?_
    rintro ⟨same, acyclic⟩
    refine ⟨same, acyclic, ?_⟩
    intro call steps index frame events
    exact ⟨acyclic.nodup (visiting_chain steps index frame events).1, visiting_snd ..⟩
  · intro table fromTexts limit name args
    exact fromTexts.ends limit name args

/-- A conditional inside the first arm of another one. -/
def nestedArms : List Stmt :=
  (Parse.ofTokens (scan "def f(x)
    if x < 1 then if x < 0 then x end else return 2 end
    return x end").tokens).result.toOption.getD []

/-- The targets of the blocks of a function, in order. -/
def targets (table : Code.Module) (name : String) : Option (List (List Nat)) :=
  ((table.find? name).bind Code.Function.body).map fun body =>
    body.blocks.map fun block => block.ops.flatMap Code.Op.successors

/-- The sixth block leads back to the fourth, and yet there is no cycle. -/
theorem lowered_code_ends_nestedArms :
    ∃ statement, nestedArms = [statement] ∧
      (lowerStmt statement (.empty "arms") .empty).result = .ok "f" ∧
      targets (lowerStmt statement (.empty "arms") .empty).table "f" =
        some [[1, 2], [4, 5], [], [], [5], [3]] ∧
      (∃ function body,
        (lowerStmt statement (.empty "arms") .empty).table.find? "f" = some function ∧
          function.body = some body ∧ body.Acyclic) ∧
      FromTexts guarded ∧ Ends guarded 10 "guarded" [0] (call guarded 10 "guarded" [0]) := by
  have computed : nestedArms.map (fun statement =>
      ((lowerStmt statement (.empty "arms") .empty).result.toOption,
        targets (lowerStmt statement (.empty "arms") .empty).table "f")) =
        [(some "f", some [[1, 2], [4, 5], [], [], [5], [3]])] := by
    decide +kernel
  obtain ⟨statement, single, computed⟩ := List.map_eq_singleton_iff.1 computed
  obtain ⟨named, leads⟩ := Prod.mk.inj computed
  have succeeded : (lowerStmt statement (.empty "arms") .empty).result = .ok "f" := by
    cases result : (lowerStmt statement (.empty "arms") .empty).result with
    | error error =>
        rw [result] at named
        cases named
    | ok name =>
        rw [result] at named
        cases named
        rfl
  obtain ⟨body, attached, _⟩ := Option.map_eq_some_iff.1 leads
  obtain ⟨function, found, code⟩ := Option.bind_eq_some_iff.1 attached
  have fromTexts : FromTexts guarded := .session ..
  refine ⟨statement, single, succeeded, leads, ⟨function, body, found, code, ?_⟩, fromTexts,
    lowered_code_ends.2 guarded fromTexts 10 "guarded" [0]⟩
  rcases lowered_code_ends.1 statement _ _ _ succeeded _ _ _ found code with former | new
  · cases former
  · exact new.2.1

end Machine
end ScalarScript
