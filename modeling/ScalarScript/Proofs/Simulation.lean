import ScalarScript.Proofs.Agreement
import ScalarScript.Proofs.Growth

/-!
# Code does what the statements say

A statement inside a function becomes code that starts at one insertion point and goes on
at another.  `Continues` says that running a finished body from an insertion point on
follows an evaluation; `Realizes` says that a piece of lowering takes such a point back
over a statement: if the code behind the statement follows what comes next, then the code
from the statement on follows the statement and what comes next.

A run enters no block twice.  What is left of its steps is compared with the blocks that
are yet to be created, which is why a conditional needs no more steps than it makes blocks.
-/

namespace ScalarScript
namespace Machine

open Lowering
open Code (Builder)

/-- Runs the rest of a block and then the blocks that it leads to. -/
def proceed (call : String → List Float → Exec Float) (body : Code.Body) (steps : Nat)
    (label : String) (frame : Frame) (ops : List Code.Op) : Exec Float := do
  let (frame, transfer) ← runOps call frame ops
  match transfer with
  | .done value => pure value
  | .goto next => runBlocks call body steps next frame
  | .missing => fail (.invalidBody frame.function (.noTerminator label))

section

variable
  (call : String → List Float → Exec Float)
  (body : Code.Body)
  (args : List Float)

theorem runBlocks_succ
    {index : Nat}
    {block : Code.Block}
    (found : body.blocks[index]? = some block)
    (steps : Nat)
    (frame : Frame) :
    runBlocks call body (steps + 1) index frame =
      record (.entered frame.function block.label) >>= fun _ =>
        proceed call body steps block.label frame block.ops := by
  rw [runBlocks, found]
  rfl

theorem proceed_append
    {front : List Code.Op}
    (straight : ∀ op ∈ front, op.isTerminator = false)
    (back : List Code.Op)
    (steps : Nat)
    (label : String)
    (frame : Frame) :
    proceed call body steps label frame (front ++ back) =
      runStraight call frame front >>= fun after =>
        proceed call body steps label after back := by
  simp only [proceed, runOps_append call frame straight, bind_assoc]

theorem proceed_jump
    (target : Nat)
    (rest : List Code.Op)
    (steps : Nat)
    (label : String)
    (frame : Frame) :
    proceed call body steps label frame (.jump target :: rest) =
      runBlocks call body steps target frame :=
  rfl

theorem proceed_branch
    {frame : Frame}
    {condition : Code.Operand}
    {flag : Bool}
    (read : frame.readBool condition = .ok flag)
    (thenBlock elseBlock : Nat)
    (rest : List Code.Op)
    (steps : Nat)
    (label : String) :
    proceed call body steps label frame (.branch condition thenBlock elseBlock :: rest) =
      runBlocks call body steps (if flag then thenBlock else elseBlock) frame := by
  simp only [proceed, runOps, transfer?, read]
  rfl

theorem proceed_ret
    {frame : Frame}
    {operand : Code.Operand}
    {value : Float}
    (read : frame.readDouble operand = .ok value)
    (rest : List Code.Op)
    (steps : Nat)
    (label : String) :
    proceed call body steps label frame (.ret (some operand) :: rest) = pure value := by
  simp only [proceed, runOps, transfer?, read]
  rfl

theorem proceed_ret_none
    (rest : List Code.Op)
    (steps : Nat)
    (label : String)
    (frame : Frame) :
    proceed call body steps label frame (.ret none :: rest) = pure 0 :=
  rfl

/-! ## Points of a body -/

/-- The frame belongs to a call of the function with the given arguments. -/
def Suits (frame : Frame) : Prop :=
  frame.args = args ∧ frame.registers.length = body.registers.length

/-- From the insertion point of the builder on, running the finished body in a frame of
which `holds` is true follows the evaluation, if beyond the blocks yet to be made `spare`
steps are left. -/
def ContinuesIf (holds : Frame → Prop) (spare : Nat) (builder : Builder)
    (walk : Walk.Eval Float) : Prop :=
  ∀ index block, builder.At index block → (∀ op ∈ block.ops, op.isTerminator = false) →
    ∀ later rest, body.blocks[index]? = some later → later.ops = block.ops ++ rest →
      ∀ steps frame, Suits body args frame → holds frame →
        body.blocks.length + spare ≤ steps + builder.blocks.length →
          Follows Eq (proceed call body steps later.label frame rest) walk

/-- `ContinuesIf` for all frames. -/
def Continues (spare : Nat) (builder : Builder) (walk : Walk.Eval Float) : Prop :=
  ContinuesIf call body args (fun _ => True) spare builder walk

/-- Running the finished body from the start of a block follows the evaluation, if with
`size` blocks made `spare` steps are left. -/
def Starts (spare size index : Nat) (walk : Walk.Eval Float) : Prop :=
  ∀ steps frame, Suits body args frame → body.blocks.length + spare ≤ steps + size →
    Follows Eq (runBlocks call body steps index frame) walk

variable {call body args}

theorem Starts.mono
    {spare size index : Nat}
    {walk : Walk.Eval Float}
    (starts : Starts call body args spare size index walk)
    {otherSpare otherSize : Nat}
    (enough : spare + otherSize ≤ otherSpare + size) :
    Starts call body args otherSpare otherSize index walk :=
  fun steps frame suits left => starts steps frame suits (by omega)

/-- Entering an empty block takes one step. -/
theorem Continues.starts
    {spare : Nat}
    {builder : Builder}
    {walk : Walk.Eval Float}
    {index : Nat}
    (continues : Continues call body args spare (builder.position index) walk)
    (initial : builder.body.Initial body)
    (empty : builder.EmptyAt index) :
    Starts call body args (spare + 1) builder.blocks.length index walk := by
  intro steps frame suits enough
  obtain ⟨label, emptyBlock⟩ := empty
  have here : (builder.position index).At index ⟨label, []⟩ := ⟨rfl, emptyBlock⟩
  obtain ⟨later, found, _⟩ := initial.blocks index _ emptyBlock
  have bounded := initial.length_le
  change builder.blocks.length ≤ body.blocks.length at bounded
  obtain ⟨left, rfl⟩ : ∃ left, steps = left + 1 := ⟨steps - 1, by omega⟩
  rw [runBlocks_succ call body found]
  refine .entered _ _ ?_
  refine continues index _ here (by simp) later later.ops found rfl left frame suits trivial ?_
  change _ ≤ left + builder.blocks.length
  omega

/-- Nothing is said about a builder without a block at its insertion point. -/
theorem Continues.of_at
    {spare : Nat}
    {builder : Builder}
    {walk : Walk.Eval Float}
    (continues : ∀ index block, builder.At index block →
      Continues call body args spare builder walk) :
    Continues call body args spare builder walk :=
  fun index block here => continues index block here index block here

/-- New blocks take up steps that are left. -/
theorem ContinuesIf.createBlocks
    {holds : Frame → Prop}
    {spare : Nat}
    {builder : Builder}
    {hints : List String}
    {walk : Walk.Eval Float}
    (continues : ContinuesIf call body args holds (spare + hints.length)
      (builder.createBlocks hints) walk) :
    ContinuesIf call body args holds spare builder walk := by
  intro index block here straight later rest found split steps frame suits held enough
  refine continues index block (here.createBlocks hints) straight later rest found split steps
    frame suits held ?_
  rw [Builder.length_createBlocks]
  omega

/-- The op that is added next is the one that is run next. -/
theorem ContinuesIf.emit
    {holds : Frame → Prop}
    {spare : Nat}
    {builder : Builder}
    {op : Code.Op}
    (initial : (builder.emit op).body.Initial body)
    {walk : Walk.Eval Float}
    (follows : ∀ steps frame label rest, Suits body args frame → holds frame →
      body.blocks.length + spare ≤ steps + builder.blocks.length →
        Follows Eq (proceed call body steps label frame (op :: rest)) walk) :
    ContinuesIf call body args holds spare builder walk := by
  intro index block here straight later rest found split steps frame suits held enough
  obtain ⟨others, extended⟩ := (here.emit op).split initial found
  obtain rfl : rest = op :: others := by
    have same : block.ops ++ rest = block.ops ++ (op :: others) := by
      rw [← split, extended]
      simp [Code.Block.push]
    exact List.append_cancel_left same
  exact follows steps frame later.label others suits held enough

/-- Straight-line code is run before what comes after it. -/
theorem Continues.straight
    {β : Type}
    {spare : Nat}
    {builder : Builder}
    {emissions : List Emission}
    (straight : ∀ op ∈ opsOf emissions, op.isTerminator = false)
    (initial : (builder.addAll emissions).body.Initial body)
    {holds : β → Frame → Prop}
    {walk : Walk.Eval β}
    {next : β → Walk.Eval Float}
    (follows : ∀ frame, Suits body args frame →
      Follows (fun after value => Suits body args after ∧ holds value after)
        (runStraight call frame (opsOf emissions)) walk)
    (continues : ∀ value,
      ContinuesIf call body args (holds value) spare (builder.addAll emissions) (next value)) :
    Continues call body args spare builder (walk >>= next) := by
  intro index block here straightBefore later rest found split steps frame suits _ enough
  have hereAfter := here.addAll emissions
  obtain ⟨others, extended⟩ := hereAfter.split initial found
  obtain rfl : rest = opsOf emissions ++ others := by
    have same : block.ops ++ rest = block.ops ++ (opsOf emissions ++ others) := by
      rw [← split, extended, List.append_assoc]
    exact List.append_cancel_left same
  rw [proceed_append call body straight]
  refine (follows frame suits).bind ?_
  rintro after value ⟨suitsAfter, held⟩
  refine continues value index _ hereAfter ?_ later others found extended steps after suitsAfter
    held (by have := (Builder.Grows.addAll builder emissions).length_le; omega)
  intro op member
  rcases List.mem_append.1 member with former | added
  · exact straightBefore op former
  · exact straight op added

end

/-- What is evaluated after a statement, unless it returned. -/
def finishWith (after : Walk.Eval Float) : Option Float → Walk.Eval Float
  | some value => pure value
  | none => after

/-- A piece of lowering makes code for a statement. -/
def Realizes
    (call : String → List Float → Exec Float)
    (args : List Float)
    (build : Build Unit)
    (walk : Walk.Eval (Option Float)) : Prop :=
  ∀ builder final, build builder = .ok () final →
    ∀ body : Code.Body, final.body.Initial body → ∀ spare after,
      Continues call body args spare final after →
        Continues call body args spare builder (walk >>= finishWith after)

section

variable
  {call : String → List Float → Exec Float}
  {args : List Float}

/-- Nothing to do. -/
theorem Realizes.nothing : Realizes call args (pure ()) (pure none) := by
  intro builder final built body initial spare after continues
  cases built
  exact continues

theorem Realizes.sequence
    {first second : Build Unit}
    {walkFirst walkSecond : Walk.Eval (Option Float)}
    (firstRealizes : Realizes call args first walkFirst)
    (secondRealizes : Realizes call args second walkSecond)
    (secondGrowing : Growing second) :
    Realizes call args (first >>= fun _ => second)
      (Walk.unlessReturned walkFirst walkSecond) := by
  intro builder final built body initial spare after continues
  obtain ⟨_, middle, firstBuilt, secondBuilt⟩ := (Build.bind_eq_ok_iff ..).1 built
  have initialMiddle := (secondGrowing _ _ secondBuilt).initial.trans initial
  have afterFirst := secondRealizes _ _ secondBuilt body initial spare after continues
  have fromFirst := firstRealizes _ _ firstBuilt body initialMiddle spare _ afterFirst
  have regrouped : Walk.unlessReturned walkFirst walkSecond >>= finishWith after =
      walkFirst >>= finishWith (walkSecond >>= finishWith after) := by
    simp only [Walk.unlessReturned, bind_assoc]
    congr
    funext returned
    cases returned <;> simp [finishWith]
  rw [regrouped]
  exact fromFirst

/-! ## Expressions and returns -/

variable
  {walkCall : String → List Float → Walk.Eval Float}
  {table : Code.Module}
  {scope : Scope}
  {env : String → Option Float}

/-- The code of an expression, put into a finished body, computes its value. -/
theorem exprCode_computes
    (callsFollow : ∀ name args, Follows Eq (call name args) (walkCall name args))
    (binds : Binds scope args env)
    {expr : Expr}
    {builder : Builder}
    {emissions : List Emission}
    {operand : Code.Operand}
    (made : exprCode table scope expr builder.registers.length = ⟨emissions, .ok operand⟩)
    {body : Code.Body}
    (initial : (builder.addAll emissions).body.Initial body)
    {frame : Frame}
    (suits : Suits body args frame) :
    Follows
      (fun after value => Suits body args after ∧ after.readDouble operand = .ok value)
      (runStraight call frame (opsOf emissions)) (Walk.expr walkCall env expr) := by
  have space : builder.registers.length + emissions.length ≤ frame.registers.length := by
    rw [suits.2, ← Builder.length_registers_addAll]
    exact initial.registers
  refine (exprCode_follows callsFollow binds expr made suits.1 space).mono ?_
  rintro after value ⟨kept, read⟩
  exact ⟨⟨kept.args.trans suits.1, kept.size.trans suits.2⟩, read⟩

/-- An expression that stands as a statement. -/
theorem Realizes.expression
    (callsFollow : ∀ name args, Follows Eq (call name args) (walkCall name args))
    (binds : Binds scope args env)
    (expr : Expr) :
    Realizes call args (lowerExpr table scope expr >>= fun _ => pure ())
      (Walk.expr walkCall env expr >>= fun _ => pure none) := by
  intro builder final built body initial spare after continues
  obtain ⟨operand, middle, exprBuilt, same⟩ := (Build.bind_eq_ok_iff ..).1 built
  cases same
  rw [lowerExpr_eq_build, Straight.build_eq_ok_iff] at exprBuilt
  obtain ⟨emissions, made, rfl⟩ := exprBuilt
  rw [bind_assoc]
  refine Continues.straight ((exprCode_lays table binds.given expr).straight made) initial
    (fun frame suits => exprCode_computes callsFollow binds made initial suits) ?_
  intro value index block here straight later rest found split steps frame suits _ enough
  exact continues index block here straight later rest found split steps frame suits trivial
    enough

theorem Realizes.ret
    (callsFollow : ∀ name args, Follows Eq (call name args) (walkCall name args))
    (binds : Binds scope args env)
    (value : Return) :
    Realizes call args (lowerReturn table scope value)
      (some <$> Walk.ret walkCall env value) := by
  intro builder final built body initial spare after _
  have ended : (some <$> Walk.ret walkCall env value) >>= finishWith after =
      Walk.ret walkCall env value >>= fun returned => pure returned := by
    rw [map_eq_pure_bind, bind_assoc]
    simp only [pure_bind, finishWith]
  rw [ended]
  unfold lowerReturn at built
  unfold Walk.ret
  cases returned : value.value with
  | none =>
      simp only [returned] at built ⊢
      cases built
      refine ContinuesIf.emit initial ?_
      intro steps frame label rest suits _ _
      rw [proceed_ret_none]
      exact .pure rfl
  | some expr =>
      simp only [returned] at built ⊢
      obtain ⟨operand, middle, exprBuilt, same⟩ := (Build.bind_eq_ok_iff ..).1 built
      cases same
      rw [lowerExpr_eq_build, Straight.build_eq_ok_iff] at exprBuilt
      obtain ⟨emissions, made, rfl⟩ := exprBuilt
      have initialBefore := (Builder.Grows.emit _ _).initial.trans initial
      refine Continues.straight ((exprCode_lays table binds.given expr).straight made) initialBefore
        (fun frame suits => exprCode_computes callsFollow binds made initialBefore suits) ?_
      intro result
      refine ContinuesIf.emit initial ?_
      intro steps frame label rest suits read _
      rw [proceed_ret call body read]
      exact .pure rfl

/-! ## Conditionals -/

/-- The machine decides a conditional as the evaluation does. -/
theorem holds_one_zero (value : Float) :
    Code.Predicate.holds .one value 0 = Walk.isTrue value := by
  have number : (0 : Float).isNaN = false := by decide
  simp only [Code.Predicate.holds, Walk.isTrue, number, Bool.or_false]

/-- Code that is ended by an op is followed by what that op leads to. -/
theorem Realizes.ending
    {build : Build Unit}
    {walk : Walk.Eval (Option Float)}
    (realizes : Realizes call args build walk)
    {op : Code.Op}
    {builder final : Builder}
    (built : Lowering.ending build op builder = .ok () final)
    {body : Code.Body}
    (initial : final.body.Initial body)
    {spare : Nat}
    {after : Walk.Eval Float}
    (follows : ∀ steps frame label rest, Suits body args frame →
      body.blocks.length + spare ≤ steps + final.blocks.length →
        Follows Eq (proceed call body steps label frame (op :: rest)) after) :
    Continues call body args spare builder (walk >>= finishWith after) := by
  obtain ⟨middle, bodyBuilt, rfl⟩ := ending_ok built
  by_cases ended : middle.isTerminated = true
  · rw [if_pos ended] at initial
    refine realizes _ _ bodyBuilt body initial spare after ?_
    -- code that returned does not get to its end
    intro last block here straight
    rw [here.isTerminated] at ended
    obtain ⟨op, isLast, terminator⟩ := (Option.any_eq_true _ _).1 ended
    rw [straight op (List.mem_of_getLast? isLast)] at terminator
    cases terminator
  · rw [if_neg ended] at initial follows
    have grows := Builder.Grows.emit middle op
    have longer := grows.length_le
    refine realizes _ _ bodyBuilt body (grows.initial.trans initial) spare after ?_
    refine ContinuesIf.emit initial ?_
    intro steps frame label rest suits _ enough
    exact follows steps frame label rest suits (by omega)

/-- An arm is followed by the block where the arms meet. -/
theorem Realizes.arm
    {index merge : Nat}
    {build : Build Unit}
    {walk : Walk.Eval (Option Float)}
    (realizes : Realizes call args build walk)
    {builder final : Builder}
    (built : Lowering.arm index merge build builder = .ok () final)
    {body : Code.Body}
    (initial : final.body.Initial body)
    {spare : Nat}
    {after : Walk.Eval Float}
    (starts : Starts call body args spare final.blocks.length merge after) :
    Continues call body args spare (builder.position index) (walk >>= finishWith after) := by
  rw [arm_eq_ending] at built
  refine realizes.ending built initial ?_
  intro steps frame label rest suits enough
  rw [proceed_jump]
  exact starts steps frame suits enough

theorem conditionCode_computes
    (callsFollow : ∀ name args, Follows Eq (call name args) (walkCall name args))
    (binds : Binds scope args env)
    {condition : Expr}
    {builder : Builder}
    {emissions : List Emission}
    {flag : Code.Operand}
    (made : conditionCode table scope condition builder.registers.length =
      ⟨emissions, .ok flag⟩)
    {body : Code.Body}
    (initial : (builder.addAll emissions).body.Initial body) :
    (∀ op ∈ opsOf emissions, op.isTerminator = false) ∧
      ∀ frame, Suits body args frame →
        Follows
          (fun after value =>
            Suits body args after ∧ after.readBool flag = .ok (Walk.isTrue value))
          (runStraight call frame (opsOf emissions)) (Walk.expr walkCall env condition) := by
  have straight := (conditionCode_lays table binds.given condition).straight made
  rw [conditionCode, Straight.bind_eq_ok_iff] at made
  obtain ⟨front, operand, back, exprMade, emitMade, rfl⟩ := made
  cases emitMade
  rw [Builder.addAll_append] at initial
  have initialFront := (Builder.Grows.addAll _ _).initial.trans initial
  have space : builder.registers.length + front.length < body.registers.length := by
    have room := initial.registers
    change List.length (Builder.registers _) ≤ _ at room
    rw [Builder.length_registers_addAll, Builder.length_registers_addAll] at room
    exact room
  refine ⟨straight, ?_⟩
  intro frame suits
  rw [opsOf_append, runStraight_append, ← bind_pure (Walk.expr walkCall env condition)]
  refine (exprCode_computes callsFollow binds exprMade initialFront suits).bind ?_
  rintro after value ⟨suitsAfter, read⟩
  have exist : builder.registers.length + front.length < after.registers.length := by
    rw [suitsAfter.2]
    exact space
  simp only [opsOf, List.map_cons, List.map_nil, runStraight_singleton,
    step_compare exist read (rfl : after.readDouble (.const 0) = .ok 0), holds_one_zero]
  refine .pure ⟨⟨suitsAfter.1, ?_⟩, Frame.readBool_set exist _⟩
  rw [← suitsAfter.2]
  exact List.length_set

/-- The branch to one of two blocks. -/
theorem ContinuesIf.branch
    {builder : Builder}
    {flag : Code.Operand}
    {thenIndex elseIndex : Nat}
    {body : Code.Body}
    (initial : (builder.emit (.branch flag thenIndex elseIndex)).body.Initial body)
    {spare : Nat}
    {thenWalk elseWalk : Walk.Eval Float}
    (thenStarts : Starts call body args spare builder.blocks.length thenIndex thenWalk)
    (elseStarts : Starts call body args spare builder.blocks.length elseIndex elseWalk)
    (decision : Bool) :
    ContinuesIf call body args (fun frame => frame.readBool flag = .ok decision) spare builder
      (if decision then thenWalk else elseWalk) := by
  refine ContinuesIf.emit initial ?_
  intro steps frame label rest suits read enough
  rw [proceed_branch call body read]
  cases decision with
  | true => exact thenStarts steps frame suits enough
  | false => exact elseStarts steps frame suits enough

/-- The condition and the branch of a conditional, up to the first of its blocks. -/
theorem Continues.fork
    (callsFollow : ∀ name args, Follows Eq (call name args) (walkCall name args))
    (binds : Binds scope args env)
    {condition : Expr}
    {builder : Builder}
    {emissions : List Emission}
    {flag : Code.Operand}
    (made : conditionCode table scope condition builder.registers.length =
      ⟨emissions, .ok flag⟩)
    {hints : List String}
    {thenIndex elseIndex : Nat}
    {body : Code.Body}
    (initial : (((builder.addAll emissions).createBlocks hints).emit
      (.branch flag thenIndex elseIndex)).body.Initial body)
    {spare size : Nat}
    (sizeEq : size = (builder.addAll emissions).blocks.length)
    {thenWalk elseWalk : Walk.Eval Float}
    (thenStarts : Starts call body args (spare + hints.length) (size + hints.length) thenIndex
      thenWalk)
    (elseStarts : Starts call body args (spare + hints.length) (size + hints.length) elseIndex
      elseWalk) :
    Continues call body args spare builder
      (Walk.expr walkCall env condition >>= fun value =>
        if Walk.isTrue value then thenWalk else elseWalk) := by
  rw [sizeEq, ← Builder.length_createBlocks] at thenStarts elseStarts
  have initialOpened := (Builder.Grows.createBlocks _ hints).initial.trans
    ((Builder.Grows.emit _ _).initial.trans initial)
  obtain ⟨straight, computes⟩ := conditionCode_computes callsFollow binds made initialOpened
  refine Continues.straight straight initialOpened computes ?_
  intro value
  have branches := ContinuesIf.branch initial thenStarts elseStarts (Walk.isTrue value)
  exact branches.createBlocks

theorem choose_bind
    (condition : Walk.Eval Float)
    (thenWalk elseWalk : Walk.Eval (Option Float))
    (after : Walk.Eval Float) :
    Walk.choose condition thenWalk elseWalk >>= finishWith after =
      condition >>= fun value =>
        if Walk.isTrue value then thenWalk >>= finishWith after
        else elseWalk >>= finishWith after := by
  rw [Walk.choose, bind_assoc]
  congr
  funext value
  cases Walk.isTrue value <;> rfl

/-- A conditional without other arms. -/
theorem Realizes.branchOnly
    (callsFollow : ∀ name args, Follows Eq (call name args) (walkCall name args))
    (binds : Binds scope args env)
    (condition : Expr)
    {thenArm : Build Unit}
    {thenWalk : Walk.Eval (Option Float)}
    (thenRealizes : Realizes call args thenArm thenWalk)
    (thenGrowing : Growing thenArm) :
    Realizes call args (conditional (lowerExpr table scope condition) thenArm none)
      (Walk.choose (Walk.expr walkCall env condition) thenWalk (pure none)) := by
  intro builder final built body initial spare after continues
  obtain ⟨emissions, flag, size, last, made, sizeEq, armBuilt, rfl⟩ := conditional_none_ok built
  refine Continues.of_at ?_
  intro index block here
  have armGrows := thenGrowing.arm armBuilt
  have initialForked := armGrows.initial.trans initial
  have empty := forked_emptyAt here emissions ["then", "ifcont"] (.branch flag size (size + 1))
  have wide := (grows_forked builder emissions ["then", "ifcont"]
    (.branch flag size (size + 1))).2
  have longer := armGrows.length_le
  simp only [List.length_cons, List.length_nil, ← sizeEq, Builder.position] at wide longer empty
  -- from the merge block on everything comes after the conditional
  have mergeEmpty := (empty (size + 1) (by omega) (by omega)).position armGrows (by omega)
  have mergeStarts := continues.starts initial mergeEmpty
  have thenContinues := thenRealizes.arm armBuilt initial mergeStarts
  have thenStarts := thenContinues.starts initialForked (empty size (by omega) (by omega))
  rw [choose_bind]
  refine Continues.fork callsFollow binds made initialForked sizeEq ?_ ?_
  · refine thenStarts.mono ?_
    simp only [List.length_cons, List.length_nil]
    omega
  · refine mergeStarts.mono ?_
    simp only [List.length_cons, List.length_nil]
    omega

/-- A conditional with another arm. -/
theorem Realizes.branch
    (callsFollow : ∀ name args, Follows Eq (call name args) (walkCall name args))
    (binds : Binds scope args env)
    (condition : Expr)
    {thenArm elseArm : Build Unit}
    {thenWalk elseWalk : Walk.Eval (Option Float)}
    (thenRealizes : Realizes call args thenArm thenWalk)
    (thenGrowing : Growing thenArm)
    (elseRealizes : Realizes call args elseArm elseWalk)
    (elseGrowing : Growing elseArm) :
    Realizes call args (conditional (lowerExpr table scope condition) thenArm (some elseArm))
      (Walk.choose (Walk.expr walkCall env condition) thenWalk elseWalk) := by
  intro builder final built body initial spare after continues
  obtain ⟨emissions, flag, size, middle, last, made, sizeEq, thenBuilt, elseBuilt, rfl⟩ :=
    conditional_some_ok built
  refine Continues.of_at ?_
  intro index block here
  have thenGrows := thenGrowing.arm thenBuilt
  have elseGrows := elseGrowing.arm elseBuilt
  have initialMiddle := elseGrows.initial.trans initial
  have initialForked := thenGrows.initial.trans initialMiddle
  have empty := forked_emptyAt here emissions ["then", "else", "ifcont"]
    (.branch flag size (size + 1))
  have wide := (grows_forked builder emissions ["then", "else", "ifcont"]
    (.branch flag size (size + 1))).2
  have longer := thenGrows.length_le
  have longest := elseGrows.length_le
  simp only [List.length_cons, List.length_nil, ← sizeEq, Builder.position]
    at wide longer longest empty
  have elseEmpty := (empty (size + 1) (by omega) (by omega)).position thenGrows (by omega)
  -- the merge block is still empty after both arms
  have mergeEmptyBetween := (empty (size + 2) (by omega) (by omega)).position thenGrows (by omega)
  have mergeEmpty := mergeEmptyBetween.position elseGrows (by omega)
  have mergeStarts := continues.starts initial mergeEmpty
  have mergeStartsEarlier : Starts call body args (spare + 1) middle.blocks.length (size + 2)
      after := mergeStarts.mono (by omega)
  have thenContinues := thenRealizes.arm thenBuilt initialMiddle mergeStartsEarlier
  have thenStarts := thenContinues.starts initialForked (empty size (by omega) (by omega))
  have elseContinues := elseRealizes.arm elseBuilt initial mergeStarts
  have elseStarts := elseContinues.starts initialMiddle elseEmpty
  rw [choose_bind]
  refine Continues.fork callsFollow binds made initialForked sizeEq ?_ ?_
  · refine thenStarts.mono ?_
    simp only [List.length_cons, List.length_nil]
    omega
  · refine elseStarts.mono ?_
    simp only [List.length_cons, List.length_nil]
    omega

/-! ## Statements and blocks -/

mutual

/-- The code of a statement inside a function does what the statement says. -/
theorem lowerBodyStmt_realizes
    (callsFollow : ∀ name args, Follows Eq (call name args) (walkCall name args))
    (binds : Binds scope args env)
    (statement : Stmt) :
    Realizes call args (lowerBodyStmt table scope statement)
      (Walk.stmt walkCall env statement) := by
  cases statement with
  | expression proto body =>
      rw [lowerBodyStmt, Walk.stmt]
      exact .expression callsFollow binds body
  | block body =>
      rw [lowerBodyStmt, Walk.stmt]
      exact lowerBlock_realizes callsFollow binds body
  | ret value =>
      rw [lowerBodyStmt, Walk.stmt]
      exact .ret callsFollow binds value
  | branch condition thenBlock elseIf elseBlock span =>
      have thenRealizes : Realizes call args (lowerBlock table scope thenBlock)
          (Walk.block walkCall env thenBlock) := lowerBlock_realizes callsFollow binds thenBlock
      have thenGrowing := (lowerBlock_piece table scope thenBlock).growing
      cases elseIf with
      | some other =>
          rw [lowerBodyStmt, Walk.stmt]
          exact .branch callsFollow binds condition thenRealizes thenGrowing
            (lowerBodyStmt_realizes callsFollow binds other)
            (lowerBodyStmt_piece table scope other).growing
      | none =>
          cases elseBlock with
          | some other =>
              rw [lowerBodyStmt, Walk.stmt]
              exact .branch callsFollow binds condition thenRealizes thenGrowing
                (lowerBlock_realizes callsFollow binds other)
                (lowerBlock_piece table scope other).growing
          | none =>
              rw [lowerBodyStmt, Walk.stmt]
              exact .branchOnly callsFollow binds condition thenRealizes thenGrowing
  | prototype proto =>
      rw [lowerBodyStmt]
      intro builder final built
      cases built
  | function proto body =>
      rw [lowerBodyStmt]
      intro builder final built
      cases built

theorem lowerBlock_realizes
    (callsFollow : ∀ name args, Follows Eq (call name args) (walkCall name args))
    (binds : Binds scope args env)
    (block : Block) :
    Realizes call args (lowerBlock table scope block) (Walk.block walkCall env block) := by
  cases block with
  | mk statements tail =>
      have first : Realizes call args (lowerStmts table scope statements)
          (Walk.stmts walkCall env statements) := lowerStmts_realizes callsFollow binds statements
      cases tail with
      | none =>
          rw [lowerBlock, Walk.block]
          exact first.sequence .nothing .pure
      | some value =>
          rw [lowerBlock, Walk.block]
          exact first.sequence (.ret callsFollow binds value)
            (lowerReturn_growing table scope value)

theorem lowerStmts_realizes
    (callsFollow : ∀ name args, Follows Eq (call name args) (walkCall name args))
    (binds : Binds scope args env)
    (statements : List Stmt) :
    Realizes call args (lowerStmts table scope statements)
      (Walk.stmts walkCall env statements) := by
  cases statements with
  | nil =>
      rw [lowerStmts, Walk.stmts]
      exact .nothing
  | cons statement statements =>
      rw [lowerStmts, Walk.stmts]
      exact (lowerBodyStmt_realizes callsFollow binds statement).sequence
        (lowerStmts_realizes callsFollow binds statements)
        (lowerStmts_piece table scope statements).growing

end

end

end Machine
end ScalarScript
