import ScalarScript.Machine.Run
import ScalarScript.Proofs.Layout
import ScalarScript.Proofs.TreeWalk

/-!
# Runs that agree with evaluations

A run of the machine follows an evaluation of a tree when, from the same texts printed so
far, both print the same texts and both end in related results or in the same fault.  An
evaluation that gets stuck is followed by nothing, and neither does a run that is out of
steps follow anything.

The first result is about expressions: running the code of an expression follows its
evaluation, and leaves its value where the result operand says.
-/

namespace ScalarScript
namespace Machine

/-- The text of an event of printing. -/
def Event.text? : Event → Option String
  | .printed text => some text
  | .entered .. => none

/-- The printed texts among events. -/
def texts (events : List Event) : List String :=
  events.filterMap Event.text?

/-- Results that agree: related values or the same fault, and the same texts.  A malformed
body agrees with nothing. -/
inductive Agree {α β : Type} (related : α → β → Prop) :
    EStateM.Result Stop (List Event) α → EStateM.Result Walk.Halt (List String) β → Prop where
  | values {value : α} {other : β} {events : List Event}
      (relates : related value other) :
      Agree related (.ok value events) (.ok other (texts events))
  | faults {fault : Fault} {events : List Event}
      (ordinary : fault.kind ≠ .invalidBody) :
      Agree related (.error (.fault fault) events) (.error (.fault fault) (texts events))

/-- The run does what the evaluation says. -/
def Follows
    {α β : Type}
    (related : α → β → Prop)
    (run : Exec α)
    (walk : Walk.Eval β) : Prop :=
  ∀ events, Agree related (run events) (walk (texts events))

namespace Follows

theorem pure
    {α β : Type}
    {related : α → β → Prop}
    {value : α}
    {other : β}
    (relates : related value other) :
    Follows related (Pure.pure value) (Pure.pure other) :=
  fun _ => .values relates

/-- A fault of the program is a fault of both. -/
theorem fault
    {α β : Type}
    {related : α → β → Prop}
    {fault : Fault}
    (ordinary : fault.kind ≠ .invalidBody) :
    Follows related (fail fault) (throw (.fault fault)) :=
  fun _ => .faults ordinary

/-- What follows step by step follows as a whole. -/
theorem bind
    {α β γ δ : Type}
    {related : α → β → Prop}
    {eventual : γ → δ → Prop}
    {run : Exec α}
    {walk : Walk.Eval β}
    {runNext : α → Exec γ}
    {walkNext : β → Walk.Eval δ}
    (first : Follows related run walk)
    (next : ∀ value other, related value other →
      Follows eventual (runNext value) (walkNext other)) :
    Follows eventual (run >>= runNext) (walk >>= walkNext) := by
  intro events
  change Agree eventual (EStateM.bind run runNext events)
    (EStateM.bind walk walkNext (texts events))
  unfold EStateM.bind
  have agree := first events
  revert agree
  generalize run events = ran
  generalize walk (texts events) = walked
  intro agree
  cases agree with
  | values relates => exact next _ _ relates _
  | faults ordinary => exact .faults ordinary

/-- A weaker relation between results follows as well. -/
theorem mono
    {α β : Type}
    {related weaker : α → β → Prop}
    {run : Exec α}
    {walk : Walk.Eval β}
    (follows : Follows related run walk)
    (implies : ∀ value other, related value other → weaker value other) :
    Follows weaker run walk := by
  intro events
  have agree := follows events
  revert agree
  generalize run events = ran
  generalize walk (texts events) = walked
  intro agree
  cases agree with
  | values relates => exact .values (implies _ _ relates)
  | faults ordinary => exact .faults ordinary

/-- Entering a block prints nothing. -/
theorem entered
    {α β : Type}
    {related : α → β → Prop}
    (function label : String)
    {run : Exec α}
    {walk : Walk.Eval β}
    (follows : Follows related run walk) :
    Follows related (record (.entered function label) >>= fun _ => run) walk :=
  fun events => follows (.entered function label :: events)

theorem say (text : String) :
    Follows (fun _ _ => True) (record (.printed text)) (Walk.say text) :=
  fun _ => .values trivial

end Follows

/-- The host serves both in the same way. -/
theorem runHost_follows
    (name : String)
    (args : List Float) :
    Follows Eq (runHost name args) (Walk.serve name args) := by
  unfold runHost Walk.serve
  cases host? name args with
  | none => exact .fault nofun
  | some result =>
      simp only
      cases result.printed with
      | none => exact .pure rfl
      | some text => exact Follows.bind (.say text) fun _ _ _ => .pure rfl

/-! ## Frames -/

namespace Frame

/-- The frame with one register written. -/
def set (frame : Frame) (index : Nat) (value : Value) : Frame :=
  { frame with registers := frame.registers.set index (some value) }

/-- Writing to a register that exists succeeds. -/
theorem write_eq_set
    {frame : Frame}
    {index : Nat}
    (exist : index < frame.registers.length)
    (value : Value) :
    frame.write index value = .ok (frame.set index value) := by
  simp [write, set, exist]

/-- The second frame comes from the first by writing registers from `low` on. -/
structure Kept (low : Nat) (before after : Frame) : Prop where
  function : after.function = before.function
  args : after.args = before.args
  size : after.registers.length = before.registers.length
  registers : ∀ index < low, after.registers[index]? = before.registers[index]?

theorem Kept.refl
    (low : Nat)
    (frame : Frame) :
    Kept low frame frame :=
  ⟨rfl, rfl, rfl, fun _ _ => rfl⟩

/-- What is kept over one stretch of code and over a later one is kept over both. -/
theorem Kept.trans
    {low high : Nat}
    {first second third : Frame}
    (early : Kept low first second)
    (late : Kept high second third)
    (ordered : low ≤ high) :
    Kept low first third where
  function := late.function.trans early.function
  args := late.args.trans early.args
  size := late.size.trans early.size
  registers := fun index below =>
    (late.registers index (Nat.lt_of_lt_of_le below ordered)).trans (early.registers index below)

/-- Writing the next free register keeps all earlier ones. -/
theorem Kept.set
    (low : Nat)
    (frame : Frame)
    (value : Value) :
    Kept low frame (frame.set low value) where
  function := rfl
  args := rfl
  size := List.length_set
  registers := fun _ below => List.getElem?_set_ne (Nat.ne_of_gt below)

/-- An operand below the registers that were written has kept its value. -/
theorem Kept.read
    {low : Nat}
    {before after : Frame}
    (kept : Kept low before after)
    {operand : Code.Operand}
    (below : operand.Below low) :
    after.read operand = before.read operand := by
  cases operand with
  | const value => rfl
  | arg index => simp only [Frame.read, kept.args, invalid, kept.function]
  | reg index => simp only [Frame.read, kept.registers index below, invalid, kept.function]

/-- Operands made before a stretch of code are read the same after it. -/
theorem Kept.readDouble
    {low : Nat}
    {before after : Frame}
    (kept : Kept low before after)
    {operand : Code.Operand}
    (below : operand.Below low) :
    after.readDouble operand = before.readDouble operand := by
  simp only [Frame.readDouble, kept.read below, invalid, kept.function]

theorem read_set
    {frame : Frame}
    {index : Nat}
    (exist : index < frame.registers.length)
    (value : Value) :
    (frame.set index value).read (.reg index) = .ok value := by
  simp [read, set, exist]

theorem readDouble_set
    {frame : Frame}
    {index : Nat}
    (exist : index < frame.registers.length)
    (value : Float) :
    (frame.set index (.double value)).readDouble (.reg index) = .ok value := by
  simp only [readDouble, read_set exist]
  rfl

theorem readBool_set
    {frame : Frame}
    {index : Nat}
    (exist : index < frame.registers.length)
    (flag : Bool) :
    (frame.set index (.bool flag)).readBool (.reg index) = .ok flag := by
  simp only [readBool, read_set exist]
  rfl

end Frame

/-! ## Ops that do not end a block -/

theorem lift_ok
    {α : Type}
    {result : Except Fault α}
    {value : α}
    (succeeds : result = .ok value) :
    lift result = (pure value : Exec α) := by
  rw [succeeds]
  rfl

section

variable {call : String → List Float → Exec Float} {frame : Frame} {dest : Nat}

/-- An arithmetic instruction writes its result to its register. -/
theorem step_arith
    (exist : dest < frame.registers.length)
    {lhs rhs : Code.Operand}
    {x y : Float}
    (left : frame.readDouble lhs = .ok x)
    (right : frame.readDouble rhs = .ok y)
    (op : Code.Arith) :
    step call frame (.arith op dest lhs rhs) = pure (frame.set dest (.double (op.apply x y))) := by
  apply lift_ok
  rw [left, right]
  exact Frame.write_eq_set exist _

/-- A comparison writes its truth value to its register. -/
theorem step_compare
    (exist : dest < frame.registers.length)
    {lhs rhs : Code.Operand}
    {x y : Float}
    (left : frame.readDouble lhs = .ok x)
    (right : frame.readDouble rhs = .ok y)
    (predicate : Code.Predicate) :
    step call frame (.compare dest predicate lhs rhs) =
      pure (frame.set dest (.bool (predicate.holds x y))) := by
  apply lift_ok
  rw [left, right]
  exact Frame.write_eq_set exist _

/-- A truth value is widened to one or zero. -/
theorem step_widen
    (exist : dest < frame.registers.length)
    {src : Code.Operand}
    {flag : Bool}
    (read : frame.readBool src = .ok flag) :
    step call frame (.widen dest src) = pure (frame.set dest (.double (ofBool flag))) := by
  apply lift_ok
  rw [read]
  exact Frame.write_eq_set exist _

/-- A call writes what it returns to its register. -/
theorem step_call
    (exist : dest < frame.registers.length)
    {args : List Code.Operand}
    {values : List Float}
    (read : frame.readDoubles args = .ok values)
    (callee : String) :
    step call frame (.call dest callee args) =
      call callee values >>= fun result => pure (frame.set dest (.double result)) := by
  have written : ∀ result, lift (frame.write dest (.double result)) =
      (pure (frame.set dest (.double result)) : Exec Frame) :=
    fun result => lift_ok (Frame.write_eq_set exist _)
  simp only [step, lift_ok read, written]
  rfl

end

/-- Runs ops that do not end a block. -/
def runStraight (call : String → List Float → Exec Float) (frame : Frame)
    (ops : List Code.Op) : Exec Frame :=
  ops.foldlM (step call) frame

/-- Straight-line code runs in two parts, one after the other. -/
theorem runStraight_append
    (call : String → List Float → Exec Float)
    (frame : Frame)
    (front back : List Code.Op) :
    runStraight call frame (front ++ back) =
      runStraight call frame front >>= fun after => runStraight call after back :=
  List.foldlM_append

theorem runStraight_singleton
    (call : String → List Float → Exec Float)
    (frame : Frame)
    (op : Code.Op) :
    runStraight call frame [op] = step call frame op := by
  simp [runStraight]

/-- Ops that do not end the block are run one after the other. -/
theorem runOps_append
    (call : String → List Float → Exec Float)
    (frame : Frame)
    {front : List Code.Op}
    (straight : ∀ op ∈ front, op.isTerminator = false)
    (back : List Code.Op) :
    runOps call frame (front ++ back) =
      runStraight call frame front >>= fun after => runOps call after back := by
  induction front generalizing frame with
  | nil => simp [runStraight]
  | cons op front inductionHypothesis =>
      have here := straight op List.mem_cons_self
      have later := fun other member => straight other (List.mem_cons_of_mem op member)
      simp only [List.cons_append, runOps, transfer?_eq_none frame here, runStraight,
        List.foldlM_cons, bind_assoc]
      congr
      funext after
      exact inductionHypothesis after later

/-! ## Expressions -/

/-- The names of the scope stand for arguments, whose values the environment gives. -/
def Binds (scope : Scope) (args : List Float) (env : String → Option Float) : Prop :=
  ∀ name operand, scope.lookup name = some operand →
    ∃ index value, operand = .arg index ∧ args[index]? = some value ∧ env name = some value

/-- Names that are bound to arguments are bound to something. -/
theorem Binds.given
    {scope : Scope}
    {args : List Float}
    {env : String → Option Float}
    (binds : Binds scope args env) :
    scope.BindsGiven := by
  intro name operand found
  obtain ⟨index, value, rfl, _⟩ := binds name operand found
  trivial

/-- Walking the tree computes what an arithmetic instruction computes. -/
theorem operate?_of_arith
    {op : Token.Kind}
    {arith : Code.Arith}
    (found : Lowering.arith? op = some arith)
    (x y : Float) :
    Walk.operate? op x y = some (arith.apply x y) := by
  cases op <;> cases found <;> rfl

/-- Walking the tree computes what a comparison computes, widened. -/
theorem operate?_of_predicate
    {op : Token.Kind}
    {predicate : Code.Predicate}
    (found : Lowering.predicate? op = some predicate)
    (x y : Float) :
    Walk.operate? op x y = some (ofBool (predicate.holds x y)) := by
  cases op <;> cases found <;> rfl

open Lowering

/-- After straight-line code that starts at register `low`, the operand holds the value. -/
def Computes
    (low : Nat)
    (frame : Frame)
    (operand : Code.Operand)
    (after : Frame)
    (value : Float) : Prop :=
  frame.Kept low after ∧ after.readDouble operand = .ok value

/-- The code of an operation computes what walking the tree computes. -/
theorem binaryCode_follows
    (call : String → List Float → Exec Float)
    {op : Token.Kind}
    {lhs rhs operand : Code.Operand}
    {span : Span}
    {low : Nat}
    {emissions : List Emission}
    (made : binaryCode op lhs rhs span low = ⟨emissions, .ok operand⟩)
    {frame : Frame}
    (space : low + emissions.length ≤ frame.registers.length)
    {x y : Float}
    (left : frame.readDouble lhs = .ok x)
    (right : frame.readDouble rhs = .ok y) :
    Follows (Computes low frame operand) (runStraight call frame (opsOf emissions))
      (Walk.orStuck (Walk.operate? op x y)) := by
  unfold binaryCode at made
  cases isArith : Lowering.arith? op with
  | some arith =>
      simp only [isArith] at made
      cases made
      have exist : low < frame.registers.length := space
      rw [operate?_of_arith isArith x y]
      simp only [opsOf, List.map_cons, List.map_nil, runStraight_singleton,
        step_arith exist left right]
      exact .pure ⟨.set low frame _, Frame.readDouble_set exist _⟩
  | none =>
      cases isPredicate : Lowering.predicate? op with
      | none =>
          simp only [isArith, isPredicate] at made
          cases made
      | some predicate =>
          simp only [isArith, isPredicate] at made
          cases made
          have wide : low + 2 ≤ frame.registers.length := space
          have exist : low < frame.registers.length := by omega
          have flagged : (frame.set low (.bool (predicate.holds x y))).readBool (.reg low) =
              .ok (predicate.holds x y) := Frame.readBool_set exist _
          have existNext : low + 1 <
              (frame.set low (.bool (predicate.holds x y))).registers.length := by
            simp only [Frame.set, List.length_set]
            omega
          have ran : runStraight call frame
              [.compare low predicate lhs rhs, .widen (low + 1) (.reg low)] =
                pure ((frame.set low (.bool (predicate.holds x y))).set (low + 1)
                  (.double (ofBool (predicate.holds x y)))) := by
            simp only [runStraight, List.foldlM_cons, List.foldlM_nil,
              step_compare exist left right, pure_bind, step_widen existNext flagged]
          rw [operate?_of_predicate isPredicate x y]
          change Follows _ (runStraight call frame
            [.compare low predicate lhs rhs, .widen (low + 1) (.reg low)]) _
          rw [ran]
          refine .pure ⟨?_, Frame.readDouble_set existNext _⟩
          exact (Frame.Kept.set low frame _).trans (.set (low + 1) _ _) (Nat.le_succ low)

section

variable
  {call : String → List Float → Exec Float}
  {walkCall : String → List Float → Walk.Eval Float}
  {table : Code.Module}
  {scope : Scope}
  {args : List Float}
  {env : String → Option Float}

mutual

/-- Running the code of an expression follows its evaluation. -/
theorem exprCode_follows
    (callsFollow : ∀ name args, Follows Eq (call name args) (walkCall name args))
    (binds : Binds scope args env)
    (expr : Expr)
    {low : Nat}
    {emissions : List Emission}
    {operand : Code.Operand}
    (made : exprCode table scope expr low = ⟨emissions, .ok operand⟩)
    {frame : Frame}
    (sameArgs : frame.args = args)
    (space : low + emissions.length ≤ frame.registers.length) :
    Follows (Computes low frame operand) (runStraight call frame (opsOf emissions))
      (Walk.expr walkCall env expr) := by
  cases expr with
  | num value span =>
      rw [exprCode] at made
      cases made
      rw [Walk.expr]
      exact .pure ⟨.refl low frame, rfl⟩
  | var name span =>
      rw [exprCode] at made
      cases found : scope.lookup name with
      | none =>
          simp only [found] at made
          cases made
      | some bound =>
          simp only [found] at made
          cases made
          obtain ⟨index, value, rfl, present, known⟩ := binds name operand found
          have read : frame.readDouble (.arg index) = .ok value := by
            simp only [Frame.readDouble, Frame.read, sameArgs, present]
            rfl
          rw [Walk.expr, known]
          exact .pure ⟨.refl low frame, read⟩
  | binary op left right span =>
      rw [exprCode, Straight.bind_eq_ok_iff] at made
      obtain ⟨front, lhs, rest, leftMade, restMade, rfl⟩ := made
      rw [Straight.bind_eq_ok_iff] at restMade
      obtain ⟨middle, rhs, back, rightMade, binaryMade, rfl⟩ := restMade
      simp only [List.length_append] at space
      rw [Walk.expr, opsOf_append, opsOf_append, runStraight_append]
      have leftFollows := exprCode_follows callsFollow binds left leftMade sameArgs (by omega)
      refine leftFollows.bind ?_
      rintro afterLeft x ⟨leftKept, leftRead⟩
      rw [runStraight_append]
      have rightFollows := exprCode_follows callsFollow binds right rightMade
        (leftKept.args.trans sameArgs) (by rw [leftKept.size]; omega)
      refine rightFollows.bind ?_
      rintro afterRight y ⟨rightKept, rightRead⟩
      -- the left value has outlived the code of the right operand
      have leftStill : afterRight.readDouble lhs = .ok x := by
        rw [rightKept.readDouble (Lowering.exprCode_below binds.given leftMade), leftRead]
      have kept := leftKept.trans rightKept (Nat.le_add_right low front.length)
      have binaryFollows := binaryCode_follows call binaryMade
        (by rw [kept.size]; omega) leftStill rightRead
      refine binaryFollows.mono ?_
      rintro after value ⟨binaryKept, read⟩
      exact ⟨kept.trans binaryKept (by omega), read⟩
  | call callee exprs span =>
      rw [exprCode] at made
      cases found : table.find? callee with
      | none =>
          simp only [found] at made
          cases made
      | some target =>
          by_cases sameCount : target.arity = exprs.length
          · simp only [found, ne_eq, sameCount, not_true_eq_false, if_false,
              Straight.bind_eq_ok_iff] at made
            obtain ⟨front, operands, back, argsMade, callMade, rfl⟩ := made
            cases callMade
            simp only [List.length_append, List.length_singleton] at space
            rw [Walk.expr, opsOf_append, runStraight_append]
            have argsFollow := argsCode_follows callsFollow binds exprs argsMade sameArgs
              (by omega)
            refine argsFollow.bind ?_
            rintro afterArgs values ⟨kept, read⟩
            have exist : low + front.length < afterArgs.registers.length := by
              rw [kept.size]
              omega
            simp only [opsOf, List.map_cons, List.map_nil, runStraight_singleton,
              step_call exist read callee]
            rw [← bind_pure (walkCall callee values)]
            refine (callsFollow callee values).bind ?_
            rintro result _ rfl
            have keptAll := kept.trans (.set (low + front.length) afterArgs (.double result))
              (Nat.le_add_right low front.length)
            exact .pure ⟨keptAll, Frame.readDouble_set exist result⟩
          · simp only [found, ne_eq, sameCount, not_false_eq_true, if_true] at made
            cases made

/-- The code of arguments evaluates them in the order in which the tree is walked. -/
theorem argsCode_follows
    (callsFollow : ∀ name args, Follows Eq (call name args) (walkCall name args))
    (binds : Binds scope args env)
    (exprs : List Expr)
    {low : Nat}
    {emissions : List Emission}
    {operands : List Code.Operand}
    (made : argsCode table scope exprs low = ⟨emissions, .ok operands⟩)
    {frame : Frame}
    (sameArgs : frame.args = args)
    (space : low + emissions.length ≤ frame.registers.length) :
    Follows (fun after values => frame.Kept low after ∧ after.readDoubles operands = .ok values)
      (runStraight call frame (opsOf emissions)) (Walk.exprs walkCall env exprs) := by
  cases exprs with
  | nil =>
      rw [argsCode] at made
      cases made
      rw [Walk.exprs]
      exact .pure ⟨.refl low frame, rfl⟩
  | cons arg exprs =>
      rw [argsCode, Straight.bind_eq_ok_iff] at made
      obtain ⟨front, operand, rest, argMade, restMade, rfl⟩ := made
      rw [Straight.bind_eq_ok_iff] at restMade
      obtain ⟨back, others, nothing, othersMade, pureMade, rfl⟩ := restMade
      cases pureMade
      simp only [List.append_nil, List.length_append] at space ⊢
      rw [Walk.exprs, opsOf_append, runStraight_append]
      have argFollows := exprCode_follows callsFollow binds arg argMade sameArgs (by omega)
      refine argFollows.bind ?_
      rintro afterArg value ⟨argKept, argRead⟩
      have othersFollow := argsCode_follows callsFollow binds exprs othersMade
        (argKept.args.trans sameArgs) (by rw [argKept.size]; omega)
      rw [← bind_pure (runStraight call afterArg (opsOf back))]
      refine othersFollow.bind ?_
      rintro after values ⟨othersKept, othersRead⟩
      have argStill : after.readDouble operand = .ok value := by
        rw [othersKept.readDouble (Lowering.exprCode_below binds.given argMade), argRead]
      refine .pure ⟨argKept.trans othersKept (Nat.le_add_right low front.length), ?_⟩
      simp only [Frame.readDoubles, argStill, othersRead]
      rfl

end

end

end Machine
end ScalarScript
