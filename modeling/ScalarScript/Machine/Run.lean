import ScalarScript.Machine.Fault
import ScalarScript.Machine.Host

/-!
# Running code

A call runs the blocks of a body from its entry, following branches, until an op returns.
Each call has registers of its own.  Calls nest up to a limit, and within one call at most
a given number of blocks is run; a call that needs more is out of steps.
-/

namespace ScalarScript
namespace Machine

/-- What can be observed while code runs. -/
inductive Event where
  /-- A block of a function was entered. -/
  | entered (function label : String)
  /-- The host printed a text. -/
  | printed (text : String)
deriving DecidableEq, Repr

/-- Why a run stops without a value. -/
inductive Stop where
  | fault (fault : Fault)
  /-- One call went through more blocks than allowed. -/
  | outOfSteps
deriving DecidableEq, Repr

/-- A run with the events so far, the latest first. -/
abbrev Exec := EStateM Stop (List Event)

/-- Records an event. -/
def record (event : Event) : Exec Unit :=
  modify fun events => event :: events

/-- Stops with a fault. -/
def fail {α : Type} (fault : Fault) : Exec α :=
  throw (.fault fault)

/-- The registers of one call. -/
structure Frame where
  function : String
  args : List Float
  registers : List (Option Value)
deriving Repr

namespace Frame

/-- The frame of a call before anything is written. -/
def enter (function : String) (body : Code.Body) (args : List Float) : Frame :=
  ⟨function, args, List.replicate body.registers.length none⟩

/-- The fault that the body of the function is malformed. -/
def invalid {α : Type} (frame : Frame) (malformation : Malformation) : Except Fault α :=
  .error (.invalidBody frame.function malformation)

/-- The value of an operand. -/
def read (frame : Frame) : Code.Operand → Except Fault Value
  | .const value => .ok (.double value)
  | .arg index =>
      match frame.args[index]? with
      | some value => .ok (.double value)
      | none => frame.invalid (.unknownArgument index)
  | .reg index =>
      match frame.registers[index]? with
      | some (some value) => .ok value
      | _ => frame.invalid (.unwrittenRegister index)

/-- The number that an operand stands for. -/
def readDouble (frame : Frame) (operand : Code.Operand) : Except Fault Float := do
  match (← frame.read operand).double? with
  | some value => .ok value
  | none => frame.invalid .notDouble

/-- The truth value that an operand stands for. -/
def readBool (frame : Frame) (operand : Code.Operand) : Except Fault Bool := do
  match (← frame.read operand).bool? with
  | some value => .ok value
  | none => frame.invalid .notBool

/-- The numbers that operands stand for. -/
def readDoubles (frame : Frame) : List Code.Operand → Except Fault (List Float)
  | [] => .ok []
  | operand :: operands => do
      let value ← frame.readDouble operand
      let values ← frame.readDoubles operands
      .ok (value :: values)

/-- Writes a register. -/
def write (frame : Frame) (index : Nat) (value : Value) : Except Fault Frame :=
  if index < frame.registers.length then
    .ok { frame with registers := frame.registers.set index (some value) }
  else
    frame.invalid (.unknownRegister index)

end Frame

/-- How the ops of a block end. -/
inductive Transfer where
  | goto (index : Nat)
  | done (value : Float)
  /-- No op ended the block. -/
  | missing
deriving Repr

/-- A step of a frame that has no effect. -/
def lift {α : Type} : Except Fault α → Exec α
  | .ok value => pure value
  | .error fault => fail fault

/-- The truth value as a number. -/
def ofBool (flag : Bool) : Float :=
  if flag then 1.0 else 0.0

/-- Runs an op that does not end its block; `call` runs calls. -/
def step (call : String → List Float → Exec Float) (frame : Frame) : Code.Op → Exec Frame
  | .arith op dest lhs rhs => lift do
      let x ← frame.readDouble lhs
      let y ← frame.readDouble rhs
      frame.write dest (.double (op.apply x y))
  | .compare dest predicate lhs rhs => lift do
      let x ← frame.readDouble lhs
      let y ← frame.readDouble rhs
      frame.write dest (.bool (predicate.holds x y))
  | .widen dest src => lift do
      let flag ← frame.readBool src
      frame.write dest (.double (ofBool flag))
  | .call dest callee args => do
      let values ← lift (frame.readDoubles args)
      let result ← call callee values
      lift (frame.write dest (.double result))
  | .jump _ | .branch .. | .ret _ => pure frame

/-- Where an op that ends a block goes; other ops go nowhere. -/
def transfer? (frame : Frame) : Code.Op → Option (Except Fault Transfer)
  | .jump target => some (.ok (.goto target))
  | .branch condition thenBlock elseBlock => some do
      let flag ← frame.readBool condition
      .ok (.goto (if flag then thenBlock else elseBlock))
  | .ret (some value) => some do
      let result ← frame.readDouble value
      .ok (.done result)
  | .ret none => some (.ok (.done 0))
  | _ => none

theorem transfer?_eq_none
    (frame : Frame)
    {op : Code.Op}
    (straight : op.isTerminator = false) :
    transfer? frame op = none := by
  cases op with
  | jump target => cases straight
  | branch condition thenBlock elseBlock => cases straight
  | ret value => cases straight
  | _ => rfl

/-- Runs ops up to the first that ends the block. -/
def runOps (call : String → List Float → Exec Float) (frame : Frame) :
    List Code.Op → Exec (Frame × Transfer)
  | [] => pure (frame, .missing)
  | op :: ops =>
      match transfer? frame op with
      | some result => do
          let transfer ← lift result
          pure (frame, transfer)
      | none => do
          let frame ← step call frame op
          runOps call frame ops

/-- Runs blocks from the given one on, at most `steps` of them. -/
def runBlocks (call : String → List Float → Exec Float) (body : Code.Body) :
    (steps : Nat) → (index : Nat) → Frame → Exec Float
  | 0, _, _ => throw .outOfSteps
  | steps + 1, index, frame =>
      match body.blocks[index]? with
      | none => fail (.invalidBody frame.function (.unknownBlock index))
      | some block => do
          record (.entered frame.function block.label)
          let (frame, transfer) ← runOps call frame block.ops
          match transfer with
          | .done value => pure value
          | .goto next => runBlocks call body steps next frame
          | .missing => fail (.invalidBody frame.function (.noTerminator block.label))

/-- Serves a function without a body. -/
def runHost (name : String) (args : List Float) : Exec Float :=
  match host? name args with
  | none => fail (.noBody name)
  | some result => do
      match result.printed with
      | some text => record (.printed text)
      | none => pure ()
      pure result.value

/-- Calls a function of the module when `room` further calls may be nested. -/
def invoke (table : Code.Module) (limit steps : Nat) (room : Nat) (name : String)
    (args : List Float) : Exec Float :=
  match table.find? name with
  | none => fail (.unknownFunction name)
  | some function =>
      if function.arity ≠ args.length then
        fail (.arityMismatch name function.arity args.length)
      else
        match function.body with
        | none => runHost name args
        | some body =>
            match room with
            | 0 => fail (.stackOverflow limit name)
            | room + 1 =>
                match body.entry? with
                | none => fail (.invalidBody name .noEntry)
                | some entry =>
                    runBlocks (invoke table limit steps room) body steps entry
                      (.enter name body args)

/-- What came of a call. -/
structure Run where
  result : Except Stop Float
  /-- What was observed, in order. -/
  events : List Event

namespace Run

/-- The text that the host printed. -/
def printed (run : Run) : String :=
  String.join (run.events.filterMap fun
    | .printed text => some text
    | .entered .. => none)

end Run

/-- How deeply calls may nest unless another limit is given. -/
def defaultLimit : Nat := 512

/-- Calls a function, with at most `limit` nested calls and `steps` blocks in each. -/
def callWithin (steps : Nat) (table : Code.Module) (limit : Nat) (name : String)
    (args : List Float) : Run :=
  match invoke table limit steps limit name args [] with
  | .ok value events => ⟨.ok value, events.reverse⟩
  | .error stop events => ⟨.error stop, events.reverse⟩

/-- Calls a function whose blocks are run at most once each in a call. -/
def call (table : Code.Module) (limit : Nat) (name : String) (args : List Float) : Run :=
  callWithin table.blockCount table limit name args

end Machine
end ScalarScript
