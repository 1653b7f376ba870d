import ScalarScript.Machine.Run
import ScalarScript.Proofs.Paths

/-!
# Why calls fail

In a module without defects the calls inside bodies are resolved: each names a function
that is there and passes as many arguments as it takes.  An unknown name or a wrong number
of arguments can therefore only come from the outermost call, and a call fails for lack of
a body only where the run reached a function that is declared and that the host does not
provide.  Of the ways in which a body can be malformed only those remain that concern the
values in registers: on some path from the entry an op reads a register that no op before it
on the path has written, or one into which such an op has written a value of the other type.

`Ensures` says what holds of a run whenever it ends, for a value and for a stop.  A run
never forgets an event, so what is known to have happened is still known when it stops.
-/

namespace ScalarScript
namespace Machine

/-! ## What a run ensures -/

/-- Whenever the run starts after the known events, it ends in a value of which `good`
holds or stops as `bad` says, and the known events are still there. -/
def Ensures
    {α : Type}
    (known : List Event)
    (run : Exec α)
    (good : α → Prop)
    (bad : Stop → List Event → Prop) : Prop :=
  ∀ events, known ⊆ events →
    match run events with
    | .ok value later => good value ∧ known ⊆ later
    | .error stop later => bad stop later ∧ known ⊆ later

namespace Ensures

variable {α β : Type} {known : List Event} {good : α → Prop} {bad : Stop → List Event → Prop}

theorem pure
    {value : α}
    (holds : good value) :
    Ensures known (Pure.pure value) good bad :=
  fun _ happened => ⟨holds, happened⟩

theorem stop
    {stop : Stop}
    (allowed : ∀ events, known ⊆ events → bad stop events) :
    Ensures known (throw stop) good bad :=
  fun events happened => ⟨allowed events happened, happened⟩

theorem bind
    {middle : α → Prop}
    {eventual : β → Prop}
    {run : Exec α}
    {next : α → Exec β}
    (first : Ensures known run middle bad)
    (second : ∀ value, middle value → Ensures known (next value) eventual bad) :
    Ensures known (run >>= next) eventual bad := by
  intro events happened
  have ended := first events happened
  change match EStateM.bind run next events with
    | .ok value later => eventual value ∧ known ⊆ later
    | .error stop later => bad stop later ∧ known ⊆ later
  unfold EStateM.bind
  cases ran : run events with
  | error stop later =>
      rw [ran] at ended
      exact ended
  | ok value later =>
      rw [ran] at ended
      exact second value ended.1 later ended.2

theorem mono
    {weaker : α → Prop}
    {laxer : Stop → List Event → Prop}
    {run : Exec α}
    (ensures : Ensures known run good bad)
    (implies : ∀ value, good value → weaker value)
    (allows : ∀ stop events, known ⊆ events → bad stop events → laxer stop events) :
    Ensures known run weaker laxer := by
  intro events happened
  have ended := ensures events happened
  cases ran : run events with
  | error stop later =>
      rw [ran] at ended
      exact ⟨allows stop later ended.2 ended.1, ended.2⟩
  | ok value later =>
      rw [ran] at ended
      exact ⟨implies value ended.1, ended.2⟩

/-- An event that was recorded is known from then on. -/
theorem record
    {event : Event}
    {run : Exec α}
    (ensures : Ensures (event :: known) run good bad) :
    Ensures known (Machine.record event >>= fun _ => run) good bad := by
  intro events happened
  have ended := ensures (event :: events) (List.cons_subset_cons event happened)
  change match run (event :: events) with
    | .ok value later => good value ∧ known ⊆ later
    | .error stop later => bad stop later ∧ known ⊆ later
  cases ran : run (event :: events) with
  | error stop later =>
      rw [ran] at ended
      exact ⟨ended.1, List.subset_of_cons_subset ended.2⟩
  | ok value later =>
      rw [ran] at ended
      exact ⟨ended.1, List.subset_of_cons_subset ended.2⟩

end Ensures

/-! ## Reading and writing -/

/-- The type of a value. -/
def Value.type : Value → Code.ValueType
  | .double _ => .double
  | .bool _ => .bool

/-- What goes wrong when a register is read with a type after the given ops have run: none of
them has written it, or one of them has written a value of the other type. -/
inductive Misreads (done : List Code.Op) : Code.Operand × Code.ValueType → Malformation → Prop where
  | unwritten {index : Nat} {type : Code.ValueType}
      (unwritten : index ∉ Code.dests done) :
      Misreads done (.reg index, type) (.unwrittenRegister index)
  | notDouble {index : Nat} {writer : Code.Op}
      (ran : writer ∈ done)
      (writes : writer.result? = some (index, .bool)) :
      Misreads done (.reg index, .double) .notDouble
  | notBool {index : Nat} {writer : Code.Op}
      (ran : writer ∈ done)
      (writes : writer.result? = some (index, .double)) :
      Misreads done (.reg index, .bool) .notBool

/-- The fault is that one of the reads of an op in the function went wrong. -/
def Fault.OfReads
    (function : String)
    (done : List Code.Op)
    (reads : List (Code.Operand × Code.ValueType))
    (fault : Fault) : Prop :=
  ∃ read ∈ reads, ∃ malformation,
    Misreads done read malformation ∧ fault = .invalidBody function malformation

/-- The result is a value of which `good` holds, or a fault of which `bad` holds. -/
def Yields
    {α : Type}
    (bad : Fault → Prop)
    (good : α → Prop) :
    Except Fault α → Prop
  | .ok value => good value
  | .error fault => bad fault

theorem Yields.bind
    {α β : Type}
    {bad : Fault → Prop}
    {middle : α → Prop}
    {good : β → Prop}
    {result : Except Fault α}
    {next : α → Except Fault β}
    (first : Yields bad middle result)
    (second : ∀ value, middle value → Yields bad good (next value)) :
    Yields bad good (result >>= next) := by
  cases result with
  | error fault => exact first
  | ok value => exact second value first

theorem Ensures.lift
    {α : Type}
    {known : List Event}
    {good : α → Prop}
    {bad : Stop → List Event → Prop}
    {badFault : Fault → Prop}
    {result : Except Fault α}
    (yields : Yields badFault good result)
    (allowed : ∀ fault, badFault fault → ∀ events, bad (.fault fault) events) :
    Ensures known (Machine.lift result) good bad := by
  cases result with
  | ok value => exact pure yields
  | error fault => exact stop fun events _ => allowed fault yields events

/-- The frame belongs to a call of the function in which the given ops have run: it has an
argument for each parameter and a place for each register of the body, and the registers hold
what the ops have written and nothing else. -/
structure Frame.Serves
    (function : Code.Function)
    (body : Code.Body)
    (done : List Code.Op)
    (frame : Frame) : Prop where
  name : frame.function = function.name
  args : frame.args.length = function.arity
  size : frame.registers.length = body.registers.length
  written : ∀ index ∈ Code.dests done, ∃ value, frame.registers[index]? = some (some value)
  writer : ∀ index value, frame.registers[index]? = some (some value) →
    ∃ op ∈ done, op.result? = some (index, value.type)

namespace Frame.Serves

variable {function : Code.Function} {body : Code.Body} {done : List Code.Op} {frame : Frame}

/-- At the start no op has run. -/
theorem enter
    {name : String}
    (named : name = function.name)
    {args : List Float}
    (sameArity : args.length = function.arity) :
    (Frame.enter name body args).Serves function body [] where
  name := named
  args := sameArity
  size := List.length_replicate
  written := by
    intro index member
    cases member
  writer := by
    intro index value held
    simp [Frame.enter, List.getElem?_replicate] at held

section

variable {reads : List (Code.Operand × Code.ValueType)}

theorem misread
    (serves : frame.Serves function body done)
    {α : Type}
    {good : α → Prop}
    {read : Code.Operand × Code.ValueType}
    (isRead : read ∈ reads)
    {malformation : Malformation}
    (misreads : Misreads done read malformation) :
    Yields (Fault.OfReads function.name done reads) good (frame.invalid malformation) :=
  ⟨read, isRead, malformation, misreads, by rw [serves.name]⟩

/-- What is read has the expected type, or it is what an op has written into a register. -/
theorem read
    (serves : frame.Serves function body done)
    {operand : Code.Operand}
    {type : Code.ValueType}
    (typed : function.typeOf? operand = some type)
    (isRead : (operand, type) ∈ reads) :
    Yields (Fault.OfReads function.name done reads)
      (fun value => value.type = type ∨ ∃ index, operand = .reg index ∧
        ∃ op ∈ done, op.result? = some (index, value.type))
      (frame.read operand) := by
  cases operand with
  | const value => exact .inl (Option.some.inj typed)
  | arg index =>
      have inside : index < function.params.length := by
        by_contra outside
        have untyped : function.typeOf? (.arg index) = none := if_neg outside
        rw [untyped] at typed
        cases typed
      have isDouble : function.typeOf? (.arg index) = some .double := if_pos inside
      have passed : index < frame.args.length := by
        rw [serves.args]
        exact inside
      simp only [Frame.read, List.getElem?_eq_getElem passed]
      exact .inl (Option.some.inj (isDouble.symm.trans typed))
  | reg index =>
      have unwritten : (∀ value, frame.registers[index]? ≠ some (some value)) →
          Yields (Fault.OfReads function.name done reads)
            (fun value : Value => value.type = type ∨ ∃ other, Code.Operand.reg index = .reg other ∧
              ∃ op ∈ done, op.result? = some (other, value.type))
            (frame.invalid (.unwrittenRegister index)) := by
        intro empty
        refine serves.misread isRead (.unwritten fun member => ?_)
        obtain ⟨value, held⟩ := serves.written index member
        exact empty value held
      simp only [Frame.read]
      cases held : frame.registers[index]? with
      | none => exact unwritten (by simp [held])
      | some register =>
          cases register with
          | none => exact unwritten (by simp [held])
          | some value => exact .inr ⟨index, rfl, serves.writer index value held⟩

theorem readDouble
    (serves : frame.Serves function body done)
    {operand : Code.Operand}
    (typed : function.typeOf? operand = some .double)
    (isRead : (operand, .double) ∈ reads) :
    Yields (Fault.OfReads function.name done reads) (fun _ => True)
      (frame.readDouble operand) := by
  refine (serves.read typed isRead).bind ?_
  rintro (value | flag) held
  · trivial
  · rcases held with other | ⟨index, rfl, writer, ran, writes⟩
    · cases other
    · exact serves.misread isRead (.notDouble ran writes)

theorem readBool
    (serves : frame.Serves function body done)
    {operand : Code.Operand}
    (typed : function.typeOf? operand = some .bool)
    (isRead : (operand, .bool) ∈ reads) :
    Yields (Fault.OfReads function.name done reads) (fun _ => True)
      (frame.readBool operand) := by
  refine (serves.read typed isRead).bind ?_
  rintro (value | flag) held
  · rcases held with other | ⟨index, rfl, writer, ran, writes⟩
    · cases other
    · exact serves.misread isRead (.notBool ran writes)
  · trivial

/-- Reading operands gives as many numbers. -/
theorem readDoubles
    (serves : frame.Serves function body done)
    {operands : List Code.Operand}
    (typed : ∀ operand ∈ operands, function.typeOf? operand = some .double)
    (areRead : ∀ operand ∈ operands, (operand, .double) ∈ reads) :
    Yields (Fault.OfReads function.name done reads)
      (fun values => values.length = operands.length) (frame.readDoubles operands) := by
  induction operands with
  | nil => rfl
  | cons operand operands inductionHypothesis =>
      rw [List.forall_mem_cons] at typed areRead
      refine (serves.readDouble typed.1 areRead.1).bind ?_
      intro value _
      refine (inductionHypothesis typed.2 areRead.2).bind ?_
      intro values sameLength
      exact congrArg Nat.succ sameLength

end

/-- Writing a register that exists succeeds, and the op that writes has then run. -/
theorem write
    (serves : frame.Serves function body done)
    {op : Code.Op}
    {index : Nat}
    (exist : index < body.registers.length)
    {value : Value}
    (writes : op.result? = some (index, value.type))
    (bad : Fault → Prop) :
    Yields bad (Serves function body (done ++ [op])) (frame.write index value) := by
  rw [← serves.size] at exist
  have isDest := Code.Op.dest?_of_result? writes
  rw [Frame.write, if_pos exist]
  refine ⟨serves.name, serves.args, List.length_set.trans serves.size, ?_, ?_⟩
  · intro other member
    by_cases same : index = other
    · subst same
      exact ⟨value, List.getElem?_set_self exist⟩
    · have before : other ∈ Code.dests done := by
        simpa [Code.dests, isDest, Ne.symm same] using member
      obtain ⟨former, held⟩ := serves.written other before
      exact ⟨former, (List.getElem?_set_ne same).trans held⟩
  · intro other later held
    by_cases same : index = other
    · subst same
      obtain rfl : value = later := by
        simpa [List.getElem?_set_self exist] using held
      exact ⟨op, by simp, writes⟩
    · obtain ⟨writer, ran, wrote⟩ := serves.writer other later
        ((List.getElem?_set_ne same).symm.trans held)
      exact ⟨writer, List.mem_append_left _ ran, wrote⟩

/-- An op that ends a block writes nothing. -/
theorem pass
    (serves : frame.Serves function body done)
    {op : Code.Op}
    (ends : op.isTerminator = true) :
    frame.Serves function body (done ++ [op]) where
  name := serves.name
  args := serves.args
  size := serves.size
  written := by
    have nothing : op.dest? = none := by
      cases op with
      | jump target => rfl
      | branch condition thenBlock elseBlock => rfl
      | ret value => rfl
      | _ => cases ends
    simpa [Code.dests, nothing] using serves.written
  writer := by
    intro index value held
    obtain ⟨writer, ran, wrote⟩ := serves.writer index value held
    exact ⟨writer, List.mem_append_left _ ran, wrote⟩

end Frame.Serves

/-! ## Running a body -/

section

variable {table : Code.Module} {function : Code.Function} {body : Code.Body}
  {done : List Code.Op} {frame : Frame} {call : String → List Float → Exec Float}
  {known : List Event} {bad : Stop → List Event → Prop}

/-- An op that fits runs without other faults than those of its reads and of the call that it
makes. -/
theorem step_ensures
    {op : Code.Op}
    (allowed : ∀ fault : Fault, fault.OfReads function.name done op.reads →
      ∀ events, bad (.fault fault) events)
    (fits : op.Fits table function body)
    (calls : ∀ callee count, op.callee? = some (callee, count) → ∀ values,
      values.length = count → Ensures known (call callee values) (fun _ => True) bad)
    (straight : op.isTerminator = false)
    (serves : frame.Serves function body done) :
    Ensures known (step call frame op) (Frame.Serves function body (done ++ [op])) bad := by
  have readDouble : ∀ operand, (operand, .double) ∈ op.reads →
      Yields (Fault.OfReads function.name done op.reads) (fun _ => True)
        (frame.readDouble operand) :=
    fun operand isRead => serves.readDouble (fits.reads _ isRead) isRead
  cases op with
  | arith op dest lhs rhs =>
      refine .lift ?_ allowed
      refine (readDouble lhs (by simp [Code.Op.reads])).bind ?_
      intro x _
      refine (readDouble rhs (by simp [Code.Op.reads])).bind ?_
      intro y _
      exact serves.write (fits.dest dest rfl) rfl _
  | compare dest predicate lhs rhs =>
      refine .lift ?_ allowed
      refine (readDouble lhs (by simp [Code.Op.reads])).bind ?_
      intro x _
      refine (readDouble rhs (by simp [Code.Op.reads])).bind ?_
      intro y _
      exact serves.write (fits.dest dest rfl) rfl _
  | widen dest src =>
      refine .lift ?_ allowed
      have isRead : (src, .bool) ∈ (Code.Op.widen dest src).reads := by simp [Code.Op.reads]
      refine (serves.readBool (fits.reads _ isRead) isRead).bind ?_
      intro flag _
      exact serves.write (fits.dest dest rfl) rfl _
  | call dest callee args =>
      have areRead : ∀ operand ∈ args,
          (operand, .double) ∈ (Code.Op.call dest callee args).reads :=
        fun operand member => List.mem_map.2 ⟨operand, member, rfl⟩
      have typed : ∀ operand ∈ args, function.typeOf? operand = some .double :=
        fun operand member => fits.reads _ (areRead operand member)
      refine (Ensures.lift (serves.readDoubles typed areRead) allowed).bind ?_
      intro values sameLength
      refine (calls callee args.length rfl values sameLength).bind ?_
      intro result _
      exact .lift (serves.write (fits.dest dest rfl) rfl _) allowed
  | jump target => cases straight
  | branch condition thenBlock elseBlock => cases straight
  | ret value => cases straight

/-- Where the op that ends a block can go. -/
def Transfer.Leaves (op : Code.Op) : Transfer → Prop
  | .goto index => index ∈ op.successors
  | .done _ => True
  | .missing => False

/-- An op that ends its block goes to one of its targets or returns. -/
theorem transfer?_yields
    {op : Code.Op}
    (fits : op.Fits table function body)
    (ends : op.isTerminator = true)
    (serves : frame.Serves function body done) :
    ∃ result, transfer? frame op = some result ∧
      Yields (Fault.OfReads function.name done op.reads) (Transfer.Leaves op) result := by
  cases op with
  | jump target => exact ⟨_, rfl, List.mem_singleton_self target⟩
  | branch condition thenBlock elseBlock =>
      have isRead : (condition, .bool) ∈ (Code.Op.branch condition thenBlock elseBlock).reads := by
        simp [Code.Op.reads]
      refine ⟨_, rfl, (serves.readBool (fits.reads _ isRead) isRead).bind ?_⟩
      intro flag _
      cases flag with
      | true => exact List.mem_cons_self
      | false => exact List.mem_cons_of_mem _ List.mem_cons_self
  | ret value =>
      cases value with
      | none => exact ⟨_, rfl, trivial⟩
      | some operand =>
          have isRead : (operand, .double) ∈ (Code.Op.ret (some operand)).reads := by
            simp [Code.Op.reads]
          refine ⟨_, rfl, (serves.readDouble (fits.reads _ isRead) isRead).bind ?_⟩
          intro result _
          trivial
  | _ => cases ends

/-- A block that ends in its only terminator runs through to it, and without other faults than
those of its reads and of the calls that it makes. -/
theorem runOps_ensures
    {front : List Code.Op}
    {last : Code.Op}
    (straight : ∀ op ∈ front, op.isTerminator = false)
    (ends : last.isTerminator = true)
    (allowed : ∀ before op after, front ++ [last] = before ++ op :: after →
      ∀ fault : Fault, fault.OfReads function.name (done ++ before) op.reads →
        ∀ events, bad (.fault fault) events)
    (fits : ∀ op ∈ front ++ [last], op.Fits table function body)
    (calls : ∀ op ∈ front ++ [last], ∀ callee count, op.callee? = some (callee, count) →
      ∀ values, values.length = count → Ensures known (call callee values) (fun _ => True) bad)
    (serves : frame.Serves function body done) :
    Ensures known (runOps call frame (front ++ [last]))
      (fun ended => ended.1.Serves function body (done ++ (front ++ [last])) ∧
        ended.2.Leaves last) bad := by
  induction front generalizing frame done with
  | nil =>
      have allowedHere := allowed [] last [] rfl
      rw [List.append_nil] at allowedHere
      obtain ⟨result, transferred, leaves⟩ :=
        transfer?_yields (fits last List.mem_cons_self) ends serves
      simp only [List.nil_append, runOps, transferred]
      refine (Ensures.lift leaves allowedHere).bind ?_
      intro transfer left
      exact .pure ⟨serves.pass ends, left⟩
  | cons op front inductionHypothesis =>
      have allowedHere := allowed [] op (front ++ [last]) rfl
      rw [List.append_nil] at allowedHere
      rw [List.cons_append, List.forall_mem_cons] at fits calls
      rw [List.forall_mem_cons] at straight
      simp only [List.cons_append, runOps, transfer?_eq_none frame straight.1]
      refine (step_ensures allowedHere fits.1 calls.1 straight.1 serves).bind ?_
      intro after servesAfter
      have rest := inductionHypothesis straight.2 ?_ fits.2 calls.2 servesAfter
      · simpa only [List.append_assoc, List.singleton_append] using rest
      · intro before next remaining split fault misread
        refine allowed (op :: before) next remaining (congrArg (op :: ·) split) fault ?_
        simpa only [List.append_assoc, List.singleton_append] using misread

/-- A well-formed body runs without other faults than those of the calls that it makes and of
the reads on a path that starts where it starts. -/
theorem runBlocks_ensures
    {index : Nat}
    (allowed : ∀ blocks, body.Path index blocks → ∀ before op after,
      blocks.flatMap Code.Block.ops = before ++ op :: after →
        ∀ fault : Fault, fault.OfReads function.name (done ++ before) op.reads →
          ∀ events, bad (.fault fault) events)
    (unfinished : ∀ events, bad .outOfSteps events)
    (wellFormed : body.WellFormed table function)
    (calls : ∀ block ∈ body.blocks, ∀ op ∈ block.ops, ∀ callee count,
      op.callee? = some (callee, count) → ∀ values, values.length = count →
        ∀ known, .entered function.name block.label ∈ known →
          Ensures known (call callee values) (fun _ => True) bad)
    (steps : Nat)
    (inside : index < body.blocks.length)
    (serves : frame.Serves function body done) :
    Ensures known (runBlocks call body steps index frame) (fun _ => True) bad := by
  induction steps generalizing index frame done known with
  | zero => exact .stop fun events _ => unfinished events
  | succ steps inductionHypothesis =>
      have found : body.blocks[index]? = some body.blocks[index] := List.getElem?_eq_getElem inside
      have member : body.blocks[index] ∈ body.blocks := List.getElem_mem inside
      generalize body.blocks[index] = block at found member
      obtain ⟨front, last, ops, ends, straight⟩ := wellFormed.shaped block member
      have fits : ∀ op ∈ block.ops, op.Fits table function body :=
        fun op isOp => wellFormed.fits op (List.mem_flatMap.2 ⟨block, member, isOp⟩)
      have opCalls := fun op isOp callee count isCall values sameLength =>
        calls block member op isOp callee count isCall values sameLength
          (.entered function.name block.label :: known) List.mem_cons_self
      have allowedHere := allowed [block] (.stay found)
      simp only [List.flatMap_singleton] at allowedHere
      simp only [runBlocks, found, serves.name]
      refine .record ?_
      rw [ops] at fits opCalls allowedHere ⊢
      refine (runOps_ensures straight ends allowedHere fits opCalls serves).bind ?_
      rintro ⟨after, transfer⟩ ⟨servesAfter, left⟩
      cases transfer with
      | done value => exact .pure trivial
      | missing => cases left
      | goto next =>
          have isLast : last ∈ front ++ [last] := by simp
          refine inductionHypothesis ?_ ((fits last isLast).targets next left) servesAfter
          -- a path from the next block goes on from this one
          intro blocks path before op remaining split fault misread
          refine allowed (block :: blocks) (.step found (ops ▸ isLast) left path)
            (block.ops ++ before) op remaining ?_ fault ?_
          · rw [List.flatMap_cons, split, List.append_assoc]
          · rwa [ops, ← List.append_assoc]

end

/-! ## Calls -/

/-- The host looks only at the name and at the number of arguments. -/
theorem host?_eq_none_of_length_eq
    {name : String}
    {args values : List Float}
    (unserved : host? name args = none)
    (sameLength : values.length = args.length) :
    host? name values = none := by
  cases served : host? name values with
  | none => rfl
  | some result =>
      -- the length of the values determines the shape of the arguments
      unfold host? at served
      split at served
      case h_15 => cases served
      case h_10 | h_11 | h_12 =>
        obtain ⟨first, second, rfl⟩ := List.length_eq_two.1 sameLength.symm
        cases unserved
      all_goals
        obtain ⟨only, rfl⟩ := List.length_eq_one_iff.1 sameLength.symm
        cases unserved

/-- The function is declared without a body, and the host has none of its name and arity. -/
def Unserved (table : Code.Module) (name : String) : Prop :=
  ∃ function, table.find? name = some function ∧ function.body = none ∧
    ∀ values : List Float, values.length = function.arity → host? name values = none

/-- Among the events a block was entered that has a call of the function. -/
def EnteredCalling (table : Code.Module) (callee : String) (events : List Event) : Prop :=
  ∃ function ∈ table.functions, ∃ body, function.body = some body ∧
    ∃ block ∈ body.blocks, .entered function.name block.label ∈ events ∧
      ∃ op ∈ block.ops, ∃ count, op.callee? = some (callee, count)

/-- In the body of the function there is a path from the entry to an op that misreads a register
after the ops before it on the path. -/
def Misread (table : Code.Module) (name : String) (malformation : Malformation) : Prop :=
  ∃ function body, table.find? name = some function ∧ function.body = some body ∧
    ∃ blocks, body.Path 0 blocks ∧ ∃ front op back,
      blocks.flatMap Code.Block.ops = front ++ op :: back ∧
        ∃ read ∈ op.reads, Misreads front read malformation

/-- Why a call can stop in a module without defects. -/
inductive Blame
    (table : Code.Module)
    (name : String)
    (args : List Float) :
    Stop → List Event → Prop where
  | unknown {events : List Event}
      (absent : table.find? name = none) :
      Blame table name args (.fault (.unknownFunction name)) events
  | arity {events : List Event} {function : Code.Function}
      (found : table.find? name = some function)
      (differs : function.arity ≠ args.length) :
      Blame table name args (.fault (.arityMismatch name function.arity args.length)) events
  | unserved {events : List Event} {reached : String}
      (unserved : Unserved table reached)
      (reaches : reached = name ∨ EnteredCalling table reached events) :
      Blame table name args (.fault (.noBody reached)) events
  | overflow {events : List Event} {limit : Nat} {reached : String} :
      Blame table name args (.fault (.stackOverflow limit reached)) events
  | misread {events : List Event} {reached : String} {malformation : Malformation}
      (misread : Misread table reached malformation) :
      Blame table name args (.fault (.invalidBody reached malformation)) events
  | unfinished {events : List Event} :
      Blame table name args .outOfSteps events

/-- A stop of a call inside a body is a stop of the call that runs the body. -/
theorem Blame.outer
    {table : Code.Module}
    {callee name : String}
    {values args : List Float}
    {stop : Stop}
    {events : List Event}
    (blame : Blame table callee values stop events)
    {target : Code.Function}
    (found : table.find? callee = some target)
    (sameArity : target.arity = values.length)
    (entered : EnteredCalling table callee events) :
    Blame table name args stop events := by
  cases blame with
  | unknown absent =>
      rw [found] at absent
      cases absent
  | arity otherFound differs =>
      obtain rfl : target = _ := by simpa [found] using otherFound
      exact absurd sameArity differs
  | unserved unserved reaches =>
      refine .unserved unserved (.inr ?_)
      rcases reaches with rfl | deeper
      · exact entered
      · exact deeper
  | overflow => exact .overflow
  | misread misread => exact .misread misread
  | unfinished => exact .unfinished

theorem runHost_ensures
    {table : Code.Module}
    {name : String}
    {function : Code.Function}
    (found : table.find? name = some function)
    (undefined : function.body = none)
    {args : List Float}
    (sameArity : function.arity = args.length)
    (known : List Event) :
    Ensures known (runHost name args) (fun _ => True) (Blame table name args) := by
  unfold runHost
  cases served : host? name args with
  | none =>
      have never : ∀ values : List Float, values.length = function.arity →
          host? name values = none := by
        intro values length
        exact host?_eq_none_of_length_eq served (length.trans sameArity)
      exact .stop fun events _ => .unserved ⟨function, found, undefined, never⟩ (.inl rfl)
  | some result =>
      simp only
      cases result.printed with
      | none => exact .pure trivial
      | some text =>
          have recorded : Ensures (.printed text :: known) (pure result.value) (fun _ => True)
            (Blame table name args) := .pure trivial
          exact recorded.record

/-- A body runs without other reasons to stop than its calls have. -/
theorem runBody_ensures
    {table : Code.Module}
    {name : String}
    {function : Code.Function}
    (found : table.find? name = some function)
    {body : Code.Body}
    (wellFormed : body.WellFormed table function)
    (code : function.body = some body)
    {args : List Float}
    (sameArity : function.arity = args.length)
    {call : String → List Float → Exec Float}
    (calls : ∀ callee values known,
      Ensures known (call callee values) (fun _ => True) (Blame table callee values))
    (steps : Nat)
    (known : List Event) :
    Ensures known (runBlocks call body steps 0 (.enter name body args)) (fun _ => True)
      (Blame table name args) := by
  have named := Code.Module.name_of_find? found
  have allowed : ∀ blocks, body.Path 0 blocks → ∀ before op after,
      blocks.flatMap Code.Block.ops = before ++ op :: after →
        ∀ fault : Fault, fault.OfReads function.name ([] ++ before) op.reads →
          ∀ events, Blame table name args (.fault fault) events := by
    rintro blocks path before op after split fault
      ⟨read, isRead, malformation, misreads, rfl⟩ events
    rw [named]
    exact .misread ⟨function, body, found, code, blocks, path, before, op, after, split, read,
      isRead, misreads⟩
  refine runBlocks_ensures allowed (fun events => .unfinished) wellFormed ?_ steps
    (List.length_pos_iff.2 wellFormed.nonempty) (.enter named.symm sameArity.symm)
  intro block isBlock op isOp callee count isCall values sameLength history entered
  have fits := wellFormed.fits op (List.mem_flatMap.2 ⟨block, isBlock, isOp⟩)
  obtain ⟨target, calleeFound, calleeArity⟩ := fits.callee callee count isCall
  refine (calls callee values history).mono (fun _ _ => trivial) ?_
  intro stop events happened blame
  apply blame.outer calleeFound (calleeArity.trans sameLength.symm)
  exact ⟨function, Code.Module.mem_of_find? found, body, code, block, isBlock, happened entered,
    op, isOp, count, isCall⟩

/-- Every call in a module without defects stops only for one of the reasons of `Blame`. -/
theorem invoke_ensures
    {table : Code.Module}
    (verified : table.verify = .ok ())
    (limit steps room : Nat)
    (name : String)
    (args : List Float)
    (known : List Event) :
    Ensures known (invoke table limit steps room name args) (fun _ => True)
      (Blame table name args) := by
  induction room using Nat.strongRecOn generalizing name args known with
  | ind room inductionHypothesis =>
      unfold invoke
      cases found : table.find? name with
      | none => exact .stop fun events _ => .unknown found
      | some function =>
          by_cases sameArity : function.arity = args.length
          · simp only [sameArity, ne_eq, not_true_eq_false, if_false]
            cases code : function.body with
            | none => exact runHost_ensures found code sameArity known
            | some body =>
                cases room with
                | zero => exact .stop fun events _ => .overflow
                | succ room =>
                    have member := Code.Module.mem_of_find? found
                    have wellFormed := Code.Module.wellFormed_of_verify verified member code
                    have nonempty : body.blocks.isEmpty = false := by
                      simpa using wellFormed.nonempty
                    simp only [Code.Body.entry?, nonempty, Bool.false_eq_true, if_false]
                    exact runBody_ensures found wellFormed code sameArity
                      (inductionHypothesis room (Nat.lt_succ_self room)) steps known
          · simp only [sameArity, ne_eq, not_false_eq_true, if_true]
            exact .stop fun events _ => .arity found sameArity

end Machine
end ScalarScript
