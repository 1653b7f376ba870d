import ScalarScript.Proofs.Termination

/-!
# Calls in modules without defects

The checks of a module are made body by body, and its calls run across all bodies.  This
module says what the checks are worth to a call that ends, also where blocks form cycles and
whoever made the module.  All calls that are made on the way are resolved, and the machine
finds every body, block, argument and register that it looks for.

Two things are not checked.  The type of a register is the one it is declared with, and no
check compares it with the type of what an op writes into it.  And a register that is read
has to be written by some op of the body, but not on the way to the op that reads it.  Calls
can fail for these two reasons, and for no other reason that lies in a malformed body.
-/

namespace ScalarScript
namespace Code
namespace Body

/-- Every op writes a value of the type with which its register is declared. -/
def WritesAsDeclared (body : Body) : Prop :=
  ∀ op ∈ body.ops, ∀ written ∈ op.result?,
    body.registers[written.1]?.map Register.type = some written.2

instance (body : Body) : Decidable body.WritesAsDeclared :=
  inferInstanceAs (Decidable (∀ op ∈ body.ops, ∀ written ∈ op.result?,
    body.registers[written.1]?.map Register.type = some written.2))

/-- On a path from the entry, an op reads a register as it is declared after another op has
written it with the other type. -/
def Mistypes (body : Body) : Prop :=
  ∃ blocks, body.Path 0 blocks ∧ ∃ front op back,
    blocks.flatMap Block.ops = front ++ op :: back ∧ ∃ writer ∈ front, ∃ index written register,
      writer.result? = some (index, written) ∧ body.registers[index]? = some register ∧
        (.reg index, register.type) ∈ op.reads ∧ register.type ≠ written

theorem WritesAsDeclared.not_mistypes
    {body : Body}
    (declared : body.WritesAsDeclared) :
    ¬body.Mistypes := by
  rintro ⟨blocks, path, front, op, back, split, writer, ran, index, written, register, writes,
    held, _, differs⟩
  have onPath : writer ∈ blocks.flatMap Block.ops := by
    rw [split]
    exact List.mem_append_left _ ran
  have same := declared writer (path.mem_ops onPath) (index, written) writes
  rw [held] at same
  exact differs (Option.some.inj same)

/-- On every path from the entry, a register is written before it is read. -/
def DefinesFirst (body : Body) : Prop :=
  ∀ blocks, body.Path 0 blocks → ∀ front op back,
    blocks.flatMap Block.ops = front ++ op :: back →
      ∀ index, .reg index ∈ op.operands → index ∈ dests front

/-- On a path from the entry, an op reads the register before any op has written it. -/
def ReadsEarly (body : Body) (index : Nat) : Prop :=
  ∃ blocks, body.Path 0 blocks ∧ ∃ front op back,
    blocks.flatMap Block.ops = front ++ op :: back ∧
      .reg index ∈ op.operands ∧ index ∉ dests front

/-- Where every read finds a value of its type, every register is written first. -/
theorem WritesFirst.definesFirst
    {body : Body}
    (writesFirst : body.WritesFirst) :
    body.DefinesFirst := by
  intro blocks path front op back split index isOperand
  rw [← op.reads_map_fst] at isOperand
  obtain ⟨⟨_, type⟩, isRead, rfl⟩ := List.mem_map.1 isOperand
  obtain ⟨before, writer, between, rfl, writes, _⟩ :=
    writesFirst blocks path front op back split index type isRead
  exact List.mem_filterMap.2 ⟨writer, by simp, Op.dest?_of_result? writes⟩

theorem DefinesFirst.not_readsEarly
    {body : Body}
    (defines : body.DefinesFirst)
    (index : Nat) :
    ¬body.ReadsEarly index := by
  rintro ⟨blocks, path, front, op, back, split, isRead, unwritten⟩
  exact unwritten (defines blocks path front op back split index isRead)

end Body
end Code

namespace Machine

section

variable {table : Code.Module} {limit : Nat} {name : String} {args : List Float} {run : Run}

/-- A call that ends stops only for one of the reasons of `Blame`. -/
theorem Ends.blame
    (verified : table.verify = .ok ())
    (ends : Ends table limit name args run)
    {stop : Stop}
    (stopped : run.result = .error stop) :
    ∃ events, Blame table name args stop events := by
  obtain ⟨bound, eventually⟩ := ends.eventually
  rw [← eventually bound (Nat.le_refl _)] at stopped
  obtain ⟨events, blame, _⟩ := callWithin_blame verified stopped
  exact ⟨events, blame⟩

/-- Where the machine reports a malformed body, an op has misread a register. -/
theorem Ends.misread
    (verified : table.verify = .ok ())
    (ends : Ends table limit name args run)
    {reached : String}
    {malformation : Malformation}
    (stopped : run.result = .error (.fault (.invalidBody reached malformation))) :
    Misread table reached malformation := by
  obtain ⟨events, blame⟩ := ends.blame verified stopped
  cases blame with
  | misread misread => exact misread

/-- Nothing is run for a name that is unknown. -/
theorem Ends.events_of_unknown
    (ends : Ends table limit name args run)
    (absent : table.find? name = none) :
    run.events = [] := by
  obtain ⟨bound, eventually⟩ := ends.eventually
  rw [← eventually bound (Nat.le_refl _)]
  unfold callWithin invoke
  rw [absent]
  rfl

/-- Nothing is run for a wrong number of arguments. -/
theorem Ends.events_of_arity
    (ends : Ends table limit name args run)
    {function : Code.Function}
    (found : table.find? name = some function)
    (differs : function.arity ≠ args.length) :
    run.events = [] := by
  obtain ⟨bound, eventually⟩ := ends.eventually
  rw [← eventually bound (Nat.le_refl _)]
  unfold callWithin invoke
  rw [found]
  dsimp only
  rw [if_pos differs]
  rfl

/-! ## Names, arguments and blocks -/

/-- In a module without defects, when a call ends with an unknown function or with a wrong
number of arguments, these are the name and the arguments of the call itself, and nothing has
been run: no call made on the way fails like this.  It never ends because a body has no entry,
because a block is unknown or lacks a terminator, because an argument is out of range, or
because an unknown register is written. -/
theorem verified_call_is_resolved
    (verified : table.verify = .ok ())
    (ends : Ends table limit name args run) :
    (∀ reached, run.result = .error (.fault (.unknownFunction reached)) →
        reached = name ∧ table.find? name = none ∧ run.events = []) ∧
      (∀ reached takes given,
        run.result = .error (.fault (.arityMismatch reached takes given)) →
          reached = name ∧ given = args.length ∧ takes ≠ given ∧
            (∃ function, table.find? name = some function ∧ function.arity = takes) ∧
              run.events = []) ∧
      ∀ reached malformation,
        run.result = .error (.fault (.invalidBody reached malformation)) →
          malformation ≠ .noEntry ∧ (∀ index, malformation ≠ .unknownBlock index) ∧
            (∀ label, malformation ≠ .noTerminator label) ∧
              (∀ index, malformation ≠ .unknownArgument index) ∧
                ∀ index, malformation ≠ .unknownRegister index := by
  refine ⟨?_, ?_, ?_⟩
  · intro reached stopped
    obtain ⟨events, blame⟩ := ends.blame verified stopped
    cases blame with
    | unknown absent => exact ⟨rfl, absent, ends.events_of_unknown absent⟩
  · intro reached takes given stopped
    obtain ⟨events, blame⟩ := ends.blame verified stopped
    cases blame with
    | arity found differs =>
        exact ⟨rfl, rfl, differs, ⟨_, found, rfl⟩, ends.events_of_arity found differs⟩
  · intro reached malformation stopped
    obtain ⟨_, _, _, _, _, _, _, _, _, _, _, _, misreads⟩ := ends.misread verified stopped
    cases misreads with
    | unwritten unwritten => simp
    | notDouble ran writes => simp
    | notBool ran writes => simp

/-- A function with a block that leads back to itself, which in the end calls another one. -/
def spinning : Code.Module :=
  ⟨"spinning",
    [⟨"missing", ["x"], none⟩,
      ⟨"inner", ["x"], some
        ⟨[⟨"entry", [.call 0 "missing" [.arg 0], .ret (some (.reg 0))]⟩], [⟨"r", .double⟩]⟩⟩,
      ⟨"spin", ["x"], some
        ⟨[⟨"entry", [.jump 1]⟩,
            ⟨"loop", [.compare 0 .ult (.arg 0) (.const 1), .branch (.reg 0) 2 1]⟩,
            ⟨"exit", [.call 1 "inner" [.arg 0], .ret (some (.reg 1))]⟩],
          [⟨"c", .bool⟩, ⟨"r", .double⟩]⟩⟩]⟩

theorem spinning_verified : spinning.verify = .ok () := rfl

theorem spinning_ends :
    (callWithin 3 spinning 10 "spin" [0]).result = .error (.fault (.noBody "missing")) ∧
      Ends spinning 10 "spin" [0] (callWithin 3 spinning 10 "spin" [0]) := by
  have stopped : (callWithin 3 spinning 10 "spin" [0]).result =
      .error (.fault (.noBody "missing")) := by decide +kernel
  refine ⟨stopped, ends_callWithin ?_⟩
  rw [stopped]
  nofun

theorem verified_call_is_resolved_spinning :
    spinning.verify = .ok () ∧
      (∃ function body, spinning.find? "spin" = some function ∧ function.body = some body ∧
        body.LeadsTo 1 1) ∧
      ∃ run, Ends spinning 10 "spin" [0] run ∧
        run.result = .error (.fault (.noBody "missing")) ∧
        (∀ reached, run.result ≠ .error (.fault (.unknownFunction reached))) ∧
        ∀ reached takes given,
          run.result ≠ .error (.fault (.arityMismatch reached takes given)) := by
  obtain ⟨stopped, ends⟩ := spinning_ends
  obtain ⟨unknown, arity, _⟩ := verified_call_is_resolved spinning_verified ends
  refine ⟨spinning_verified, ⟨_, _, rfl, rfl, _, rfl, _, List.mem_cons_of_mem _ List.mem_cons_self,
    List.mem_cons_of_mem _ List.mem_cons_self⟩, _, ends, stopped, ?_, ?_⟩
  · intro reached fails
    obtain ⟨_, absent, _⟩ := unknown reached fails
    cases absent
  · intro reached takes given fails
    obtain ⟨_, rfl, differs, ⟨function, found, rfl⟩, _⟩ := arity reached takes given fails
    cases found
    exact differs rfl

/-! ## The types of registers -/

/-- A register that holds a value of the other type was written with another type than the
declared one. -/
theorem Misread.mistypes
    (verified : table.verify = .ok ())
    {reached : String}
    {malformation : Malformation}
    (misread : Misread table reached malformation)
    (ofType : malformation = .notDouble ∨ malformation = .notBool) :
    ∃ function ∈ table.functions, function.name = reached ∧
      ∃ body ∈ function.body, body.Mistypes := by
  obtain ⟨function, body, found, code, blocks, path, front, op, back, split, read, isRead,
    misreads⟩ := misread
  have member := Code.Module.mem_of_find? found
  have wellFormed := Code.Module.wellFormed_of_verify verified member code
  have isOp : op ∈ body.ops := path.mem_ops (by simp [split])
  refine ⟨function, member, Code.Module.name_of_find? found, body, code, blocks, path, front, op,
    back, split, ?_⟩
  -- the op that reads the register was checked against the declared type
  have declared : ∀ {index type}, (.reg index, type) ∈ op.reads →
      ∃ register, body.registers[index]? = some register ∧ register.type = type := by
    intro index type isRead
    have typed := (wellFormed.fits op isOp).reads _ isRead
    simp only [Code.Function.typeOf?, code, Option.bind_some] at typed
    exact Option.map_eq_some_iff.1 typed
  cases misreads with
  | unwritten unwritten => simp at ofType
  | notDouble ran writes =>
      obtain ⟨register, held, isDouble⟩ := declared isRead
      rw [← isDouble] at isRead
      exact ⟨_, ran, _, _, register, writes, held, isRead, by simp [isDouble]⟩
  | notBool ran writes =>
      obtain ⟨register, held, isBool⟩ := declared isRead
      rw [← isBool] at isRead
      exact ⟨_, ran, _, _, register, writes, held, isRead, by simp [isBool]⟩

/-- In a module without defects in which every op writes a value of the type that its register
is declared with, no call ends because a register holds a value of the other type.  Where a
call does end like this, it is in a body in which a register is written with another type than
the declared one, and then read as it is declared. -/
theorem verified_call_types
    (verified : table.verify = .ok ())
    (ends : Ends table limit name args run) :
    ((∀ function ∈ table.functions, ∀ body ∈ function.body, body.WritesAsDeclared) →
      ∀ reached, run.result ≠ .error (.fault (.invalidBody reached .notDouble)) ∧
        run.result ≠ .error (.fault (.invalidBody reached .notBool))) ∧
      ∀ reached malformation,
        run.result = .error (.fault (.invalidBody reached malformation)) →
          malformation = .notDouble ∨ malformation = .notBool →
            ∃ function ∈ table.functions, function.name = reached ∧
              ∃ body ∈ function.body, body.Mistypes := by
  constructor
  · intro declared reached
    have never : ∀ malformation, malformation = .notDouble ∨ malformation = .notBool →
        run.result ≠ .error (.fault (.invalidBody reached malformation)) := by
      intro malformation ofType stopped
      obtain ⟨function, member, _, body, code, mistypes⟩ :=
        (ends.misread verified stopped).mistypes verified ofType
      exact (declared function member body code).not_mistypes mistypes
    exact ⟨never .notDouble (.inl rfl), never .notBool (.inr rfl)⟩
  · intro reached malformation stopped ofType
    exact (ends.misread verified stopped).mistypes verified ofType

/-- A function that adds numbers into a register declared for truth values and then branches
on it. -/
def misdeclared : Code.Module :=
  ⟨"misdeclared",
    [⟨"f", ["x"], some
      ⟨[⟨"entry", [.arith .add 0 (.const 1) (.const 1), .branch (.reg 0) 1 1]⟩,
          ⟨"exit", [.ret none]⟩],
        [⟨"b", .bool⟩]⟩⟩]⟩

theorem misdeclared_ends :
    misdeclared.verify = .ok () ∧
      ∃ run, Ends misdeclared 512 "f" [1.5] run ∧
        run.result = .error (.fault (.invalidBody "f" .notBool)) := by
  have stopped : (callWithin 2 misdeclared 512 "f" [1.5]).result =
      .error (.fault (.invalidBody "f" .notBool)) := by decide +kernel
  exact ⟨rfl, _, ends_callWithin (by rw [stopped]; nofun), stopped⟩

/-- Not every call in a module without defects reads registers with the types they hold. -/
theorem verified_call_mistyped :
    ¬∀ (table : Code.Module) (limit : Nat) (name : String) (args : List Float) (run : Run),
      table.verify = .ok () → Ends table limit name args run →
        ∀ reached, run.result ≠ .error (.fault (.invalidBody reached .notDouble)) ∧
          run.result ≠ .error (.fault (.invalidBody reached .notBool)) := by
  intro safe
  obtain ⟨verified, run, ends, stopped⟩ := misdeclared_ends
  exact (safe _ _ _ _ run verified ends "f").2 stopped

theorem verified_call_types_misdeclared :
    (∃ function ∈ misdeclared.functions, function.name = "f" ∧
      ∃ body ∈ function.body, body.Mistypes) ∧
      (∀ function ∈ spinning.functions, ∀ body ∈ function.body, body.WritesAsDeclared) ∧
      ∃ run, Ends spinning 10 "spin" [0] run ∧
        ∀ reached, run.result ≠ .error (.fault (.invalidBody reached .notDouble)) ∧
          run.result ≠ .error (.fault (.invalidBody reached .notBool)) := by
  obtain ⟨verified, run, ends, stopped⟩ := misdeclared_ends
  have declared : ∀ function ∈ spinning.functions, ∀ body ∈ function.body,
      body.WritesAsDeclared := by decide
  exact ⟨(verified_call_types verified ends).2 "f" _ stopped (.inr rfl), declared, _,
    spinning_ends.2, (verified_call_types spinning_verified spinning_ends.2).1 declared⟩

/-! ## The order of reads and writes -/

/-- A register that holds nothing is read early, though the body writes it somewhere. -/
theorem Misread.readsEarly
    (verified : table.verify = .ok ())
    {reached : String}
    {index : Nat}
    (misread : Misread table reached (.unwrittenRegister index)) :
    ∃ function ∈ table.functions, function.name = reached ∧
      ∃ body ∈ function.body, index ∈ Code.dests body.ops ∧ body.ReadsEarly index := by
  obtain ⟨function, body, found, code, blocks, path, front, op, back, split, read, isRead,
    misreads⟩ := misread
  have member := Code.Module.mem_of_find? found
  have wellFormed := Code.Module.wellFormed_of_verify verified member code
  have isOp : op ∈ body.ops := path.mem_ops (by simp [split])
  cases misreads with
  | unwritten unwritten =>
      have isOperand : .reg index ∈ op.operands := by
        rw [← op.reads_map_fst]
        exact List.mem_map_of_mem isRead
      exact ⟨function, member, Code.Module.name_of_find? found, body, code,
        wellFormed.written op isOp index isOperand, blocks, path, front, op, back, split,
        isOperand, unwritten⟩

/-- In a module without defects in which on every path a register is written before it is
read, no call ends because a register holds nothing.  Where a call does end like this, it is
in a body that writes the register, but not on a path from the entry to an op that reads
it. -/
theorem verified_call_reads
    (verified : table.verify = .ok ())
    (ends : Ends table limit name args run) :
    ((∀ function ∈ table.functions, ∀ body ∈ function.body, body.DefinesFirst) →
      ∀ reached index,
        run.result ≠ .error (.fault (.invalidBody reached (.unwrittenRegister index)))) ∧
      ∀ reached index,
        run.result = .error (.fault (.invalidBody reached (.unwrittenRegister index))) →
          ∃ function ∈ table.functions, function.name = reached ∧
            ∃ body ∈ function.body, index ∈ Code.dests body.ops ∧ body.ReadsEarly index := by
  constructor
  · intro defines reached index stopped
    obtain ⟨function, member, _, body, code, _, early⟩ :=
      (ends.misread verified stopped).readsEarly verified
    exact (defines function member body code).not_readsEarly index early
  · intro reached index stopped
    exact (ends.misread verified stopped).readsEarly verified

/-- A function that writes a register in one arm and reads it after both. -/
def skipping : Code.Module :=
  ⟨"skipping",
    [⟨"f", ["x"], some
      ⟨[⟨"entry", [.compare 0 .ult (.arg 0) (.const 1), .branch (.reg 0) 1 2]⟩,
          ⟨"then", [.arith .add 1 (.arg 0) (.const 1), .jump 2]⟩,
          ⟨"exit", [.ret (some (.reg 1))]⟩],
        [⟨"c", .bool⟩, ⟨"s", .double⟩]⟩⟩]⟩

theorem skipping_ends :
    skipping.verify = .ok () ∧
      ∃ run, Ends skipping 512 "f" [1.5] run ∧
        run.result = .error (.fault (.invalidBody "f" (.unwrittenRegister 1))) := by
  have stopped : (callWithin 3 skipping 512 "f" [1.5]).result =
      .error (.fault (.invalidBody "f" (.unwrittenRegister 1))) := by decide +kernel
  exact ⟨rfl, _, ends_callWithin (by rw [stopped]; nofun), stopped⟩

/-- Not every call in a module without defects writes registers before it reads them. -/
theorem verified_call_reads_unwritten :
    ¬∀ (table : Code.Module) (limit : Nat) (name : String) (args : List Float) (run : Run),
      table.verify = .ok () → Ends table limit name args run →
        ∀ reached index,
          run.result ≠ .error (.fault (.invalidBody reached (.unwrittenRegister index))) := by
  intro safe
  obtain ⟨verified, run, ends, stopped⟩ := skipping_ends
  exact safe _ _ _ _ run verified ends "f" 1 stopped

theorem verified_call_reads_skipping :
    (∃ function ∈ skipping.functions, function.name = "f" ∧
      ∃ body ∈ function.body, 1 ∈ Code.dests body.ops ∧ body.ReadsEarly 1) ∧
      (∀ function ∈ guarded.functions, ∀ body ∈ function.body, body.DefinesFirst) ∧
      ∃ run, Ends guarded 10 "guarded" [0] run ∧
        ∀ reached index,
          run.result ≠ .error (.fault (.invalidBody reached (.unwrittenRegister index))) := by
  obtain ⟨verified, run, ends, stopped⟩ := skipping_ends
  have fromTexts : FromTexts guarded := .session ..
  have guardedEnds := fromTexts.ends 10 "guarded" [0]
  have defines : ∀ function ∈ guarded.functions, ∀ body ∈ function.body, body.DefinesFirst :=
    fun function member body code => (fromTexts.writesFirst member code).definesFirst
  exact ⟨(verified_call_reads verified ends).2 "f" 1 stopped, defines, _, guardedEnds,
    (verified_call_reads fromTexts.sound.verified guardedEnds).1 defines⟩

end

end Machine
end ScalarScript
