import ScalarScript.Proofs.Faults
import ScalarScript.Proofs.Meaning
import ScalarScript.Proofs.Order
import ScalarScript.Proofs.SessionInvariant

/-!
# Calls in modules that come from texts

A module comes from texts when it was compiled from a script or when it is the module of a
session after any chunks.  In both cases it is what statements that went through leave of
an empty module.  Its bodies write registers before they read them, and its calls fail only
for reasons that concern the program: no call meets a malformed body.
-/

namespace ScalarScript
namespace Machine

open Lowering

/-- The modules that texts give rise to. -/
inductive FromTexts : Code.Module → Prop where
  | compiled {script : Script} {table : Code.Module}
      (accepted : script.compile.result = .ok table) :
      FromTexts table
  | session (name : String) (keepGoing evaluate : Bool) (scripts : List Script) :
      FromTexts ((Session.start name keepGoing evaluate).executeAll scripts).table

/-- A script that compiles is a program that was parsed and lowered. -/
theorem compile_ok
    {script : Script}
    {table : Code.Module}
    (accepted : script.compile.result = .ok table) :
    ∃ statements, (Parse.ofTokens (scan script.content).tokens).result = .ok statements ∧
      (lowerProgram script.name statements).result = .ok table := by
  unfold Script.compile Script.parse at accepted
  cases errors : (scan script.content).errors with
  | cons error others =>
      simp only [errors] at accepted
      cases accepted
  | nil =>
      simp only [errors] at accepted
      cases parsed : (Parse.ofTokens (scan script.content).tokens).result with
      | error error =>
          simp only [parsed] at accepted
          cases accepted
      | ok statements =>
          simp only [parsed] at accepted
          cases lowered : (lowerProgram script.name statements).result with
          | error error =>
              simp only [lowered] at accepted
              cases accepted
          | ok other =>
              simp only [lowered] at accepted
              cases accepted
              exact ⟨statements, rfl, lowered⟩

/-- A module that comes from texts is what statements leave of an empty module. -/
theorem FromTexts.applied
    {table : Code.Module}
    (fromTexts : FromTexts table) :
    ∃ title statements, (∀ statement ∈ statements, statement.Outer) ∧
      AppliedAll statements (.empty title) table := by
  cases fromTexts with
  | @compiled script _ accepted =>
      obtain ⟨statements, parsed, lowered⟩ := compile_ok accepted
      have outer := Parse.ofTokens_outer parsed
      exact ⟨script.name, statements, outer, lowerInto_applied outer (.empty _) lowered⟩
  | session name keepGoing evaluate scripts =>
      have started := Session.settled_start name keepGoing evaluate
      obtain ⟨_, statements, outer, applied⟩ := Session.executeAll_applied started scripts
      exact ⟨name, statements, outer, applied⟩

theorem FromTexts.sound
    {table : Code.Module}
    (fromTexts : FromTexts table) :
    Sound table := by
  obtain ⟨title, statements, outer, applied⟩ := fromTexts.applied
  exact applied.sound outer (.empty title)

/-- In a module that comes from texts, every body was built for its definition. -/
theorem FromTexts.built
    {table : Code.Module}
    (fromTexts : FromTexts table)
    {name : String}
    {function : Code.Function}
    (found : table.find? name = some function)
    {body : Code.Body}
    (code : function.body = some body) :
    Built function := by
  obtain ⟨title, statements, _, applied⟩ := fromTexts.applied
  exact (applied.built found code).resolve_left nofun

/-- In a module that comes from texts, bodies write registers before they read them. -/
theorem FromTexts.writesFirst
    {table : Code.Module}
    (fromTexts : FromTexts table)
    {function : Code.Function}
    (member : function ∈ table.functions)
    {body : Code.Body}
    (code : function.body = some body) :
    body.WritesFirst := by
  have orderly : BodiesOrderly table :=
    fun name function body found code => (fromTexts.built found code).orderly code
  exact orderly.writesFirst fromTexts.sound member code

/-- A call that follows an evaluation meets no malformed body and finishes. -/
theorem Follows.ordinary
    {table : Code.Module}
    {steps limit : Nat}
    {name : String}
    {args : List Float}
    {walk : Walk.Eval Float}
    (follows : Follows Eq (invoke table limit steps limit name args) walk)
    {stop : Stop}
    (stopped : (callWithin steps table limit name args).result = .error stop) :
    ∃ fault, stop = .fault fault ∧ fault.kind ≠ .invalidBody := by
  have agree := follows []
  unfold callWithin at stopped
  revert agree stopped
  generalize invoke table limit steps limit name args [] = ran
  generalize walk (texts []) = walked
  intro stopped agree
  cases agree with
  | values same => cases stopped
  | faults ordinary =>
      cases stopped
      exact ⟨_, rfl, ordinary⟩

/-- What the reasons for a stop say about the outcome of a call. -/
theorem callWithin_blame
    {table : Code.Module}
    (verified : table.verify = .ok ())
    {steps limit : Nat}
    {name : String}
    {args : List Float}
    {stop : Stop}
    (stopped : (callWithin steps table limit name args).result = .error stop) :
    ∃ events, Blame table name args stop events ∧
      (callWithin steps table limit name args).events = events.reverse := by
  have ensures := invoke_ensures verified limit steps limit name args [] [] (List.Subset.refl _)
  unfold callWithin at stopped ⊢
  revert ensures stopped
  generalize invoke table limit steps limit name args [] = ran
  intro stopped ensures
  cases ran with
  | ok value events => cases stopped
  | error other events =>
      cases stopped
      exact ⟨events, ensures.1, rfl⟩

/-- In a module that comes from texts no call meets a malformed body or runs out of steps.
An unknown name or a wrong number of arguments is that of the outermost call, and a function
without a body is reported only when the call reaches it and the host has none of its name
and arity.  On every path through a body, registers are written before they are read. -/
theorem call_fromTexts
    {table : Code.Module}
    (fromTexts : FromTexts table)
    {steps : Nat}
    (enough : table.blockCount ≤ steps)
    (limit : Nat)
    (name : String)
    (args : List Float) :
    (∀ function malformation, (callWithin steps table limit name args).result ≠
        .error (.fault (.invalidBody function malformation))) ∧
      (callWithin steps table limit name args).result ≠ .error .outOfSteps ∧
      (∀ reached, (callWithin steps table limit name args).result =
          .error (.fault (.unknownFunction reached)) →
        reached = name ∧ table.find? name = none) ∧
      (∀ reached takes given, (callWithin steps table limit name args).result =
          .error (.fault (.arityMismatch reached takes given)) →
        reached = name ∧ given = args.length ∧ takes ≠ given ∧
          ∃ function, table.find? name = some function ∧ function.arity = takes) ∧
      (∀ reached, (callWithin steps table limit name args).result =
          .error (.fault (.noBody reached)) →
        Unserved table reached ∧ (reached = name ∨
          EnteredCalling table reached (callWithin steps table limit name args).events)) ∧
      ∀ function ∈ table.functions, ∀ body, function.body = some body → body.WritesFirst := by
  obtain ⟨title, statements, outer, applied⟩ := fromTexts.applied
  have sound := fromTexts.sound
  have follows := AppliedAll.invoke_follows applied enough limit limit name args
  refine ⟨?_, ?_, ?_, ?_, ?_, ?_⟩
  · intro function malformation stopped
    obtain ⟨fault, same, ordinary⟩ := follows.ordinary stopped
    cases same
    exact ordinary rfl
  · intro stopped
    obtain ⟨fault, same, _⟩ := follows.ordinary stopped
    cases same
  · intro reached stopped
    obtain ⟨events, blame, _⟩ := callWithin_blame sound.verified stopped
    cases blame with
    | unknown absent => exact ⟨rfl, absent⟩
  · intro reached takes given stopped
    obtain ⟨events, blame, _⟩ := callWithin_blame sound.verified stopped
    cases blame with
    | arity found differs => exact ⟨rfl, rfl, differs, _, found, rfl⟩
  · intro reached stopped
    obtain ⟨events, blame, same⟩ := callWithin_blame sound.verified stopped
    cases blame with
    | unserved unserved reaches =>
        refine ⟨unserved, reaches.imp_right ?_⟩
        rintro ⟨function, member, body, code, block, isBlock, entered, calls⟩
        rw [same]
        exact ⟨function, member, body, code, block, isBlock, List.mem_reverse.2 entered, calls⟩
  · intro function member body code
    exact fromTexts.writesFirst member code

/-- A function that on one of its paths calls one without a body. -/
def guarded : Code.Module :=
  ((Session.start "guarded" true true).executeAll [.ofSource "guarded"
    "extern missing(x) def guarded(x) if x < 1 then return missing(x) else return x end end"]).table

theorem call_guarded :
    FromTexts guarded ∧
      (call guarded 10 "guarded" [0]).result = .error (.fault (.noBody "missing")) ∧
      Unserved guarded "missing" ∧
      EnteredCalling guarded "missing" (call guarded 10 "guarded" [0]).events ∧
      ∀ function ∈ guarded.functions, ∀ body, function.body = some body → body.WritesFirst := by
  have fromTexts : FromTexts guarded := .session ..
  have stopped : (call guarded 10 "guarded" [0]).result =
      .error (.fault (.noBody "missing")) := by decide +kernel
  obtain ⟨_, _, _, _, noBody, writesFirst⟩ :=
    call_fromTexts fromTexts (Nat.le_refl _) 10 "guarded" [0]
  obtain ⟨unserved, outermost | entered⟩ := noBody "missing" stopped
  · exact absurd outermost (by decide)
  · exact ⟨fromTexts, stopped, unserved, entered, writesFirst⟩

end Machine
end ScalarScript
