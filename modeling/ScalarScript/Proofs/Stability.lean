import ScalarScript.Proofs.Lifecycle
import ScalarScript.Proofs.Termination

/-!
# Later chunks do not change earlier functions

What a call does depends on the functions that it can reach, and in a table without defects
the calls in bodies reach only functions of that table.  A larger table in which all of these
are found unchanged therefore answers every call of one of them in the same way, whatever
else was added to it.  In a session this is so unless a function that was only declared is
defined later.
-/

namespace ScalarScript
namespace Code
namespace Module

/-- Every function of one table is found unchanged in another. -/
def Within (table larger : Module) : Prop :=
  ∀ name function, table.find? name = some function → larger.find? name = some function

/-- A table that grows keeps all functions unless it defines one that was declared. -/
theorem Grows.within
    {earlier later : Module}
    (grows : earlier.Grows later)
    (undefined : ∀ function ∈ earlier.functions, function.state = .declared →
      later.state? function.name ≠ some .defined) :
    earlier.Within later := by
  intro name function found
  cases state : function.state with
  | defined => exact grows.defined name function found state
  | declared =>
      rcases grows.declared name function found state with kept | defined
      · exact kept
      · rw [← name_of_find? found] at defined
        exact absurd defined (undefined function (mem_of_find? found) state)

end Module
end Code

namespace Machine

/-! ## The calls that a body makes -/

theorem congruence_eq : Congruence fun _ => Eq where
  pure := fun _ _ => rfl
  fail := fun _ _ => rfl
  record := fun _ => rfl
  bind := by
    rintro α β run _ next otherNext rfl same
    exact bind_congr same

/-- What a body does depends only on the functions that its ops call. -/
theorem runBlocks_congr
    {call other : String → List Float → Exec Float}
    {body : Code.Body}
    (agree : RelatedCalls (fun _ => Eq) call other body.ops)
    (steps index : Nat)
    (frame : Frame) :
    runBlocks call body steps index frame = runBlocks other body steps index frame := by
  induction steps generalizing index frame with
  | zero => rfl
  | succ steps inductionHypothesis =>
      exact congruence_eq.runBlocks_succ agree inductionHypothesis index frame

/-! ## Larger tables -/

/-- Calls of functions of a table without defects are the same in every table that has all
of these functions. -/
theorem invoke_within
    {table larger : Code.Module}
    (verified : table.verify = .ok ())
    (within : table.Within larger)
    (limit steps room : Nat)
    {name : String}
    {function : Code.Function}
    (found : table.find? name = some function)
    (args : List Float) :
    invoke larger limit steps room name args = invoke table limit steps room name args := by
  induction room using Nat.strongRecOn generalizing name function args with
  | ind room inductionHypothesis =>
      unfold invoke
      rw [within name function found, found]
      dsimp only
      split
      · rfl
      · cases code : function.body with
        | none => rfl
        | some body =>
            cases room with
            | zero => rfl
            | succ room =>
                have wellFormed := Code.Module.wellFormed_of_verify verified
                  (Code.Module.mem_of_find? found) code
                have agree : RelatedCalls (fun _ => Eq) (invoke larger limit steps room)
                    (invoke table limit steps room) body.ops := by
                  intro op member callee count isCall values
                  obtain ⟨target, calleeFound, _⟩ :=
                    (wellFormed.fits op member).callee callee count isCall
                  exact inductionHypothesis room (Nat.lt_succ_self room) calleeFound values
                dsimp only
                cases body.entry? with
                | none => rfl
                | some entry => exact runBlocks_congr agree steps entry _

theorem callWithin_within
    {table larger : Code.Module}
    (verified : table.verify = .ok ())
    (within : table.Within larger)
    (limit steps : Nat)
    {name : String}
    {function : Code.Function}
    (found : table.find? name = some function)
    (args : List Float) :
    callWithin steps larger limit name args = callWithin steps table limit name args := by
  unfold callWithin
  rw [invoke_within verified within limit steps limit found args]

/-- A call that ends in a table ends in the same run in every larger one. -/
theorem Ends.within
    {table larger : Code.Module}
    (verified : table.verify = .ok ())
    (within : table.Within larger)
    {limit : Nat}
    {name : String}
    {function : Code.Function}
    (found : table.find? name = some function)
    {args : List Float}
    {run : Run}
    (ends : Ends table limit name args run) :
    Ends larger limit name args run := by
  obtain ⟨bound, eventually⟩ := ends.eventually
  refine ⟨ends.finished, bound, ?_⟩
  intro steps enough
  rw [callWithin_within verified within limit steps found args]
  exact eventually steps enough

end Machine

namespace Session

/-- From any state of a session on, whatever chunks come next and whether they succeed or
fail, every function that is there keeps its behaviour, unless one that was only declared has
been defined meanwhile.  Each of its calls ends, and later in the very same run: with the same
value or fault and the same printed text. -/
theorem executeAll_keeps_calls
    (title : String)
    (keepGoing evaluate : Bool)
    (past further : List Script) :
    let session := (start title keepGoing evaluate).executeAll past
    let later := session.executeAll further
    (∀ function ∈ session.table.functions, function.state = .declared →
      later.table.state? function.name ≠ some .defined) →
    ∀ function ∈ session.table.functions, ∀ limit args,
      let run := Machine.call session.table limit function.name args
      Machine.Ends session.table limit function.name args run ∧
        Machine.Ends later.table limit function.name args run ∧
        Machine.call later.table limit function.name args = run := by
  intro session later undefined function member limit args run
  obtain ⟨settledHere, _⟩ := executeAll_applied (settled_start title keepGoing evaluate) past
  obtain ⟨_, passed, _, applied⟩ := executeAll_applied settledHere further
  have within := applied.grows.within undefined
  have found := settledHere.sound.distinct.find?_of_mem member
  have ends : Machine.Ends session.table limit function.name args run :=
    (Machine.FromTexts.session title keepGoing evaluate past).ends limit function.name args
  have laterEnds := ends.within settledHere.sound.verified within found
  have fromTexts : Machine.FromTexts later.table := by
    have joined : later = (start title keepGoing evaluate).executeAll (past ++ further) :=
      List.foldl_append.symm
    rw [joined]
    exact .session ..
  exact ⟨ends, laterEnds, (fromTexts.ends limit function.name args).unique laterEnds⟩

/-- The session after a chunk with a recursive function that prints and in the end calls one
without a body. -/
def descending : Session :=
  (start "descending" false true).executeAll
    [.ofSource "descending"
      "extern printd(x) extern missing(x)
      def down(x) printd(x) if x < 1 then return missing(x) end return down(x - 1) end"]

/-- Chunks that define and run further functions, and chunks that fail in every way. -/
def interfering : List Script :=
  [.ofSource "redefines" "def down(y) return 2 end",
    .ofSource "unreadable" "def missing(x) return $ end",
    .ofSource "unparsed" "def missing(x return 1 end",
    .ofSource "unlowered" "def missing(x) return y end",
    .ofSource "defines" "extern other(x) def up(x) return down(x) + other(x) end up(1)"]

theorem executeAll_keeps_calls_descending :
    (descending.executeAll interfering).table.state? "up" = some .defined ∧
      (∀ function ∈ descending.table.functions, function.state = .declared →
        (descending.executeAll interfering).table.state? function.name ≠ some .defined) ∧
      ∃ run, Machine.Ends descending.table 10 "down" [1] run ∧
        Machine.call (descending.executeAll interfering).table 10 "down" [1] = run ∧
        run.result = .error (.fault (.noBody "missing")) ∧ run.printed = "1\n0\n" := by
  -- one evaluation for all facts, since each of them runs the chunks again
  obtain ⟨defined, undefined, present, result, printed⟩ :
      (descending.executeAll interfering).table.state? "up" = some .defined ∧
        (∀ function ∈ descending.table.functions, function.state = .declared →
          (descending.executeAll interfering).table.state? function.name ≠ some .defined) ∧
        "down" ∈ descending.table.functions.map Code.Function.name ∧
        (Machine.call descending.table 10 "down" [1]).result =
          .error (.fault (.noBody "missing")) ∧
        (Machine.call descending.table 10 "down" [1]).printed = "1\n0\n" := by
    decide +kernel
  obtain ⟨function, member, named⟩ := List.mem_map.1 present
  obtain ⟨ends, _, same⟩ := executeAll_keeps_calls "descending" false true _ interfering
    undefined function member 10 [1]
  rw [named] at ends same
  exact ⟨defined, undefined, _, ends, same, result, printed⟩

end Session
end ScalarScript
