import ScalarScript.Proofs.Simulation
import ScalarScript.Proofs.Statement

/-!
# Lowering keeps the meaning of programs

The table that a program leaves behind represents the program: under each name it has
nothing, a declaration or code exactly as the program has nothing, a declaration or a
definition.  Calling a function of the table then does what evaluating the program does,
by induction on how deeply calls may still be nested.
-/

namespace ScalarScript
namespace Machine

open Lowering
open Code (Builder)

/-! ## Functions -/

theorem lookup_zip
    {params : List String}
    (distinct : params.Nodup)
    {args : List Float}
    {index : Nat}
    {name : String}
    {value : Float}
    (param : params[index]? = some name)
    (arg : args[index]? = some value) :
    (params.zip args).lookup name = some value := by
  induction params generalizing args index with
  | nil => simp at param
  | cons first params inductionHypothesis =>
      cases args with
      | nil => simp at arg
      | cons firstArg args =>
          rw [List.zip_cons_cons, List.lookup_cons]
          cases index with
          | zero =>
              obtain rfl : first = name := by simpa using param
              obtain rfl : firstArg = value := by simpa using arg
              simp
          | succ index =>
              rw [List.getElem?_cons_succ] at param arg
              have member : name ∈ params := List.mem_of_getElem? param
              have different : (name == first) = false := by
                rw [beq_eq_false_iff_ne]
                rintro rfl
                exact (List.nodup_cons.1 distinct).1 member
              rw [different]
              exact inductionHypothesis (List.nodup_cons.1 distinct).2 param arg

/-- In a call with as many arguments as parameters, each name has the value of its
argument. -/
theorem binds_ofParams
    (function : String)
    {params : List String}
    (distinct : params.Nodup)
    {args : List Float}
    (sameLength : params.length = args.length) :
    Binds (Scope.ofParams function params) args (Walk.argument? params args) := by
  intro name operand found
  obtain ⟨index, rfl, param⟩ := Scope.lookup_ofParams found
  have inside : index < args.length := by
    rw [← sameLength]
    exact (List.getElem?_eq_some_iff.1 param).1
  have arg : args[index]? = some args[index] := List.getElem?_eq_getElem inside
  exact ⟨index, args[index], rfl, arg, lookup_zip distinct param arg⟩

/-- The code of a function starts at its first block. -/
theorem entry?_lowerSource
    {table : Code.Module}
    {scope : Scope}
    {block : Block}
    {builder : Builder}
    (built : lowerSource table scope (.block block) .opened = .ok () builder) :
    builder.body.entry? = some 0 := by
  rw [lowerSource_block_eq_ending] at built
  have longer := ((lowerBlock_piece table scope block).growing.ending _ _ _ built).length_le
  have nonempty : builder.body.blocks.isEmpty = false := by
    rw [List.isEmpty_eq_false_iff_exists_mem]
    exact ⟨_, List.getElem_mem (Nat.lt_of_lt_of_le Nat.zero_lt_one longer)⟩
  simp [Code.Body.entry?, nonempty]

/-- Running the code of a function follows the evaluation of its block. -/
theorem runBlocks_follows
    {call : String → List Float → Exec Float}
    {walkCall : String → List Float → Walk.Eval Float}
    (callsFollow : ∀ name args, Follows Eq (call name args) (walkCall name args))
    {table : Code.Module}
    {scope : Scope}
    {args : List Float}
    {env : String → Option Float}
    (binds : Binds scope args env)
    {block : Block}
    {builder : Builder}
    (built : lowerSource table scope (.block block) .opened = .ok () builder)
    {steps : Nat}
    (enough : builder.body.blocks.length ≤ steps)
    (name : String) :
    Follows Eq (runBlocks call builder.body steps 0 (.enter name builder.body args))
      (Walk.block walkCall env block >>= fun returned => pure (returned.getD 0)) := by
  have realizes : Realizes call args (lowerBlock table scope block)
      (Walk.block walkCall env block) := lowerBlock_realizes callsFollow binds block
  rw [lowerSource_block_eq_ending] at built
  have grows := (lowerBlock_piece table scope block).growing.ending _ _ _ built
  have continues : Continues call builder.body args 0 (Builder.opened.position 0)
      (Walk.block walkCall env block >>= finishWith (pure 0)) := by
    refine realizes.ending built (.refl _) ?_
    intro steps frame label rest _ _
    rw [proceed_ret_none]
    exact .pure rfl
  have starts : Starts call builder.body args 1 1 0
      (Walk.block walkCall env block >>= finishWith (pure 0)) :=
    continues.starts grows.initial ⟨"entry", rfl⟩
  have returns : finishWith (pure 0) =
      fun returned : Option Float => (pure (returned.getD 0) : Walk.Eval Float) := by
    funext returned
    cases returned <;> rfl
  rw [← returns]
  refine starts steps _ ⟨rfl, ?_⟩ (by omega)
  simp [Frame.enter]

/-! ## Programs -/

/-- What the table has under a name represents what the program says about it. -/
inductive Represents (name : String) : Option Walk.Definition → Option Code.Function → Prop where
  | absent : Represents name none none
  | declared {params : List String} {function : Code.Function}
      (sameArity : function.arity = params.length)
      (undefined : function.body = none) :
      Represents name (some ⟨params, none⟩) (some function)
  | defined {params : List String} {block : Block} {function : Code.Function}
      {table : Code.Module} {builder : Builder}
      (sameArity : function.arity = params.length)
      (distinct : params.Nodup)
      (built : lowerSource table (Scope.ofParams name params) (.block block) .opened =
        .ok () builder)
      (code : function.body = some builder.body) :
      Represents name (some ⟨params, some block⟩) (some function)

/-- Calls in a table follow calls in the program that it represents, however deeply they
may be nested. -/
theorem invoke_follows
    {statements : List Stmt}
    {table : Code.Module}
    (represents : ∀ name, Represents name (Walk.function? statements name) (table.find? name))
    {steps : Nat}
    (enough : ∀ name function body, table.find? name = some function →
      function.body = some body → body.blocks.length ≤ steps)
    (limit room : Nat)
    (name : String)
    (args : List Float) :
    Follows Eq (invoke table limit steps room name args)
      (Walk.invoke statements limit room name args) := by
  induction room using Nat.strongRecOn generalizing name args with
  | ind room inductionHypothesis =>
      unfold invoke Walk.invoke
      have represented := represents name
      have bounded := enough name
      revert represented bounded
      generalize Walk.function? statements name = meaning
      generalize table.find? name = found
      intro represented bounded
      cases represented with
      | absent => exact .fault nofun
      | declared sameArity undefined =>
          simp only [sameArity, undefined]
          split
          · exact .fault nofun
          · exact runHost_follows name args
      | @defined params block function _ builder sameArity distinct built code =>
          simp only [sameArity, code]
          by_cases sameLength : params.length = args.length
          · simp only [sameLength, ne_eq, not_true_eq_false, if_false]
            cases room with
            | zero => exact .fault nofun
            | succ room =>
                simp only [entry?_lowerSource built]
                exact runBlocks_follows (inductionHypothesis room (Nat.lt_succ_self room))
                  (binds_ofParams name distinct sameLength) built (bounded _ _ rfl code) name
          · simp only [sameLength, ne_eq, not_false_eq_true, if_true]
            exact .fault nofun

/-! ## What statements represent -/

/-- A statement that stands after others defines a name, declares it if nothing did so
before, or does not concern it. -/
theorem function?_append
    (front : List Stmt)
    (statement : Stmt)
    (name : String) :
    Walk.function? (front ++ [statement]) name =
      ((front.findSome? (Walk.definition? name)).or (Walk.definition? name statement)).or
        ((front.findSome? (Walk.declaration? name)).or (Walk.declaration? name statement)) := by
  have single : ∀ question : Stmt → Option Walk.Definition,
      [statement].findSome? question = question statement := by
    intro question
    cases asked : question statement <;> simp [asked]
  simp only [Walk.function?, List.findSome?_append, single]

/-- Only definitions have bodies. -/
theorem findSome?_definition_eq_none
    {statements : List Stmt}
    {name : String}
    (undefined : ∀ meaning, Walk.function? statements name = some meaning →
      meaning.body = none) :
    statements.findSome? (Walk.definition? name) = none := by
  cases found : statements.findSome? (Walk.definition? name) with
  | none => rfl
  | some meaning =>
      obtain ⟨statement, _, defines⟩ := List.exists_of_findSome?_eq_some found
      have hasNone : meaning.body = none := undefined meaning (by simp [Walk.function?, found])
      cases statement with
      | function proto body =>
          simp only [Walk.definition?] at defines
          split at defines
          · cases defines
            cases hasNone
          · cases defines
      | _ => cases defines

/-- A prototype declares its name unless something did so before. -/
theorem function?_prototype
    (front : List Stmt)
    (proto : Prototype)
    (name : String) :
    Walk.function? (front ++ [.prototype proto]) name =
      (Walk.function? front name).or
        (if proto.name = name then some ⟨proto.params, none⟩ else none) := by
  rw [function?_append, Walk.function?]
  simp only [Walk.definition?, Walk.declaration?, Option.or_none, Option.or_assoc]

/-- A name that is defined for the first time means what its definition says. -/
theorem function?_function
    {front : List Stmt}
    {proto : Prototype}
    (undefined : ∀ meaning, Walk.function? front proto.name = some meaning →
      meaning.body = none)
    (body : Block) :
    Walk.function? (front ++ [.function proto body]) proto.name =
      some ⟨proto.params, some body⟩ := by
  rw [function?_append, findSome?_definition_eq_none undefined]
  simp [Walk.definition?]

theorem function?_function_of_ne
    (front : List Stmt)
    {proto : Prototype}
    (body : Block)
    {name : String}
    (different : name ≠ proto.name) :
    Walk.function? (front ++ [.function proto body]) name = Walk.function? front name := by
  rw [function?_append, Walk.function?]
  simp [Walk.definition?, Walk.declaration?, different.symm]

/-- One more statement that goes through keeps the table representing the program. -/
theorem Applied.represents
    {front : List Stmt}
    {table final : Code.Module}
    (represents : ∀ name, Represents name (Walk.function? front name) (table.find? name))
    {statement : Stmt}
    (applied : Applied statement table final)
    (name : String) :
    Represents name (Walk.function? (front ++ [statement]) name) (final.find? name) := by
  have before := represents name
  cases applied with
  | evaluated built =>
      rw [function?_append]
      simpa [Walk.definition?, Walk.declaration?, Walk.function?] using before
  | @known _ proto former found sameArity =>
      rw [function?_prototype]
      by_cases same : proto.name = name
      · subst same
        -- what is in the table is known to the program already
        rw [found] at before ⊢
        cases meant : Walk.function? front proto.name with
        | none =>
            rw [meant] at before
            cases before
        | some meaning =>
            rw [meant] at before
            exact before
      · rw [if_neg same, Option.or_none]
        exact before
  | @declared _ proto absent =>
      rw [function?_prototype, Code.Module.find?_put, name_declaration]
      by_cases same : proto.name = name
      · subst same
        rw [absent] at before
        rw [if_pos rfl, if_pos rfl]
        cases meant : Walk.function? front proto.name with
        | none => exact .declared rfl rfl
        | some meaning =>
            rw [meant] at before
            cases before
      · rw [if_neg same, if_neg fun equal => same equal.symm, Option.or_none]
        exact before
  | @defined _ proto body builder definable built verified =>
      rw [Code.Module.find?_put, name_definition]
      by_cases same : name = proto.name
      · subst same
        have undefined : ∀ meaning, Walk.function? front proto.name = some meaning →
            meaning.body = none := by
          intro meaning meant
          rw [meant] at before
          cases found : table.find? proto.name with
          | none =>
              rw [found] at before
              cases before
          | some former =>
              rw [found] at before
              cases before with
              | declared sameArity undefined => rfl
              | defined sameArity distinct _ code =>
                  rw [(definable former found).1] at code
                  cases code
        rw [function?_function undefined, if_pos rfl]
        exact .defined rfl proto.distinct built rfl
      · rw [function?_function_of_ne front body same, if_neg same]
        exact before

theorem AppliedAll.represents
    {front statements : List Stmt}
    {table final : Code.Module}
    (represents : ∀ name, Represents name (Walk.function? front name) (table.find? name))
    (applied : AppliedAll statements table final)
    (name : String) :
    Represents name (Walk.function? (front ++ statements) name) (final.find? name) := by
  induction applied generalizing front with
  | nil table =>
      rw [List.append_nil]
      exact represents name
  | cons first others inductionHypothesis =>
      have next := inductionHypothesis (Applied.represents represents first)
      rwa [List.append_assoc, List.singleton_append] at next

/-! ## Whole calls -/

theorem length_le_blockCount
    {table : Code.Module}
    {name : String}
    {function : Code.Function}
    {body : Code.Body}
    (found : table.find? name = some function)
    (code : function.body = some body) :
    body.blocks.length ≤ table.blockCount := by
  refine List.Sublist.length_le (List.sublist_flatten_of_mem (List.mem_map.2 ?_))
  exact ⟨function, Code.Module.mem_of_find? found, by simp [code]⟩

/-- The result of a run is the result of an evaluation: the same value or the same fault. -/
inductive SameResult : Except Stop Float → Except Walk.Halt Float → Prop where
  | value (value : Float) : SameResult (.ok value) (.ok value)
  | fault (fault : Fault) : SameResult (.error (.fault fault)) (.error (.fault fault))

/-- A call that follows an evaluation has its result and prints its text. -/
theorem callWithin_follows
    {statements : List Stmt}
    {table : Code.Module}
    {steps limit : Nat}
    {name : String}
    {args : List Float}
    (follows : Follows Eq (invoke table limit steps limit name args)
      (Walk.invoke statements limit limit name args)) :
    SameResult (callWithin steps table limit name args).result
        (Walk.call statements limit name args).result ∧
      (callWithin steps table limit name args).printed =
        (Walk.call statements limit name args).printed := by
  have printedTexts : ∀ (result : Except Stop Float) (events : List Event),
      (⟨result, events.reverse⟩ : Run).printed = String.join (texts events).reverse := by
    intro result events
    rw [texts, ← List.filterMap_reverse]
    congr
  have agree := follows []
  unfold callWithin Walk.call
  revert agree
  change Agree Eq _ (Walk.invoke statements limit limit name args []) → _
  generalize invoke table limit steps limit name args [] = ran
  generalize Walk.invoke statements limit limit name args [] = walked
  intro agree
  cases agree with
  | @values value other events same =>
      subst same
      exact ⟨.value value, printedTexts _ events⟩
  | @faults fault events _ => exact ⟨.fault fault, printedTexts _ events⟩

/-- Calls in the table that statements leave behind follow the evaluation of these
statements. -/
theorem AppliedAll.invoke_follows
    {statements : List Stmt}
    {title : String}
    {table : Code.Module}
    (applied : AppliedAll statements (.empty title) table)
    {steps : Nat}
    (enough : table.blockCount ≤ steps)
    (limit room : Nat)
    (name : String)
    (args : List Float) :
    Follows Eq (invoke table limit steps room name args)
      (Walk.invoke statements limit room name args) := by
  have nothing : ∀ name, Represents name (Walk.function? [] name)
      ((Code.Module.empty title).find? name) := fun _ => .absent
  refine Machine.invoke_follows (AppliedAll.represents nothing applied) ?_ limit room name args
  intro other function body found code
  exact Nat.le_trans (length_le_blockCount found code) enough

/-- Lowering keeps the meaning of programs.  When a program that was parsed goes through
lowering, every call in the resulting table has the value or the fault that evaluating the
program has, and prints the same text.  This holds for any number of steps from the number
of blocks on, with which `call` runs, so no call is ever short of steps. -/
theorem call_lowered_program
    {tokens : List Token}
    {statements : List Stmt}
    (parsed : (Parse.ofTokens tokens).result = .ok statements)
    {title : String}
    {table : Code.Module}
    (lowered : (lowerProgram title statements).result = .ok table)
    {steps : Nat}
    (enough : table.blockCount ≤ steps)
    (limit : Nat)
    (name : String)
    (args : List Float) :
    SameResult (callWithin steps table limit name args).result
        (Walk.call statements limit name args).result ∧
      (callWithin steps table limit name args).printed =
        (Walk.call statements limit name args).printed := by
  have applied := lowerInto_applied (Parse.ofTokens_outer parsed) (.empty title) lowered
  exact callWithin_follows (AppliedAll.invoke_follows applied enough limit limit name args)

/-- A recursive program with a chain of arms, one of which prints. -/
def countdownTokens : List Token :=
  (scan "extern printd(x) def down(n)
    if n < 1 then return elif n == 2 then printd(n) end
    return down(n - 1) end").tokens

def countdown : List Stmt :=
  (Parse.ofTokens countdownTokens).result.toOption.getD []

theorem countdown_runs :
    (Parse.ofTokens countdownTokens).result.toBool = true ∧
      (lowerProgram "countdown" countdown).result.toBool = true ∧
      (Walk.call countdown 10 "down" [3]).printed = "2\n" := by
  decide +kernel

theorem call_lowered_countdown :
    (Parse.ofTokens countdownTokens).result = .ok countdown ∧
      ∃ table, (lowerProgram "countdown" countdown).result = .ok table ∧
        SameResult (call table 10 "down" [3]).result
          (Walk.call countdown 10 "down" [3]).result ∧
        (call table 10 "down" [3]).printed = "2\n" := by
  obtain ⟨parses, lowers, printed⟩ := countdown_runs
  have parsed : (Parse.ofTokens countdownTokens).result = .ok countdown := by
    unfold countdown
    cases result : (Parse.ofTokens countdownTokens).result with
    | ok statements => rfl
    | error error =>
        rw [result] at parses
        cases parses
  refine ⟨parsed, ?_⟩
  cases lowered : (lowerProgram "countdown" countdown).result with
  | error error =>
      rw [lowered] at lowers
      cases lowers
  | ok table =>
      have agrees := call_lowered_program parsed lowered (Nat.le_refl _) 10 "down" [3]
      exact ⟨table, rfl, agrees.1, agrees.2.trans printed⟩

end Machine
end ScalarScript
