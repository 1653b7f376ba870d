import ScalarScript.Proofs.SessionInvariant

/-!
# The life of a function

Between statements the table of a session only grows.  New names are added at the end, a
declaration may turn into a definition with as many parameters, and nothing else ever
changes: no function moves, vanishes, loses its body or gets another one.  `Module.Grows`
compares two tables in this way; it holds of one statement and therefore of any number of
chunks.
-/

namespace ScalarScript
namespace Code

/-- How the state of one name may change; a name without a function has none. -/
inductive State.Advances : Option State → Option State → Prop
  | stays (state : Option State) : Advances state state
  | declares : Advances none (some .declared)
  | defines : Advances none (some .defined)
  | completes : Advances (some .declared) (some .defined)

namespace Module

/-- Every function of one table is found again in another, later one. -/
structure Grows (earlier later : Module) : Prop where
  /-- Earlier names come first, in the same order. -/
  names : earlier.names <+: later.names
  /-- No function changes its number of parameters. -/
  arities : earlier.KeepsArities later
  /-- A defined function stays as it is. -/
  defined : ∀ name function, earlier.find? name = some function →
    function.state = .defined → later.find? name = some function
  /-- A declared function stays as it is or is defined. -/
  declared : ∀ name function, earlier.find? name = some function →
    function.state = .declared →
      later.find? name = some function ∨ later.state? name = some .defined

namespace Grows

theorem refl (table : Module) : table.Grows table where
  names := List.prefix_rfl
  arities := fun _ function found => ⟨function, found, rfl⟩
  defined := fun _ _ found _ => found
  declared := fun _ _ found _ => Or.inl found

theorem trans
    {first second third : Module}
    (toSecond : first.Grows second)
    (toThird : second.Grows third) :
    first.Grows third where
  names := toSecond.names.trans toThird.names
  arities := by
    intro name function found
    obtain ⟨kept, foundSecond, sameArity⟩ := toSecond.arities name function found
    obtain ⟨last, foundThird, sameAgain⟩ := toThird.arities name kept foundSecond
    exact ⟨last, foundThird, sameAgain.trans sameArity⟩
  defined := by
    intro name function found isDefined
    exact toThird.defined name function (toSecond.defined name function found isDefined) isDefined
  declared := by
    intro name function found isDeclared
    rcases toSecond.declared name function found isDeclared with foundSecond | defined
    · exact toThird.declared name function foundSecond isDeclared
    · -- once defined, a function stays what it is
      obtain ⟨kept, foundSecond, keptDefined⟩ := Option.map_eq_some_iff.1 defined
      have foundThird := toThird.defined name kept foundSecond keptDefined
      exact Or.inr (by simp [state?, foundThird, keptDefined])

/-- Writing a function makes the table grow when nothing stands under its name, or a
declaration that it defines. -/
theorem put
    (table : Module)
    (function : Function)
    (completes : ∀ former, table.find? function.name = some former →
      former.state = .declared ∧ former.arity = function.arity ∧ function.state = .defined) :
    table.Grows (table.put function) where
  names := by
    rw [names_put]
    split
    · exact List.prefix_rfl
    · exact List.prefix_append _ _
  arities := KeepsArities.put table function fun former found => (completes former found).2.1
  defined := by
    intro name former found isDefined
    have other : name ≠ function.name := by
      rintro rfl
      have isDeclared := (completes former found).1
      rw [isDefined] at isDeclared
      cases isDeclared
    simpa [other] using found
  declared := by
    intro name former found isDeclared
    by_cases same : name = function.name
    · subst name
      exact Or.inr (by simp [state?, (completes former found).2.2])
    · exact Or.inl (by simpa [same] using found)

/-- In a table that grows every name goes from undeclared to declared to defined. -/
theorem advances
    {earlier later : Module}
    (grows : earlier.Grows later)
    (name : String) :
    State.Advances (earlier.state? name) (later.state? name) := by
  cases found : earlier.find? name with
  | none =>
      have undeclared : earlier.state? name = none := by simp [state?, found]
      rw [undeclared]
      cases after : later.state? name with
      | none => exact .stays none
      | some state =>
          cases state with
          | declared => exact .declares
          | defined => exact .defines
  | some function =>
      have before : earlier.state? name = some function.state := by simp [state?, found]
      rw [before]
      cases state : function.state with
      | defined =>
          have kept := grows.defined name function found state
          have after : later.state? name = some .defined := by simp [state?, kept, state]
          rw [after]
          exact .stays _
      | declared =>
          rcases grows.declared name function found state with kept | defined
          · have after : later.state? name = some .declared := by simp [state?, kept, state]
            rw [after]
            exact .stays _
          · rw [defined]
            exact .completes

end Grows
end Module
end Code

namespace Lowering

theorem state_definition (proto : Prototype) (body : Code.Body) :
    (definition proto body).state = .defined := rfl

/-- A function without a body is declared only. -/
theorem state_of_body
    {function : Code.Function}
    (noBody : function.body = none) :
    function.state = .declared := by
  simp [Code.Function.state, Code.Function.isDefined, noBody]

/-- A statement that goes through makes the table grow. -/
theorem Applied.grows
    {statement : Stmt}
    {table final : Code.Module}
    (applied : Applied statement table final) :
    table.Grows final := by
  cases applied with
  | known found sameArity => exact .refl table
  | evaluated built => exact .refl table
  | @declared _ proto absent =>
      apply Code.Module.Grows.put
      intro former found
      rw [name_declaration, absent] at found
      cases found
  | @defined _ proto body builder definable built verified =>
      apply Code.Module.Grows.put
      intro former found
      obtain ⟨noBody, sameArity⟩ := definable former found
      exact ⟨state_of_body noBody, sameArity, state_definition proto builder.body⟩

theorem AppliedAll.grows
    {statements : List Stmt}
    {table final : Code.Module}
    (applied : AppliedAll statements table final) :
    table.Grows final := by
  induction applied with
  | nil table => exact .refl table
  | cons first others inductionHypothesis => exact first.grows.trans inductionHypothesis

end Lowering

namespace Session

theorem runStmt_grows
    {session : Session}
    (settledBefore : session.Settled)
    {statement : Stmt}
    (outer : statement.Outer) :
    session.table.Grows (session.runStmt statement).session.table := by
  obtain ⟨_, applied | unchanged⟩ := runStmt_cases settledBefore outer
  · exact applied.grows
  · rw [unchanged]
    exact .refl _

/-- From any state of a session on, whatever chunks come next, the table only grows.  Also
between any two statements of a chunk every name stays in its state or goes on from
undeclared to declared or defined, or from declared to defined. -/
theorem executeAll_grows
    (title : String)
    (keepGoing evaluate : Bool)
    (past further : List Script) :
    let session := (start title keepGoing evaluate).executeAll past
    session.table.Grows (session.executeAll further).table ∧
      ∀ (tokens : List Token) (front back : List Stmt) (statement : Stmt),
        (Parse.ofTokens tokens).result = .ok (front ++ statement :: back) →
        let before := (session.runStmts front).1
        let after := (before.runStmt statement).session
        before.table.Grows after.table ∧
          ∀ name, Code.State.Advances (before.table.state? name) (after.table.state? name) := by
  intro session
  obtain ⟨settledHere, _⟩ := executeAll_applied (settled_start title keepGoing evaluate) past
  constructor
  · obtain ⟨_, passed, _, applied⟩ := executeAll_applied settledHere further
    exact applied.grows
  · intro tokens front back statement parsed before after
    have outer := Parse.ofTokens_outer parsed
    obtain ⟨settledBefore, _⟩ := runStmts_applied settledHere
      fun other member => outer other (List.mem_append_left _ member)
    have grows := runStmt_grows settledBefore (outer statement (by simp))
    exact ⟨grows, grows.advances⟩

/-- A definition of a function that takes one parameter. -/
def completingTokens : List Token :=
  (scan "def f(y) return y + 1 end").tokens

/-- The session in which that function is declared with another name for its parameter. -/
def declaring : Session :=
  (start "growth" false true).executeAll [.ofSource "growth" "extern f(x) f(1)"]

theorem executeAll_grows_completing :
    ∃ statement, (Parse.ofTokens completingTokens).result = .ok [statement] ∧
      declaring.table.state? "f" = some .declared ∧
      (declaring.runStmt statement).session.table.state? "f" = some .defined ∧
      declaring.table.Grows (declaring.runStmt statement).session.table := by
  have completed : ((Parse.ofTokens completingTokens).result.toOption.getD []).map
      (fun statement => (declaring.runStmt statement).session.table.state? "f") =
        [some .defined] := by decide +kernel
  cases parsed : (Parse.ofTokens completingTokens).result with
  | error error =>
      rw [parsed] at completed
      cases completed
  | ok statements =>
      rw [parsed] at completed
      obtain ⟨statement, rfl, defined⟩ := List.map_eq_singleton_iff.1 completed
      obtain ⟨_, boundaries⟩ := executeAll_grows "growth" false true
        [.ofSource "growth" "extern f(x) f(1)"] []
      exact ⟨statement, rfl, by decide +kernel, defined,
        (boundaries completingTokens [] [] statement parsed).1⟩

end Session
end ScalarScript
