import ScalarScript.Lowering
import ScalarScript.Proofs.Grammatical
import ScalarScript.Proofs.WellFormed

/-!
# What a statement does to the module

Lowering a statement announces a function, builds its body aside and takes everything back
when something fails.  Seen from outside only four things can come of it: nothing, a
declaration that was known, a new declaration, or a definition.  `Applied` lists them for
statements that went through; a statement that fails leaves the module as it was.
-/

namespace ScalarScript
namespace Lowering

open Code (Module)

/-- The function that a prototype declares. -/
def declaration (proto : Prototype) : Code.Function :=
  ⟨proto.name, proto.params, none⟩

/-- The function that a definition makes. -/
def definition (proto : Prototype) (body : Code.Body) : Code.Function :=
  ⟨proto.name, proto.params, some body⟩

@[simp] theorem name_declaration (proto : Prototype) :
    (declaration proto).name = proto.name := rfl

@[simp] theorem name_definition (proto : Prototype) (body : Code.Body) :
    (definition proto body).name = proto.name := rfl

/-- A function may be defined when nothing of its name is there, or a declaration with as
many parameters. -/
def Definable (table : Module) (proto : Prototype) : Prop :=
  ∀ former, table.find? proto.name = some former →
    former.body = none ∧ former.arity = proto.arity

theorem declare_eq_put
    {table : Module}
    {proto : Prototype}
    (absent : table.find? proto.name = none) :
    table.declare proto.name proto.params = table.put (declaration proto) := by
  simp [Module.declare, Module.put, declaration, absent]

/-- Announcing a function writes its declaration. -/
theorem announce_eq_put
    {table : Module}
    {proto : Prototype}
    (definable : Definable table proto) :
    announce table proto = table.put (declaration proto) := by
  unfold announce Module.setParams
  cases found : table.find? proto.name with
  | none =>
      rw [declare_eq_put found]
      have present : (table.put (declaration proto)).find? proto.name =
          some (declaration proto) := by simp [declaration]
      rw [Module.modify_eq_put present _ rfl]
      exact table.put_put rfl
  | some former =>
      have unchanged : table.declare proto.name proto.params = table := by
        simp [Module.declare, found]
      have sameName : former.name = proto.name := Module.name_of_find? found
      rw [unchanged, Module.modify_eq_put found _ sameName]
      obtain ⟨name, params, body⟩ := former
      obtain rfl : name = proto.name := sameName
      obtain rfl : body = none := (definable _ found).1
      rfl

/-- The announced function takes a body. -/
theorem define?_announced
    (table : Module)
    (proto : Prototype)
    (body : Code.Body) :
    (table.put (declaration proto)).define? proto.name body =
      some (table.put (definition proto body)) := by
  have present : (table.put (declaration proto)).find? proto.name =
      some (declaration proto) := by simp [declaration]
  unfold Module.define?
  rw [present]
  have undefined : (declaration proto).isDefined = false := rfl
  simp only [undefined, Bool.false_eq_true, if_false]
  rw [Module.modify_eq_put present _ rfl]
  exact congrArg some (table.put_put rfl)

/-- Taking back what was written under the name of a definable function restores the
table. -/
theorem rollBack_put
    {table : Module}
    {proto : Prototype}
    (definable : Definable table proto)
    (written : Code.Function)
    (sameName : written.name = proto.name) :
    rollBack (table.put written) proto.name (table.find? proto.name) = table := by
  unfold rollBack
  have present : (table.put written).find? proto.name = some written := by simp [sameName]
  cases found : table.find? proto.name with
  | none =>
      rw [← sameName] at found ⊢
      exact table.erase_put_of_absent found
  | some former =>
      have discarded : (table.put written).discard proto.name =
          table.put { written with body := none } := by
        rw [Module.discard, Module.modify_eq_put present _ sameName]
        exact table.put_put rfl
      have presentAgain : (table.put { written with body := none }).find? proto.name =
          some { written with body := none } := by simp [sameName]
      simp only [discarded, Module.setParams]
      rw [Module.modify_eq_put presentAgain _ sameName]
      have restored : ({ written with params := former.params, body := none } : Code.Function) =
          former := by
        obtain ⟨name, params, body⟩ := former
        obtain rfl : name = proto.name := Module.name_of_find? found
        obtain rfl : body = none := (definable _ found).1
        rw [sameName]
      calc (table.put { written with body := none }).put
              { written with params := former.params, body := none }
          = table.put { written with params := former.params, body := none } :=
            table.put_put rfl
        _ = table.put former := by rw [restored]
        _ = table := Module.put_self found

theorem verifyDefined_definition
    (table : Module)
    (proto : Prototype)
    (body : Code.Body) :
    verifyDefined (table.put (definition proto body)) proto =
      match (table.put (definition proto body)).verifyFunction (definition proto body) with
      | .ok _ => .ok ()
      | .error error => .error (.verification error proto.span) := by
  have present : (table.put (definition proto body)).find? proto.name =
      some (definition proto body) := by simp [definition]
  unfold verifyDefined
  cases checked : (table.put (definition proto body)).verifyFunction (definition proto body) with
  | ok _ => simp only [present, checked]
  | error error => simp only [present, checked]

/-! ## Definitions -/

/-- The attempt to build the body of a function, inside the table that declares it. -/
def buildBody (table : Module) (proto : Prototype) (source : Source) :
    EStateM.Result LoweringError Code.Builder Unit :=
  lowerSource (table.put (declaration proto)) (Scope.ofParams proto.name proto.params)
    source .opened

/-- What can come of defining a function, with the table that is left. -/
inductive Definition
    (table : Module)
    (proto : Prototype)
    (source : Source) :
    Except LoweringError String → Module → Prop where
  | redefined {former : Code.Function}
      (found : table.find? proto.name = some former)
      (isDefined : former.isDefined = true) :
      Definition table proto source
        (.error (.functionRedefinition proto.name proto.span)) table
  | mismatched {former : Code.Function}
      (found : table.find? proto.name = some former)
      (differs : former.arity ≠ proto.arity) :
      Definition table proto source
        (.error (.signatureMismatch proto.name former.arity proto.arity proto.span)) table
  | unbuilt {error : LoweringError} {builder : Code.Builder}
      (definable : Definable table proto)
      (stopped : buildBody table proto source = .error error builder) :
      Definition table proto source (.error error) table
  | rejected {error : Code.VerifyError} {builder : Code.Builder}
      (definable : Definable table proto)
      (built : buildBody table proto source = .ok () builder)
      (defect : (table.put (definition proto builder.body)).verifyFunction
        (definition proto builder.body) = .error error) :
      Definition table proto source (.error (.verification error proto.span)) table
  | made {builder : Code.Builder}
      (definable : Definable table proto)
      (built : buildBody table proto source = .ok () builder)
      (verified : (table.put (definition proto builder.body)).verifyFunction
        (definition proto builder.body) = .ok ()) :
      Definition table proto source (.ok proto.name)
        (table.put (definition proto builder.body))

theorem defineFunction_definition
    {table : Module}
    {proto : Prototype}
    (definable : Definable table proto)
    (source : Source) :
    Definition table proto source
      (defineFunction proto source table (table.find? proto.name)).result
      (defineFunction proto source table (table.find? proto.name)).table := by
  unfold defineFunction
  simp only [announce_eq_put definable]
  cases built : lowerSource (table.put (declaration proto))
      (Scope.ofParams proto.name proto.params) source .opened with
  | error error builder =>
      simp only [rollBack_put definable (declaration proto) rfl]
      exact .unbuilt definable built
  | ok _ builder =>
      simp only [define?_announced table proto builder.body, Option.getD_some,
        verifyDefined_definition]
      cases checked : (table.put (definition proto builder.body)).verifyFunction
          (definition proto builder.body) with
      | error error =>
          simp only [rollBack_put definable (definition proto builder.body) rfl]
          exact .rejected definable built checked
      | ok _ => exact .made definable built checked

theorem lowerFunction_definition
    (table : Module)
    (proto : Prototype)
    (source : Source)
    (scope : Scope) :
    Definition table proto source (lowerFunction proto source table scope).result
      (lowerFunction proto source table scope).table := by
  unfold lowerFunction
  cases found : table.find? proto.name with
  | none =>
      have definable : Definable table proto := by simp [Definable, found]
      have defined := defineFunction_definition definable source
      rwa [found] at defined
  | some former =>
      by_cases isDefined : former.isDefined = true
      · simp only [isDefined, if_true]
        exact .redefined found isDefined
      · by_cases sameArity : former.arity = proto.arity
        · have definable : Definable table proto := by
            intro other otherFound
            obtain rfl : former = other := by simpa [found] using otherFound
            exact ⟨by simpa [Code.Function.isDefined] using isDefined, sameArity⟩
          have defined := defineFunction_definition definable source
          rw [found] at defined
          simpa [isDefined, sameArity] using defined
        · simp only [isDefined, Bool.false_eq_true, if_false, ne_eq, sameArity,
            not_false_eq_true, if_true]
          exact .mismatched found sameArity

/-- A definition leaves the scope as it was or empties it. -/
theorem lowerFunction_scope
    (proto : Prototype)
    (source : Source)
    (table : Module)
    (scope : Scope) :
    (lowerFunction proto source table scope).scope = scope ∨
      (lowerFunction proto source table scope).scope = .empty := by
  have emptied : ∀ former, (defineFunction proto source table former).scope = .empty := by
    intro former
    unfold defineFunction
    dsimp only
    split
    · rfl
    · split <;> rfl
  unfold lowerFunction
  split
  · split
    · exact .inl rfl
    · split
      · exact .inl rfl
      · exact .inr (emptied _)
  · exact .inr (emptied _)

/-- A definition that went through made the function. -/
theorem Definition.ok
    {table final : Module}
    {proto : Prototype}
    {source : Source}
    {name : String}
    (came : Definition table proto source (.ok name) final) :
    name = proto.name ∧ ∃ builder : Code.Builder,
      Definable table proto ∧ buildBody table proto source = .ok () builder ∧
        (table.put (definition proto builder.body)).verifyFunction
          (definition proto builder.body) = .ok () ∧
        final = table.put (definition proto builder.body) := by
  cases came with
  | made definable built verified => exact ⟨rfl, _, definable, built, verified, rfl⟩

/-- A definition that failed left no trace. -/
theorem Definition.error
    {table final : Module}
    {proto : Prototype}
    {source : Source}
    {error : LoweringError}
    (came : Definition table proto source (.error error) final) :
    final = table := by
  cases came <;> rfl

/-! ## Statements -/

/-- What a statement does to the table when it goes through.  The function of an
expression is dropped at once, so an expression does nothing. -/
inductive Applied : Stmt → Module → Module → Prop where
  | known {table : Module} {proto : Prototype} {former : Code.Function}
      (found : table.find? proto.name = some former)
      (sameArity : former.arity = proto.arity) :
      Applied (.prototype proto) table table
  | declared {table : Module} {proto : Prototype}
      (absent : table.find? proto.name = none) :
      Applied (.prototype proto) table (table.put (declaration proto))
  | defined {table : Module} {proto : Prototype} {body : Block} {builder : Code.Builder}
      (definable : Definable table proto)
      (built : buildBody table proto (.block body) = .ok () builder)
      (verified : (table.put (definition proto builder.body)).verifyFunction
        (definition proto builder.body) = .ok ()) :
      Applied (.function proto body) table (table.put (definition proto builder.body))
  | evaluated {table : Module} {proto : Prototype} {body : Expr} {builder : Code.Builder}
      (built : buildBody table proto (.expr body) = .ok () builder) :
      Applied (.expression proto body) table table

/-- Statements that go through one after the other. -/
inductive AppliedAll : List Stmt → Module → Module → Prop where
  | nil (table : Module) : AppliedAll [] table table
  | cons {statement : Stmt} {statements : List Stmt} {table middle final : Module}
      (first : Applied statement table middle)
      (others : AppliedAll statements middle final) :
      AppliedAll (statement :: statements) table final

theorem lowerPrototype_error
    {proto : Prototype}
    {table : Module}
    {scope : Scope}
    {error : LoweringError}
    (failed : (lowerPrototype proto table scope).result = .error error) :
    (lowerPrototype proto table scope).table = table := by
  unfold lowerPrototype at failed ⊢
  split
  · split <;> rfl
  · simp_all

theorem lowerPrototype_ok
    {proto : Prototype}
    {table : Module}
    {scope : Scope}
    {name : String}
    (succeeded : (lowerPrototype proto table scope).result = .ok name) :
    name = proto.name ∧
      Applied (.prototype proto) table (lowerPrototype proto table scope).table := by
  unfold lowerPrototype at succeeded ⊢
  cases found : table.find? proto.name with
  | none =>
      simp only [found, Except.ok.injEq] at succeeded
      simp only [declare_eq_put found]
      exact ⟨succeeded.symm, .declared found⟩
  | some former =>
      by_cases sameArity : former.arity = proto.arity
      · simp only [found, sameArity, ne_eq, not_true_eq_false, if_false,
          Except.ok.injEq] at succeeded ⊢
        exact ⟨succeeded.symm, .known found sameArity⟩
      · simp [found, sameArity] at succeeded

/-- A statement that fails leaves the table as it was. -/
theorem lowerStmt_error
    {table : Module}
    {statement : Stmt}
    {scope : Scope}
    {error : LoweringError}
    (failed : (lowerStmt statement table scope).result = .error error) :
    (lowerStmt statement table scope).table = table := by
  cases statement with
  | prototype proto => exact lowerPrototype_error failed
  | function proto body =>
      have came := lowerFunction_definition table proto (.block body) scope
      change (lowerFunction proto (.block body) table scope).result = _ at failed
      rw [failed] at came
      exact came.error
  | expression proto body =>
      have came := lowerFunction_definition table proto (.expr body) scope
      change (lowerFunction proto (.expr body) table scope).result = _ at failed
      rw [failed] at came
      exact came.error
  | block body => rfl
  | ret value => rfl
  | branch condition thenBlock elseIf elseBlock span => rfl

/-- The prototype at the head of a statement. -/
def heading? : Stmt → Option Prototype
  | .prototype proto => some proto
  | .function proto _ => some proto
  | .expression proto _ => some proto
  | _ => none

/-- A statement that goes through yields the name in its heading. -/
theorem lowerStmt_name
    {table : Module}
    {statement : Stmt}
    {scope : Scope}
    {name : String}
    (succeeded : (lowerStmt statement table scope).result = .ok name) :
    (heading? statement).map Prototype.name = some name := by
  have ofDefinition : ∀ proto source,
      (lowerFunction proto source table scope).result = .ok name → proto.name = name := by
    intro proto source defined
    have came := lowerFunction_definition table proto source scope
    rw [defined] at came
    exact came.ok.1.symm
  cases statement with
  | prototype proto => exact congrArg some (lowerPrototype_ok succeeded).1.symm
  | function proto body => exact congrArg some (ofDefinition proto _ succeeded)
  | expression proto body => exact congrArg some (ofDefinition proto _ succeeded)
  | block body => cases succeeded
  | ret value => cases succeeded
  | branch condition thenBlock elseIf elseBlock span => cases succeeded

theorem lowerStmt_scope
    (statement : Stmt)
    (table : Module)
    (scope : Scope) :
    (lowerStmt statement table scope).scope = scope ∨
      (lowerStmt statement table scope).scope = .empty := by
  cases statement with
  | prototype proto =>
      change (lowerPrototype proto table scope).scope = scope ∨ _
      unfold lowerPrototype
      split
      · split <;> exact .inl rfl
      · exact .inl rfl
  | function proto body => exact lowerFunction_scope proto (.block body) table scope
  | expression proto body => exact lowerFunction_scope proto (.expr body) table scope
  | block body => exact .inl rfl
  | ret value => exact .inl rfl
  | branch condition thenBlock elseIf elseBlock span => exact .inl rfl

/-- The table that a statement leaves behind: the function of an expression is dropped. -/
def settled (name : String) (table : Module) : Module :=
  if name = Prototype.anonymousName then table.erase name else table

/-- A statement of a program that goes through does what `Applied` says. -/
theorem lowerStmt_ok
    {table : Module}
    (noAnonymous : table.find? Prototype.anonymousName = none)
    {statement : Stmt}
    (outer : statement.Outer)
    {scope : Scope}
    {name : String}
    (succeeded : (lowerStmt statement table scope).result = .ok name) :
    Applied statement table (settled name (lowerStmt statement table scope).table) := by
  cases outer with
  | @prototype proto named =>
      obtain ⟨rfl, applied⟩ := lowerPrototype_ok succeeded
      rw [settled, if_neg named]
      exact applied
  | @function proto body named grammatical =>
      have came := lowerFunction_definition table proto (.block body) scope
      change (lowerFunction proto (.block body) table scope).result = _ at succeeded
      rw [succeeded] at came
      obtain ⟨rfl, builder, definable, built, verified, made⟩ := came.ok
      change Applied _ _ (settled _ (lowerFunction proto (.block body) table scope).table)
      rw [settled, if_neg named, made]
      exact .defined definable built verified
  | @expression proto body anonymous grammatical =>
      have came := lowerFunction_definition table proto (.expr body) scope
      change (lowerFunction proto (.expr body) table scope).result = _ at succeeded
      rw [succeeded] at came
      obtain ⟨rfl, builder, definable, built, verified, made⟩ := came.ok
      change Applied _ _ (settled _ (lowerFunction proto (.expr body) table scope).table)
      have absent : table.find? (definition proto builder.body).name = none := by
        simpa [definition, anonymous.1] using noAnonymous
      have dropped := table.erase_put_of_absent absent
      rw [settled, if_pos anonymous.1, made]
      change Applied _ _ ((table.put (definition proto builder.body)).erase
        (definition proto builder.body).name)
      rw [dropped]
      exact .evaluated built

/-! ## What statements keep -/

/-- The invariant of tables between statements: names are distinct, the name of top-level
expressions is free, and no function has a defect. -/
structure Sound (table : Module) : Prop where
  distinct : table.Distinct
  noAnonymous : table.find? Prototype.anonymousName = none
  verified : table.verify = .ok ()

theorem Sound.empty (name : String) : Sound (.empty name) where
  distinct := List.nodup_nil
  noAnonymous := rfl
  verified := rfl

/-- A function that takes the place of one with as many parameters, and that has no defect
itself, puts no defect into the table. -/
theorem Sound.put
    {table : Module}
    (sound : Sound table)
    {function : Code.Function}
    (named : function.name ≠ Prototype.anonymousName)
    (agrees : ∀ former, table.find? function.name = some former →
      former.arity = function.arity)
    (verified : (table.put function).verifyFunction function = .ok ()) :
    Sound (table.put function) where
  distinct := sound.distinct.put function
  noAnonymous := by simpa [named.symm] using sound.noAnonymous
  verified := by
    have keeps := Module.KeepsArities.put table function agrees
    have distinct := sound.distinct.put function
    rw [Module.verify_eq_ok_iff]
    intro other member
    have found := distinct.find?_of_mem member
    rw [Module.find?_put] at found
    split at found
    · obtain rfl : function = other := by simpa using found
      exact verified
    · have before := (Module.verify_eq_ok_iff table).1 sound.verified other
        (Module.mem_of_find? found)
      exact Module.verifyFunction_mono keeps before

theorem Applied.sound
    {statement : Stmt}
    {table final : Module}
    (applied : Applied statement table final)
    (outer : statement.Outer)
    (sound : Sound table) :
    Sound final := by
  cases applied with
  | known found sameArity => exact sound
  | evaluated built => exact sound
  | declared absent =>
      cases outer with
      | prototype named =>
          refine sound.put named ?_ rfl
          intro former found
          simp [declaration, absent] at found
  | defined definable built verified =>
      cases outer with
      | function named grammatical =>
          exact sound.put named (fun former found => (definable former found).2) verified

theorem AppliedAll.sound
    {statements : List Stmt}
    {table final : Module}
    (applied : AppliedAll statements table final)
    (outer : ∀ statement ∈ statements, statement.Outer)
    (sound : Sound table) :
    Sound final := by
  induction applied with
  | nil table => exact sound
  | cons first others inductionHypothesis =>
      refine inductionHypothesis (fun statement member => outer statement (.tail _ member)) ?_
      exact first.sound (outer _ (.head _)) sound

theorem AppliedAll.append
    {front back : List Stmt}
    {table middle final : Module}
    (first : AppliedAll front table middle)
    (second : AppliedAll back middle final) :
    AppliedAll (front ++ back) table final := by
  induction first with
  | nil table => exact second
  | cons head others inductionHypothesis => exact .cons head (inductionHypothesis second)

/-- A function whose body was built for its definition. -/
def Built (function : Code.Function) : Prop :=
  ∃ table proto body builder, buildBody table proto (.block body) = .ok () builder ∧
    function = definition proto builder.body

/-- A function with a body was there before the statement or was built for it. -/
theorem Applied.built
    {statement : Stmt}
    {table final : Module}
    (applied : Applied statement table final)
    {name : String}
    {function : Code.Function}
    (found : final.find? name = some function)
    {body : Code.Body}
    (code : function.body = some body) :
    table.find? name = some function ∨ Built function := by
  cases applied with
  | known => exact .inl found
  | evaluated => exact .inl found
  | declared absent =>
      rw [Code.Module.find?_put] at found
      split at found
      · cases found
        cases code
      · exact .inl found
  | defined definable built verified =>
      rw [Code.Module.find?_put] at found
      split at found
      · cases found
        exact .inr ⟨_, _, _, _, built, rfl⟩
      · exact .inl found

theorem AppliedAll.built
    {statements : List Stmt}
    {table final : Module}
    (applied : AppliedAll statements table final)
    {name : String}
    {function : Code.Function}
    (found : final.find? name = some function)
    {body : Code.Body}
    (code : function.body = some body) :
    table.find? name = some function ∨ Built function := by
  induction applied with
  | nil table => exact .inl found
  | cons first others inductionHypothesis =>
      rcases inductionHypothesis found with before | built
      · exact first.built before code
      · exact .inr built

/-- A program that goes through is the application of its statements. -/
theorem lowerInto_applied
    {statements : List Stmt}
    (outer : ∀ statement ∈ statements, statement.Outer)
    {table final : Module}
    (sound : Sound table)
    {scope : Scope}
    (succeeded : (lowerInto table scope statements).result = .ok final) :
    AppliedAll statements table final := by
  induction statements generalizing table scope with
  | nil =>
      obtain rfl : table = final := by simpa [lowerInto] using succeeded
      exact .nil table
  | cons statement statements inductionHypothesis =>
      have outerHere := outer statement (.head _)
      have outerRest := fun other member => outer other (.tail statement member)
      rw [lowerInto] at succeeded
      cases lowered : (lowerStmt statement table scope).result with
      | error error => simp [lowered] at succeeded
      | ok name =>
          have applied := lowerStmt_ok sound.noAnonymous outerHere lowered
          have soundNext := applied.sound outerHere sound
          have continued : (lowerInto (settled name (lowerStmt statement table scope).table)
              (lowerStmt statement table scope).scope statements).result = .ok final := by
            simp only [lowered] at succeeded
            unfold settled
            split
            · rename_i anonymous
              simpa only [anonymous, if_true] using succeeded
            · rename_i named
              simpa only [named, if_false] using succeeded
          exact .cons applied (inductionHypothesis outerRest soundNext continued)

/-! ## Failed statements -/

/-- What a statement does to the table does not depend on the scope outside of functions. -/
theorem lowerStmt_any_scope
    (statement : Stmt)
    (table : Module)
    (scope other : Scope) :
    (lowerStmt statement table scope).result = (lowerStmt statement table other).result ∧
      (lowerStmt statement table scope).table = (lowerStmt statement table other).table := by
  have ofDefinition : ∀ proto source,
      (lowerFunction proto source table scope).result =
          (lowerFunction proto source table other).result ∧
        (lowerFunction proto source table scope).table =
          (lowerFunction proto source table other).table := by
    intro proto source
    unfold lowerFunction
    split
    · split
      · exact ⟨rfl, rfl⟩
      · split
        · exact ⟨rfl, rfl⟩
        · exact ⟨rfl, rfl⟩
    · exact ⟨rfl, rfl⟩
  cases statement with
  | prototype proto =>
      unfold lowerStmt lowerPrototype
      dsimp only
      split
      · split
        · exact ⟨rfl, rfl⟩
        · exact ⟨rfl, rfl⟩
      · exact ⟨rfl, rfl⟩
  | function proto body => exact ofDefinition proto (.block body)
  | expression proto body => exact ofDefinition proto (.expr body)
  | block body => exact ⟨rfl, rfl⟩
  | ret value => exact ⟨rfl, rfl⟩
  | branch condition thenBlock elseIf elseBlock span => exact ⟨rfl, rfl⟩

/-- A statement that fails, for whatever reason and whatever tree it is, leaves the module as
it was, and the next statement does what it would have done without it. -/
theorem lowerStmt_atomic
    {table : Module}
    {statement : Stmt}
    {scope : Scope}
    {error : LoweringError}
    (failed : (lowerStmt statement table scope).result = .error error) :
    (lowerStmt statement table scope).table = table ∧
      ∀ next,
        (lowerStmt next (lowerStmt statement table scope).table
            (lowerStmt statement table scope).scope).result =
          (lowerStmt next table scope).result ∧
        (lowerStmt next (lowerStmt statement table scope).table
            (lowerStmt statement table scope).scope).table =
          (lowerStmt next table scope).table := by
  have unchanged := lowerStmt_error failed
  refine ⟨unchanged, fun next => ?_⟩
  rw [unchanged]
  exact lowerStmt_any_scope next table _ scope

/-- A module with a definition between two declarations. -/
def workbench : Module :=
  ⟨"m", [⟨"f", ["p"], none⟩, ⟨"g", ["a"], some ⟨[⟨"entry", [.ret (some (.arg 0))]⟩], []⟩⟩,
    ⟨"h", [], none⟩]⟩

/-- A definition of the first function, under another parameter, with the given statements. -/
def redoing (statements : List Stmt) : Stmt :=
  .function ⟨"f", ["x"], .zero, List.nodup_singleton "x"⟩ (.mk statements none)

/-- Definitions that fail: for an expression after a return, for a definition inside, for an
operator that is none, and for a prototype in place of another arm. -/
def failing : List Stmt :=
  let use : Expr := .var "x" .zero
  let inner : Prototype := ⟨"k", [], .zero, List.nodup_nil⟩
  [redoing [.ret ⟨some use, .zero⟩, .ofExpr (.binary .plus use use .zero)],
    redoing [.ofExpr use, .function inner (.mk [] none)],
    redoing [.ofExpr (.binary .plus use use .zero), .ofExpr (.binary .equal use use .zero)],
    redoing [.branch use (.mk [] none) (some (.prototype inner)) none .zero]]

theorem failing_atomic :
    (failing.map fun statement =>
        (lowerStmt statement workbench .empty).result.mapError LoweringError.kind) =
      [.error .verification, .error .misplacedStatement, .error .invalidBinaryOperator,
        .error .misplacedStatement] ∧
      ∀ statement ∈ failing, (lowerStmt statement workbench .empty).table = workbench := by
  have fails : ∀ statement ∈ failing,
      (lowerStmt statement workbench .empty).result.toBool = false := by decide +kernel
  refine ⟨by decide +kernel, fun statement member => ?_⟩
  cases failed : (lowerStmt statement workbench .empty).result with
  | ok name =>
      have stopped := fails statement member
      rw [failed] at stopped
      cases stopped
  | error error => exact (lowerStmt_atomic failed).1

end Lowering
end ScalarScript
