import ScalarScript.Lowering.Body

/-!
# Straight-line code

Lowering an expression never looks at the builder, except to ask how many registers there
are.  So it can be described without one: given that number it yields a list of ops, each
of which writes the next register, and an operand or an error.  `lowerExpr_eq_build` says
that lowering adds exactly this code to whatever builder it is given.
-/

namespace ScalarScript

/-- An op together with the register that is made for its result. -/
structure Emission where
  hint : String
  type : Code.ValueType
  op : Code.Op

namespace Code
namespace Builder

/-- Makes the register of an emission and adds its op. -/
def add (builder : Builder) (emission : Emission) : Builder :=
  (builder.allocate emission.hint emission.type).2.emit emission.op

/-- Adds emissions in order. -/
def addAll (builder : Builder) (emissions : List Emission) : Builder :=
  emissions.foldl add builder

@[simp] theorem addAll_nil (builder : Builder) : builder.addAll [] = builder := rfl

@[simp] theorem addAll_cons
    (builder : Builder)
    (emission : Emission)
    (emissions : List Emission) :
    builder.addAll (emission :: emissions) = (builder.add emission).addAll emissions := rfl

theorem addAll_append
    (builder : Builder)
    (front back : List Emission) :
    builder.addAll (front ++ back) = (builder.addAll front).addAll back :=
  List.foldl_append

@[simp] theorem registers_push
    (builder : Builder)
    (index : Nat)
    (op : Op) :
    (builder.push index op).registers = builder.registers := by
  unfold push
  split <;> rfl

@[simp] theorem registers_emit
    (builder : Builder)
    (op : Op) :
    (builder.emit op).registers = builder.registers := by
  unfold emit
  split
  · exact registers_push ..
  · exact registers_push ..

/-- An emission declares one register, under a name that is fresh. -/
theorem registers_add
    (builder : Builder)
    (emission : Emission) :
    (builder.add emission).registers =
      builder.registers ++ [⟨builder.freshName emission.hint, emission.type⟩] := by
  simp [add, allocate]

theorem length_registers_addAll
    (builder : Builder)
    (emissions : List Emission) :
    (builder.addAll emissions).registers.length =
      builder.registers.length + emissions.length := by
  induction emissions generalizing builder with
  | nil => rfl
  | cons emission emissions inductionHypothesis =>
      rw [addAll_cons, inductionHypothesis, registers_add]
      simp only [List.length_append, List.length_cons, List.length_nil]
      omega

end Builder
end Code

namespace Lowering
namespace Build

/-- Two steps succeed together if both do, one after the other. -/
theorem bind_eq_ok_iff
    {α β : Type}
    (first : Build α)
    (next : α → Build β)
    (builder final : Code.Builder)
    (result : β) :
    (first >>= next) builder = .ok result final ↔
      ∃ value middle, first builder = .ok value middle ∧ next value middle = .ok result final := by
  change EStateM.bind first next builder = _ ↔ _
  unfold EStateM.bind
  cases first builder with
  | error error middle => simp
  | ok value middle => simp [and_assoc]

/-- Two steps fail together if the first fails, or the second behind it. -/
theorem bind_eq_error_iff
    {α β : Type}
    (first : Build α)
    (next : α → Build β)
    (builder final : Code.Builder)
    (error : LoweringError) :
    (first >>= next) builder = .error error final ↔
      first builder = .error error final ∨
        ∃ value middle, first builder = .ok value middle ∧
          next value middle = .error error final := by
  change EStateM.bind first next builder = _ ↔ _
  unfold EStateM.bind
  cases first builder with
  | error other middle => simp
  | ok value middle => simp [and_assoc]

end Build

/-- Code and what it was made for: a result, or the error that stopped it. -/
structure Snippet (α : Type) where
  emissions : List Emission
  result : Except LoweringError α

/-- Straight-line code that is laid out from a given register on. -/
def Straight (α : Type) : Type :=
  Nat → Snippet α

namespace Straight

instance : Monad Straight where
  pure value := fun _ => ⟨[], .ok value⟩
  bind first next := fun low =>
    match (first low).result with
    | .error error => ⟨(first low).emissions, .error error⟩
    | .ok value =>
        let others := next value (low + (first low).emissions.length)
        ⟨(first low).emissions ++ others.emissions, others.result⟩

/-- No code, because of an error. -/
def fail {α : Type} (error : LoweringError) : Straight α :=
  fun _ => ⟨[], .error error⟩

/-- One op, whose result is in the next register. -/
def emit (hint : String) (type : Code.ValueType) (op : Nat → Code.Op) :
    Straight Code.Operand :=
  fun low => ⟨[⟨hint, type, op low⟩], .ok (.reg low)⟩

/-- Adds straight-line code to a builder. -/
def build {α : Type} (straight : Straight α) : Build α := fun builder =>
  let snippet := straight builder.registers.length
  match snippet.result with
  | .ok value => .ok value (builder.addAll snippet.emissions)
  | .error error => .error error (builder.addAll snippet.emissions)

/-- Code laid out after other code is added after it. -/
theorem build_bind
    {α β : Type}
    (first : Straight α)
    (next : α → Straight β) :
    build (first >>= next) = build first >>= fun value => build (next value) := by
  funext builder
  change build (first >>= next) builder = EStateM.bind (build first) _ builder
  simp only [build, bind, EStateM.bind]
  cases (first builder.registers.length).result with
  | error error => rfl
  | ok value =>
      simp only [Code.Builder.length_registers_addAll, Code.Builder.addAll_append]

/-- A sequence succeeds when both parts do, the second laid out after the first. -/
theorem bind_eq_ok_iff
    {α β : Type}
    (first : Straight α)
    (next : α → Straight β)
    (low : Nat)
    (emissions : List Emission)
    (result : β) :
    (first >>= next) low = ⟨emissions, .ok result⟩ ↔
      ∃ front value back, first low = ⟨front, .ok value⟩ ∧
        next value (low + front.length) = ⟨back, .ok result⟩ ∧ emissions = front ++ back := by
  simp only [bind]
  obtain ⟨front, error | value⟩ := first low
  · simp
  · simp only
    cases laid : next value (low + front.length) with
    | mk back last =>
        constructor
        · intro same
          obtain ⟨rfl, rfl⟩ : front ++ back = emissions ∧ last = .ok result := by
            simpa using same
          exact ⟨front, value, back, rfl, laid, rfl⟩
        · rintro ⟨front', value', back', same, laid', rfl⟩
          obtain ⟨rfl, rfl⟩ : front = front' ∧ value = value' := by simpa using same
          obtain ⟨rfl, rfl⟩ : back = back' ∧ last = .ok result := by simpa [laid] using laid'
          rfl

/-- Straight-line code is built exactly by adding its emissions. -/
theorem build_eq_ok_iff
    {α : Type}
    (straight : Straight α)
    (builder final : Code.Builder)
    (value : α) :
    straight.build builder = .ok value final ↔
      ∃ emissions, straight builder.registers.length = ⟨emissions, .ok value⟩ ∧
        final = builder.addAll emissions := by
  unfold build
  obtain ⟨emissions, error | result⟩ := straight builder.registers.length
  · simp
  · simp only [EStateM.Result.ok.injEq, Snippet.mk.injEq, Except.ok.injEq]
    constructor
    · rintro ⟨rfl, rfl⟩
      exact ⟨emissions, ⟨rfl, rfl⟩, rfl⟩
    · rintro ⟨_, ⟨rfl, rfl⟩, rfl⟩
      exact ⟨rfl, rfl⟩

/-- Building fails only where the code itself does. -/
theorem build_eq_error
    {α : Type}
    {straight : Straight α}
    {builder final : Code.Builder}
    {error : LoweringError}
    (failed : straight.build builder = .error error final) :
    (straight builder.registers.length).result = .error error := by
  simp only [build] at failed
  cases ended : (straight builder.registers.length).result with
  | error other =>
      obtain ⟨rfl, _⟩ : other = error ∧ _ := by simpa [ended] using failed
      rfl
  | ok value => simp [ended] at failed

/-- All errors of the code are of the given sort, wherever it is laid out. -/
def FailsOnly {α : Type} (sort : LoweringError → Prop) (straight : Straight α) : Prop :=
  ∀ low error, (straight low).result = .error error → sort error

theorem FailsOnly.pure
    {α : Type}
    {sort : LoweringError → Prop}
    (value : α) :
    FailsOnly sort (pure value : Straight α) := by
  intro low error failed
  cases failed

theorem FailsOnly.emit
    {sort : LoweringError → Prop}
    (hint : String)
    (type : Code.ValueType)
    (op : Nat → Code.Op) :
    FailsOnly sort (Straight.emit hint type op) := by
  intro low error failed
  cases failed

theorem FailsOnly.fail
    {α : Type}
    {sort : LoweringError → Prop}
    {error : LoweringError}
    (allowed : sort error) :
    FailsOnly sort (Straight.fail error : Straight α) := by
  intro low other failed
  cases failed
  exact allowed

/-- Steps that fail for reasons of one sort only do so together. -/
theorem FailsOnly.bind
    {α β : Type}
    {sort : LoweringError → Prop}
    {first : Straight α}
    {next : α → Straight β}
    (firstFails : FailsOnly sort first)
    (nextFails : ∀ value, FailsOnly sort (next value)) :
    FailsOnly sort (first >>= next) := by
  intro low error failed
  simp only [Bind.bind] at failed
  cases ended : (first low).result with
  | error other =>
      obtain rfl : other = error := by simpa [ended] using failed
      exact firstFails low other ended
  | ok value =>
      simp only [ended] at failed
      exact nextFails value _ error failed

end Straight

/-- The code that applies an operator to two operands. -/
def binaryCode (op : Token.Kind) (lhs rhs : Code.Operand) (span : Span) :
    Straight Code.Operand :=
  match arith? op, predicate? op with
  | some arith, _ => .emit arith.hint .double fun dest => .arith arith dest lhs rhs
  | none, some predicate => do
      let flag ← Straight.emit "cmptmp" .bool fun dest => .compare dest predicate lhs rhs
      .emit "booltmp" .double fun dest => .widen dest flag
  | none, none => .fail (.invalidBinaryOperator op span)

mutual

/-- The code of an expression. -/
def exprCode (table : Code.Module) (scope : Scope) : Expr → Straight Code.Operand
  | .num value _ => pure (.const value)
  | .var name span =>
      match scope.lookup name with
      | some operand => pure operand
      | none => .fail (.unknownVariable name span)
  | .binary op left right span => do
      let lhs ← exprCode table scope left
      let rhs ← exprCode table scope right
      binaryCode op lhs rhs span
  | .call callee args span =>
      match table.find? callee with
      | none => .fail (.unknownFunction callee span)
      | some target =>
          if target.arity ≠ args.length then
            .fail (.argumentCount callee target.arity args.length span)
          else do
            let values ← argsCode table scope args
            .emit "calltmp" .double fun dest => .call dest callee values

/-- The code of arguments. -/
def argsCode (table : Code.Module) (scope : Scope) :
    List Expr → Straight (List Code.Operand)
  | [] => pure []
  | arg :: args => do
      let value ← exprCode table scope arg
      let values ← argsCode table scope args
      pure (value :: values)

end

/-- The code that decides a conditional: whether the condition is neither zero nor not a
number. -/
def conditionCode (table : Code.Module) (scope : Scope) (condition : Expr) :
    Straight Code.Operand := do
  let value ← exprCode table scope condition
  .emit "ifcond" .bool fun dest => .compare dest .one value (.const 0)

/-- Lowering an operation builds its straight-line code. -/
theorem binary_eq_build
    (op : Token.Kind)
    (lhs rhs : Code.Operand)
    (span : Span) :
    binary op lhs rhs span = (binaryCode op lhs rhs span).build := by
  unfold binary binaryCode
  cases arith? op with
  | some arith => rfl
  | none =>
      cases predicate? op with
      | some predicate =>
          simp only [Straight.build_bind]
          rfl
      | none => rfl

mutual

/-- Lowering an expression adds its code to the builder. -/
theorem lowerExpr_eq_build
    (table : Code.Module)
    (scope : Scope)
    (expr : Expr) :
    lowerExpr table scope expr = (exprCode table scope expr).build := by
  cases expr with
  | num value span =>
      rw [lowerExpr, exprCode]
      rfl
  | var name span =>
      rw [lowerExpr, exprCode]
      cases scope.lookup name <;> rfl
  | binary op left right span =>
      rw [lowerExpr, exprCode, Straight.build_bind, lowerExpr_eq_build table scope left]
      congr
      funext lhs
      rw [Straight.build_bind, lowerExpr_eq_build table scope right]
      congr
      funext rhs
      exact binary_eq_build op lhs rhs span
  | call callee args span =>
      rw [lowerExpr, exprCode]
      cases table.find? callee with
      | none => rfl
      | some target =>
          by_cases sameCount : target.arity = args.length
          · simp only [ne_eq, sameCount, not_true_eq_false, if_false, Straight.build_bind,
              lowerArgs_eq_build table scope args]
            rfl
          · simp only [ne_eq, sameCount, not_false_eq_true, if_true]
            rfl

/-- Lowering arguments builds their straight-line code. -/
theorem lowerArgs_eq_build
    (table : Code.Module)
    (scope : Scope)
    (args : List Expr) :
    lowerArgs table scope args = (argsCode table scope args).build := by
  cases args with
  | nil =>
      rw [lowerArgs, argsCode]
      rfl
  | cons arg args =>
      rw [lowerArgs, argsCode, Straight.build_bind, lowerExpr_eq_build table scope arg]
      congr
      funext value
      rw [Straight.build_bind, lowerArgs_eq_build table scope args]
      rfl

end

/-- A conditional adds the code of its condition, creates its blocks and branches; the
arms come after that. -/
theorem conditional_eq_build
    (table : Code.Module)
    (scope : Scope)
    (condition : Expr)
    (thenArm : Build Unit)
    (elseArm : Option (Build Unit)) :
    conditional (lowerExpr table scope condition) thenArm elseArm = (do
      let flag ← (conditionCode table scope condition).build
      let thenIndex ← createBlock "then"
      match elseArm with
      | none =>
          let merge ← createBlock "ifcont"
          emit (.branch flag thenIndex merge)
          arm thenIndex merge thenArm
          modify fun builder => builder.position merge
      | some elseArm =>
          let elseIndex ← createBlock "else"
          let merge ← createBlock "ifcont"
          emit (.branch flag thenIndex elseIndex)
          arm thenIndex merge thenArm
          arm elseIndex merge elseArm
          modify fun builder => builder.position merge) := by
  rw [conditional, conditionCode, Straight.build_bind, bind_assoc, lowerExpr_eq_build]
  rfl

/-! ## Errors -/

/-- The error says that a name or an operator in an expression has no meaning. -/
def IsUnresolved (error : LoweringError) : Prop :=
  error.kind = .unknownVariable ∨ error.kind = .unknownFunction ∨
    error.kind = .invalidBinaryOperator

/-- An operation fails only for what is unresolved. -/
theorem binaryCode_failsOnly
    (op : Token.Kind)
    (lhs rhs : Code.Operand)
    (span : Span) :
    (binaryCode op lhs rhs span).FailsOnly IsUnresolved := by
  unfold binaryCode
  cases arith? op with
  | some arith => exact .emit _ _ _
  | none =>
      cases predicate? op with
      | some predicate => exact .bind (.emit _ _ _) fun flag => .emit _ _ _
      | none => exact .fail (.inr (.inr rfl))

mutual

/-- An expression fails only for what is unresolved. -/
theorem exprCode_failsOnly
    (table : Code.Module)
    (scope : Scope)
    (expr : Expr) :
    (exprCode table scope expr).FailsOnly IsUnresolved := by
  cases expr with
  | num value span =>
      rw [exprCode]
      exact .pure _
  | var name span =>
      rw [exprCode]
      cases scope.lookup name with
      | some operand => exact .pure _
      | none => exact .fail (.inl rfl)
  | binary op left right span =>
      rw [exprCode]
      exact .bind (exprCode_failsOnly table scope left) fun lhs =>
        .bind (exprCode_failsOnly table scope right) fun rhs =>
          binaryCode_failsOnly op lhs rhs span
  | call callee args span =>
      rw [exprCode]
      cases table.find? callee with
      | none => exact .fail (.inr (.inl rfl))
      | some target =>
          by_cases sameCount : target.arity = args.length
          · simp only [ne_eq, sameCount, not_true_eq_false, if_false]
            exact .bind (argsCode_failsOnly table scope args) fun values => .emit _ _ _
          · simp only [ne_eq, sameCount, not_false_eq_true, if_true]
            exact .fail (.inr (.inl rfl))

/-- Arguments fail only for what is unresolved. -/
theorem argsCode_failsOnly
    (table : Code.Module)
    (scope : Scope)
    (args : List Expr) :
    (argsCode table scope args).FailsOnly IsUnresolved := by
  cases args with
  | nil =>
      rw [argsCode]
      exact .pure _
  | cons arg args =>
      rw [argsCode]
      exact .bind (exprCode_failsOnly table scope arg) fun value =>
        .bind (argsCode_failsOnly table scope args) fun values => .pure _

end

end Lowering
end ScalarScript
