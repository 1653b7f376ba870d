import ScalarScript.Lowering
import ScalarScript.Proofs.Citations
import ScalarScript.Proofs.Growth

/-!
# What lowering errors point to

Lowering makes up no places either.  An error of a statement points to a span in the statement
or to nothing at all, whatever the module and the scope are.  `Build.FailsOnly` says of a step of
lowering which errors it can end with; it is proved step by step along the tree.
-/

namespace ScalarScript
namespace Lowering

/-- The error points to a good span, if it points anywhere. -/
def PointsTo (good : Span → Prop) (error : LoweringError) : Prop :=
  ∀ span, error.span? = some span → good span

theorem pointsTo_of_span
    {good : Span → Prop}
    {error : LoweringError}
    {span : Span}
    (points : error.span? = some span)
    (isGood : good span) :
    PointsTo good error := by
  intro other pointsOther
  obtain rfl : span = other := Option.some.inj (points.symm.trans pointsOther)
  exact isGood

/-- All errors of the step are of the given sort. -/
def Build.FailsOnly {α : Type} (sort : LoweringError → Prop) (build : Build α) : Prop :=
  ∀ builder error final, build builder = .error error final → sort error

namespace Build.FailsOnly

variable {α β : Type} {sort : LoweringError → Prop}

/-- A step that always goes through has no errors. -/
theorem total
    {build : Build α}
    (goesThrough : ∀ builder, ∃ value final, build builder = .ok value final) :
    FailsOnly sort build := by
  intro builder error final failed
  obtain ⟨value, other, succeeded⟩ := goesThrough builder
  rw [succeeded] at failed
  cases failed

theorem pure (value : α) : FailsOnly sort (Pure.pure value : Build α) :=
  total fun _ => ⟨_, _, rfl⟩

theorem change (step : Code.Builder → α × Code.Builder) : FailsOnly sort (Lowering.change step) :=
  total fun _ => ⟨_, _, rfl⟩

theorem emit (op : Code.Op) : FailsOnly sort (Lowering.emit op) :=
  total fun _ => ⟨_, _, rfl⟩

theorem createBlock (hint : String) : FailsOnly sort (Lowering.createBlock hint) :=
  total fun _ => ⟨_, _, rfl⟩

theorem position (index : Nat) :
    FailsOnly sort (modify fun builder => builder.position index : Build Unit) :=
  total fun _ => ⟨_, _, rfl⟩

theorem throw
    {error : LoweringError}
    (allowed : sort error) :
    FailsOnly sort (MonadExcept.throw error : Build α) := by
  intro builder other final failed
  cases failed
  exact allowed

/-- Steps that fail for errors of one sort only do so together. -/
theorem bind
    {first : Build α}
    {next : α → Build β}
    (firstFails : FailsOnly sort first)
    (nextFails : ∀ value, FailsOnly sort (next value)) :
    FailsOnly sort (first >>= next) := by
  intro builder error final failed
  rcases (bind_eq_error_iff ..).1 failed with failed | ⟨value, middle, _, failed⟩
  · exact firstFails _ _ _ failed
  · exact nextFails value _ _ _ failed

end Build.FailsOnly

section

variable {good : Span → Prop} (table : Code.Module) (scope : Scope)

/-- An operation blames the place of its operator. -/
theorem binary_failsOnly
    (op : Token.Kind)
    (lhs rhs : Code.Operand)
    {span : Span}
    (isGood : good span) :
    Build.FailsOnly (PointsTo good) (binary op lhs rhs span) := by
  unfold binary
  split
  · exact .change _
  · exact .bind (.change _) fun flag => .change _
  · exact .throw (pointsTo_of_span rfl isGood)

mutual

/-- An expression blames places in it. -/
theorem lowerExpr_failsOnly
    {expr : Expr}
    (located : expr.Located good) :
    Build.FailsOnly (PointsTo good) (lowerExpr table scope expr) := by
  cases located with
  | num value isGood =>
      rw [lowerExpr]
      exact .pure _
  | var name isGood =>
      rw [lowerExpr]
      cases scope.lookup name with
      | some operand => exact .pure operand
      | none => exact .throw (pointsTo_of_span rfl isGood)
  | binary op left right isGood =>
      rw [lowerExpr]
      exact .bind (lowerExpr_failsOnly left) fun lhs =>
        .bind (lowerExpr_failsOnly right) fun rhs => binary_failsOnly op lhs rhs isGood
  | call callee args isGood =>
      rw [lowerExpr]
      cases table.find? callee with
      | none => exact .throw (pointsTo_of_span rfl isGood)
      | some target =>
          simp only
          split
          · exact .throw (pointsTo_of_span rfl isGood)
          · exact .bind (lowerArgs_failsOnly args) fun values => .change _

/-- Arguments blame places in them. -/
theorem lowerArgs_failsOnly
    {args : List Expr}
    (located : ∀ arg ∈ args, arg.Located good) :
    Build.FailsOnly (PointsTo good) (lowerArgs table scope args) := by
  cases args with
  | nil =>
      rw [lowerArgs]
      exact .pure _
  | cons arg args =>
      rw [lowerArgs]
      exact .bind (lowerExpr_failsOnly (located arg (.head _))) fun value =>
        .bind (lowerArgs_failsOnly fun other member => located other (.tail arg member))
          fun values => .pure _

end

/-- A return blames places in it. -/
theorem lowerReturn_failsOnly
    {value : Return}
    (located : value.Located good) :
    Build.FailsOnly (PointsTo good) (lowerReturn table scope value) := by
  unfold lowerReturn
  cases carries : value.value with
  | none => exact .emit _
  | some expr =>
      exact .bind (lowerExpr_failsOnly table scope (located.value expr carries)) fun operand =>
        .emit _

/-- Ending the last block adds no error. -/
theorem Build.FailsOnly.ending
    {sort : LoweringError → Prop}
    {build : Build Unit}
    (fails : Build.FailsOnly sort build)
    (op : Code.Op) :
    Build.FailsOnly sort (Lowering.ending build op) := by
  refine .bind fails fun _ => .bind (.total fun _ => ⟨_, _, rfl⟩) fun builder => ?_
  split
  · exact .pure ()
  · exact .emit op

/-- An arm of a branch fails as its body does. -/
theorem Build.FailsOnly.arm
    {sort : LoweringError → Prop}
    {build : Build Unit}
    (fails : Build.FailsOnly sort build)
    (index merge : Nat) :
    Build.FailsOnly sort (Lowering.arm index merge build) := by
  intro builder error final failed
  rw [arm_eq_ending] at failed
  exact fails.ending _ _ _ _ failed

/-- A branch fails as its condition or one of its arms does. -/
theorem Build.FailsOnly.conditional
    {sort : LoweringError → Prop}
    {condition : Build Code.Operand}
    (conditionFails : Build.FailsOnly sort condition)
    {thenArm : Build Unit}
    (thenFails : Build.FailsOnly sort thenArm)
    {elseArm : Option (Build Unit)}
    (elseFails : ∀ build, elseArm = some build → Build.FailsOnly sort build) :
    Build.FailsOnly sort (Lowering.conditional condition thenArm elseArm) := by
  refine .bind conditionFails fun value => .bind (.change _) fun flag =>
    .bind (.createBlock _) fun thenIndex => ?_
  cases elseArm with
  | none =>
      exact .bind (.createBlock _) fun merge => .bind (.emit _) fun _ =>
        .bind (thenFails.arm thenIndex merge) fun _ => .position merge
  | some other =>
      exact .bind (.createBlock _) fun elseIndex => .bind (.createBlock _) fun merge =>
        .bind (.emit _) fun _ => .bind (thenFails.arm thenIndex merge) fun _ =>
          .bind ((elseFails other rfl).arm elseIndex merge) fun _ => .position merge

mutual

/-- A statement of a body blames places in it. -/
theorem lowerBodyStmt_failsOnly
    {statement : Stmt}
    (located : statement.Located good) :
    Build.FailsOnly (PointsTo good) (lowerBodyStmt table scope statement) := by
  cases located with
  | prototype isGood =>
      rw [lowerBodyStmt]
      exact .throw nofun
  | function isGood body =>
      rw [lowerBodyStmt]
      exact .throw nofun
  | block body =>
      rw [lowerBodyStmt]
      exact lowerBlock_failsOnly body
  | ret value =>
      rw [lowerBodyStmt]
      exact lowerReturn_failsOnly table scope value
  | expression isGood body =>
      rw [lowerBodyStmt]
      exact .bind (lowerExpr_failsOnly table scope body) fun _ => .pure ()
  | @branch condition thenBlock elseIf elseBlock _ conditionLocated thenLocated elifLocated
      elseLocated isGood =>
      have conditionFails := lowerExpr_failsOnly table scope conditionLocated
      have thenFails := lowerBlock_failsOnly thenLocated
      cases elseIf with
      | some other =>
          rw [lowerBodyStmt]
          refine .conditional conditionFails thenFails ?_
          rintro _ ⟨⟩
          exact lowerBodyStmt_failsOnly (elifLocated other rfl)
      | none =>
          cases elseBlock with
          | some other =>
              rw [lowerBodyStmt]
              refine .conditional conditionFails thenFails ?_
              rintro _ ⟨⟩
              exact lowerBlock_failsOnly (elseLocated other rfl)
          | none =>
              rw [lowerBodyStmt]
              exact .conditional conditionFails thenFails nofun

/-- A block blames places in it. -/
theorem lowerBlock_failsOnly
    {block : Block}
    (located : block.Located good) :
    Build.FailsOnly (PointsTo good) (lowerBlock table scope block) := by
  cases located with
  | @mk statements tail statementsLocated tailLocated =>
      cases tail with
      | none =>
          rw [lowerBlock]
          exact .bind (lowerStmts_failsOnly statementsLocated) fun _ => .pure ()
      | some value =>
          rw [lowerBlock]
          exact .bind (lowerStmts_failsOnly statementsLocated) fun _ =>
            lowerReturn_failsOnly table scope (tailLocated value rfl)

/-- Statements blame places in them. -/
theorem lowerStmts_failsOnly
    {statements : List Stmt}
    (located : ∀ statement ∈ statements, statement.Located good) :
    Build.FailsOnly (PointsTo good) (lowerStmts table scope statements) := by
  cases statements with
  | nil =>
      rw [lowerStmts]
      exact .pure ()
  | cons statement statements =>
      rw [lowerStmts]
      exact .bind (lowerBodyStmt_failsOnly (located statement (.head _))) fun _ =>
        lowerStmts_failsOnly fun other member => located other (.tail statement member)

end

end

/-- Defining a function fails at its heading or inside of it. -/
theorem lowerFunction_pointsTo
    {good : Span → Prop}
    {proto : Prototype}
    (isGood : good proto.span)
    {source : Source}
    (fails : ∀ table scope, Build.FailsOnly (PointsTo good) (lowerSource table scope source))
    {table : Code.Module}
    {scope : Scope}
    {error : LoweringError}
    (failed : (lowerFunction proto source table scope).result = .error error) :
    PointsTo good error := by
  have defining : ∀ former, (defineFunction proto source table former).result = .error error →
      PointsTo good error := by
    intro former failed
    unfold defineFunction at failed
    cases built : lowerSource (announce table proto) (Scope.ofParams proto.name proto.params) source
        .opened with
    | error other builder =>
        simp only [built] at failed
        cases failed
        exact fails _ _ _ _ _ built
    | ok _ builder =>
        -- what is left can only fail in the verifier, which is reported at the heading
        simp only [built] at failed
        split at failed
        · cases failed
        · rename_i other rejected
          cases failed
          unfold verifyDefined at rejected
          split at rejected
          · cases rejected
          · split at rejected
            · cases rejected
            · cases rejected
              exact pointsTo_of_span rfl isGood
  unfold lowerFunction at failed
  split at failed
  · split at failed
    · cases failed
      exact pointsTo_of_span rfl isGood
    · split at failed
      · cases failed
        exact pointsTo_of_span rfl isGood
      · exact defining _ failed
  · exact defining _ failed

/-- An error of a statement points to a span in it, if it points anywhere. -/
theorem lowerStmt_pointsTo
    {good : Span → Prop}
    {statement : Stmt}
    (located : statement.Located good)
    {table : Code.Module}
    {scope : Scope}
    {error : LoweringError}
    (failed : (lowerStmt statement table scope).result = .error error) :
    PointsTo good error := by
  cases located with
  | @prototype proto isGood =>
      change (lowerPrototype proto table scope).result = _ at failed
      unfold lowerPrototype at failed
      split at failed
      · split at failed
        · cases failed
          exact pointsTo_of_span rfl isGood
        · cases failed
      · cases failed
  | @function proto body isGood bodyLocated =>
      change (lowerFunction proto (.block body) table scope).result = _ at failed
      refine lowerFunction_pointsTo isGood ?_ failed
      intro table scope
      exact (lowerBlock_failsOnly table scope bodyLocated).ending (.ret none)
  | @expression proto body isGood bodyLocated =>
      change (lowerFunction proto (.expr body) table scope).result = _ at failed
      refine lowerFunction_pointsTo isGood ?_ failed
      intro table scope
      exact .bind (lowerExpr_failsOnly table scope bodyLocated) fun _ => .emit _
  | block body =>
      cases failed
      exact nofun
  | ret value =>
      cases failed
      exact nofun
  | branch =>
      cases failed
      exact nofun

end Lowering
end ScalarScript
