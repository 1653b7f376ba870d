import ScalarScript.Proofs.Straight
import ScalarScript.Proofs.WellFormed

/-!
# The order of ops

In the code of an expression the ops write consecutive registers, and each op reads only
constants, what the scope binds and registers that ops before it have written, with the
type that it expects.  This holds of code that is complete and of code that an error cut
short, and whatever the scope binds.  In a scope that binds names to arguments, as those of
functions do, all registers that are read were written before.
-/

namespace ScalarScript
namespace Code

/-- What an op reads is there after the given ops: constants and arguments are numbers, and
a register was written by one of the ops with the expected type. -/
def Available (front : List Op) (read : Operand × ValueType) : Prop :=
  match read.1 with
  | .const _ => read.2 = .double
  | .arg _ => read.2 = .double
  | .reg index => ∃ op ∈ front, op.result? = some (index, read.2)

/-- What is available stays so when more instructions come before. -/
theorem Available.mono
    {front larger : List Op}
    {read : Operand × ValueType}
    (available : Available front read)
    (subset : ∀ op ∈ front, op ∈ larger) :
    Available larger read := by
  obtain ⟨operand, type⟩ := read
  cases operand with
  | const value => exact available
  | arg index => exact available
  | reg index =>
      obtain ⟨op, member, writes⟩ := available
      exact ⟨op, subset op member, writes⟩

/-- The operand is no register from the given one on. -/
def Operand.Below (bound : Nat) : Operand → Prop
  | .const _ => True
  | .arg _ => True
  | .reg index => index < bound

/-- The operand is a constant or an argument. -/
def Operand.IsGiven : Operand → Prop
  | .const _ => True
  | .arg _ => True
  | .reg _ => False

theorem Operand.IsGiven.available
    {operand : Operand}
    (given : operand.IsGiven)
    (front : List Op) :
    Available front (operand, .double) := by
  cases operand with
  | const value => rfl
  | arg index => rfl
  | reg index => exact given.elim

end Code

/-- The scope binds names to constants and arguments only. -/
def Scope.BindsGiven (scope : Scope) : Prop :=
  ∀ name operand, scope.lookup name = some operand → operand.IsGiven

/-- What code in the scope may read after the given ops: constants, operands for which a name
stands, which are taken for numbers, and registers that the ops have written. -/
inductive Scope.Supplies
    (scope : Scope)
    (front : List Code.Op) : Code.Operand × Code.ValueType → Prop where
  | const (value : Float) : Supplies scope front (.const value, .double)
  | bound {name : String} {operand : Code.Operand} (found : scope.lookup name = some operand) :
      Supplies scope front (operand, .double)
  | written {op : Code.Op} {index : Nat} {type : Code.ValueType} (member : op ∈ front)
      (writes : op.result? = some (index, type)) : Supplies scope front (.reg index, type)

/-- What is supplied stays so when more instructions come before. -/
theorem Scope.Supplies.append
    {scope : Scope}
    {front : List Code.Op}
    {read : Code.Operand × Code.ValueType}
    (supplies : scope.Supplies front read)
    (back : List Code.Op) :
    scope.Supplies (front ++ back) read := by
  cases supplies with
  | const value => exact .const value
  | bound found => exact .bound found
  | written member writes => exact .written (List.mem_append_left back member) writes

/-- What a scope of given operands supplies is available. -/
theorem Scope.Supplies.available
    {scope : Scope}
    (given : scope.BindsGiven)
    {front : List Code.Op}
    {read : Code.Operand × Code.ValueType}
    (supplies : scope.Supplies front read) :
    Code.Available front read := by
  cases supplies with
  | const value => rfl
  | bound found => exact (given _ _ found).available front
  | written member writes => exact ⟨_, member, writes⟩

namespace Lowering

open Code (Available Op)

/-- The ops of emissions. -/
def opsOf (emissions : List Emission) : List Op :=
  emissions.map Emission.op

theorem opsOf_cons
    (emission : Emission)
    (emissions : List Emission) :
    opsOf (emission :: emissions) = emission.op :: opsOf emissions := rfl

@[simp] theorem opsOf_append
    (front back : List Emission) :
    opsOf (front ++ back) = opsOf front ++ opsOf back :=
  List.map_append

/-- The emissions write consecutive registers from `low` on, and each reads only what is
there after the ops before it. -/
def Laid (low : Nat) (front : List Op) : List Emission → Prop
  | [] => True
  | emission :: emissions =>
      emission.op.result? = some (low, emission.type) ∧
        (∀ read ∈ emission.op.reads, Available front read) ∧
          Laid (low + 1) (front ++ [emission.op]) emissions

/-- Laid code writes only registers in its own range. -/
theorem Laid.dest_lt
    {low : Nat}
    {front : List Op}
    {emissions : List Emission}
    (laid : Laid low front emissions)
    {op : Op}
    (member : op ∈ opsOf emissions)
    {index : Nat}
    {type : Code.ValueType}
    (writes : op.result? = some (index, type)) :
    low ≤ index ∧ index < low + emissions.length := by
  induction emissions generalizing low front with
  | nil => simp [opsOf] at member
  | cons emission emissions inductionHypothesis =>
      obtain ⟨here, _, others⟩ := laid
      rcases List.mem_cons.1 member with rfl | later
      · obtain ⟨rfl, _⟩ : low = index ∧ _ := by simpa [here] using writes
        simp
      · have bounds := inductionHypothesis others later
        simp only [List.length_cons]
        omega

/-- The emissions write consecutive registers from `low` on, and what each reads is supplied by
the scope and by the ops before it. -/
def Supplied (scope : Scope) (low : Nat) (front : List Op) : List Emission → Prop
  | [] => True
  | emission :: emissions =>
      emission.op.result? = some (low, emission.type) ∧
        (∀ read ∈ emission.op.reads, scope.Supplies front read) ∧
          Supplied scope (low + 1) (front ++ [emission.op]) emissions

/-- Emissions are supplied in two parts, the second behind the first. -/
theorem supplied_append
    (scope : Scope)
    (low : Nat)
    (front : List Op)
    (first second : List Emission) :
    Supplied scope low front (first ++ second) ↔
      Supplied scope low front first ∧
        Supplied scope (low + first.length) (front ++ opsOf first) second := by
  induction first generalizing low front with
  | nil => simp [Supplied, opsOf]
  | cons emission emissions inductionHypothesis =>
      rw [List.cons_append, Supplied, inductionHypothesis, Supplied]
      simp only [opsOf, List.map_cons, List.length_cons, List.append_assoc, List.singleton_append,
        Nat.add_assoc, Nat.add_comm 1, and_assoc]

/-- Emissions that are supplied are laid out one after another. -/
theorem Supplied.laid
    {scope : Scope}
    (given : scope.BindsGiven)
    {low : Nat}
    {front : List Op}
    {emissions : List Emission}
    (supplied : Supplied scope low front emissions) :
    Laid low front emissions := by
  induction emissions generalizing low front with
  | nil => trivial
  | cons emission emissions inductionHypothesis =>
      obtain ⟨writes, reads, others⟩ := supplied
      exact ⟨writes, fun read member => (reads read member).available given,
        inductionHypothesis others⟩

/-! ## Reasoning about straight-line code -/

namespace Straight

/-- Put after ops of which `before` holds, the code is laid, and if it is complete then
`after` holds of its result and of all ops together. -/
def Lays
    {α : Type}
    (before : List Op → Prop)
    (straight : Straight α)
    (after : α → List Op → Prop) : Prop :=
  ∀ low front, before front → Laid low front (straight low).emissions ∧
    ∀ value, (straight low).result = .ok value →
      after value (front ++ opsOf (straight low).emissions)

/-- Put after ops with which the scope supplies all `needs`, the code is supplied, and if it is
complete then with its ops the scope supplies what the result `gives`. -/
def Yields
    {α : Type}
    (scope : Scope)
    (needs : List (Code.Operand × Code.ValueType))
    (straight : Straight α)
    (gives : α → List (Code.Operand × Code.ValueType)) : Prop :=
  ∀ low front, (∀ read ∈ needs, scope.Supplies front read) →
    Supplied scope low front (straight low).emissions ∧
      ∀ value, (straight low).result = .ok value → ∀ read ∈ gives value,
        scope.Supplies (front ++ opsOf (straight low).emissions) read

section

variable {α β : Type} {scope : Scope} {needs : List (Code.Operand × Code.ValueType)}

theorem Yields.pure
    {gives : α → List (Code.Operand × Code.ValueType)}
    {value : α}
    (enough : gives value ⊆ needs) :
    Yields scope needs (Pure.pure value : Straight α) gives := by
  intro low front supplies
  refine ⟨trivial, ?_⟩
  rintro _ ⟨⟩ read member
  exact (supplies read (enough member)).append _

theorem Yields.fail
    {gives : α → List (Code.Operand × Code.ValueType)}
    (error : LoweringError) :
    Yields scope needs (Straight.fail error : Straight α) gives := by
  intro low front _
  refine ⟨trivial, ?_⟩
  rintro _ ⟨⟩

/-- An op that reads what is supplied gives its result. -/
theorem Yields.emit
    {hint : String}
    {type : Code.ValueType}
    {op : Nat → Op}
    (writes : ∀ low, (op low).result? = some (low, type))
    (reads : ∀ low, (op low).reads ⊆ needs) :
    Yields scope needs (Straight.emit hint type op) fun operand => [(operand, type)] := by
  intro low front supplies
  refine ⟨⟨writes low, fun read member => supplies read (reads low member), trivial⟩, ?_⟩
  rintro _ ⟨⟩
  refine List.forall_mem_singleton.2 (.written ?_ (writes low))
  simp [Straight.emit, opsOf]

/-- What was supplied before the first part is still supplied after it. -/
theorem Yields.bind
    {gives : α → List (Code.Operand × Code.ValueType)}
    {last : β → List (Code.Operand × Code.ValueType)}
    {first : Straight α}
    {next : α → Straight β}
    (firstYields : Yields scope needs first gives)
    (nextYields : ∀ value, Yields scope (gives value ++ needs) (next value) last) :
    Yields scope needs (first >>= next) last := by
  intro low front supplies
  obtain ⟨firstSupplied, firstGives⟩ := firstYields low front supplies
  simp only [Bind.bind]
  cases ended : (first low).result with
  | error error =>
      refine ⟨firstSupplied, ?_⟩
      rintro _ ⟨⟩
  | ok value =>
      have suppliesNext : ∀ read ∈ gives value ++ needs,
          scope.Supplies (front ++ opsOf (first low).emissions) read :=
        List.forall_mem_append.2
          ⟨firstGives value ended, fun read member => (supplies read member).append _⟩
      obtain ⟨nextSupplied, nextGives⟩ :=
        nextYields value (low + (first low).emissions.length) _ suppliesNext
      refine ⟨(supplied_append ..).2 ⟨firstSupplied, nextSupplied⟩, ?_⟩
      rw [opsOf_append, ← List.append_assoc]
      exact nextGives

/-- Code that needs some operands may be given more. -/
theorem Yields.weaken
    {gives : α → List (Code.Operand × Code.ValueType)}
    {straight : Straight α}
    (yields : Yields scope needs straight gives)
    {more : List (Code.Operand × Code.ValueType)}
    (subset : needs ⊆ more) :
    Yields scope more straight gives :=
  fun low front supplies => yields low front fun read member => supplies read (subset member)

/-- What the scope supplies in any case need not be asked for. -/
theorem Yields.discharge
    {gives : α → List (Code.Operand × Code.ValueType)}
    {straight : Straight α}
    {read : Code.Operand × Code.ValueType}
    (always : ∀ front, scope.Supplies front read)
    (yields : Yields scope (read :: needs) straight gives) :
    Yields scope needs straight gives :=
  fun low front supplies => yields low front (List.forall_mem_cons.2 ⟨always front, supplies⟩)

/-- Code that yields an operand and needs none lays it out. -/
theorem Yields.lays
    (given : scope.BindsGiven)
    {type : Code.ValueType}
    {straight : Straight Code.Operand}
    (yields : Yields scope [] straight fun operand => [(operand, type)]) :
    Lays (fun _ => True) straight fun operand ops => Available ops (operand, type) := by
  intro low front _
  obtain ⟨supplied, supplies⟩ := yields low front (List.forall_mem_nil _)
  refine ⟨supplied.laid given, ?_⟩
  intro operand complete
  exact (supplies operand complete _ (List.mem_singleton_self _)).available given

end

end Straight

/-! ## The code of expressions -/

section

variable (table : Code.Module) (scope : Scope)

/-- The code of an operation needs both operands and yields one. -/
theorem binaryCode_yields
    (op : Token.Kind)
    (lhs rhs : Code.Operand)
    (span : Span) :
    (binaryCode op lhs rhs span).Yields scope [(lhs, .double), (rhs, .double)]
      fun operand => [(operand, .double)] := by
  unfold binaryCode
  cases arith? op with
  | some arith => exact .emit (fun low => rfl) fun low => List.Subset.refl _
  | none =>
      cases predicate? op with
      | some predicate =>
          refine .bind (.emit (fun low => rfl) fun low => List.Subset.refl _) ?_
          intro flag
          exact .emit (fun low => rfl) fun low => List.subset_append_left _ _
      | none => exact .fail _

mutual

/-- The code of an expression is supplied, and its result is a number. -/
theorem exprCode_yields (expr : Expr) :
    (exprCode table scope expr).Yields scope [] fun operand => [(operand, .double)] := by
  cases expr with
  | num value span =>
      rw [exprCode]
      exact .discharge (fun front => .const value) (.pure (List.Subset.refl _))
  | var name span =>
      rw [exprCode]
      cases found : scope.lookup name with
      | some operand => exact .discharge (fun front => .bound found) (.pure (List.Subset.refl _))
      | none => exact .fail _
  | binary op left right span =>
      rw [exprCode]
      refine .bind (exprCode_yields left) ?_
      intro lhs
      refine .bind ((exprCode_yields right).weaken (List.nil_subset _)) ?_
      intro rhs
      exact (binaryCode_yields scope op lhs rhs span).weaken (by simp)
  | call callee args span =>
      rw [exprCode]
      cases table.find? callee with
      | none => exact .fail _
      | some target =>
          by_cases sameCount : target.arity = args.length
          · simp only [ne_eq, sameCount, not_true_eq_false, if_false]
            refine .bind (argsCode_yields args) ?_
            intro values
            exact .emit (fun low => rfl) fun low => List.subset_append_left _ _
          · simp only [ne_eq, sameCount, not_false_eq_true, if_true]
            exact .fail _

/-- The code of arguments yields one operand for each. -/
theorem argsCode_yields (args : List Expr) :
    (argsCode table scope args).Yields scope []
      fun operands => operands.map fun operand => (operand, .double) := by
  cases args with
  | nil =>
      rw [argsCode]
      exact .pure (List.nil_subset _)
  | cons arg args =>
      rw [argsCode]
      refine .bind (exprCode_yields arg) ?_
      intro value
      refine .bind ((argsCode_yields args).weaken (List.nil_subset _)) ?_
      intro values
      exact .pure (by simp)

end

/-- The code of a condition is supplied, and its result is a truth value. -/
theorem conditionCode_yields (condition : Expr) :
    (conditionCode table scope condition).Yields scope [] fun flag => [(flag, .bool)] := by
  unfold conditionCode
  refine .bind (exprCode_yields table scope condition) ?_
  intro value
  refine .discharge (fun front => .const 0) (.emit (fun low => rfl) fun low => ?_)
  simp [Op.reads]

end

/-- The code of an expression is laid, and its result is a number. -/
theorem exprCode_lays
    (table : Code.Module)
    {scope : Scope}
    (given : scope.BindsGiven)
    (expr : Expr) :
    (exprCode table scope expr).Lays (fun _ => True)
      fun operand ops => Available ops (operand, .double) :=
  (exprCode_yields table scope expr).lays given

/-- The code of a condition is laid, and its result is a truth value. -/
theorem conditionCode_lays
    (table : Code.Module)
    {scope : Scope}
    (given : scope.BindsGiven)
    (condition : Expr) :
    (conditionCode table scope condition).Lays (fun _ => True)
      fun flag ops => Available ops (flag, .bool) :=
  (conditionCode_yields table scope condition).lays given

/-- Laid code does not end a block. -/
theorem Laid.straight
    {low : Nat}
    {front : List Op}
    {emissions : List Emission}
    (laid : Laid low front emissions)
    {op : Op}
    (member : op ∈ opsOf emissions) :
    op.isTerminator = false := by
  induction emissions generalizing low front with
  | nil => simp [opsOf] at member
  | cons emission emissions inductionHypothesis =>
      obtain ⟨writes, _, others⟩ := laid
      rcases List.mem_cons.1 member with rfl | later
      · exact Op.isTerminator_of_result? writes
      · exact inductionHypothesis others later

theorem Straight.Lays.straight
    {α : Type}
    {straight : Straight α}
    {after : α → List Op → Prop}
    (lays : straight.Lays (fun _ => True) after)
    {low : Nat}
    {emissions : List Emission}
    {value : α}
    (made : straight low = ⟨emissions, .ok value⟩) :
    ∀ op ∈ opsOf emissions, op.isTerminator = false := by
  have laid := (lays low [] trivial).1
  rw [made] at laid
  exact fun op member => laid.straight member

/-- Laid code makes no register available from its end on. -/
theorem Laid.below
    {low : Nat}
    {front : List Op}
    {emissions : List Emission}
    (laid : Laid low front emissions)
    {operand : Code.Operand}
    {type : Code.ValueType}
    (available : Available (opsOf emissions) (operand, type)) :
    operand.Below (low + emissions.length) := by
  cases operand with
  | const value => trivial
  | arg index => trivial
  | reg index =>
      obtain ⟨op, member, writes⟩ := available
      exact (laid.dest_lt member writes).2

/-- The operand of an expression is made by its code or was there before. -/
theorem exprCode_below
    {table : Code.Module}
    {scope : Scope}
    (given : scope.BindsGiven)
    {expr : Expr}
    {low : Nat}
    {emissions : List Emission}
    {operand : Code.Operand}
    (made : exprCode table scope expr low = ⟨emissions, .ok operand⟩) :
    operand.Below (low + emissions.length) := by
  obtain ⟨laid, result⟩ := exprCode_lays table given expr low [] trivial
  rw [made] at laid result
  exact laid.below (result operand rfl)

end Lowering

/-! ## Scopes of functions -/

namespace Scope

theorem bindings_ofParams
    (function : String)
    (params : List String) :
    (ofParams function params).bindings =
      (params.zipIdx.map fun (param, index) => (param, Code.Operand.arg index)).reverse := by
  have general : ∀ (pairs : List (String × Nat)) (scope : Scope),
      (pairs.foldl (fun scope (param, index) => scope.bind param (.arg index)) scope).bindings =
        (pairs.map fun (param, index) => (param, Code.Operand.arg index)).reverse ++
          scope.bindings := by
    intro pairs
    induction pairs with
    | nil => simp
    | cons pair pairs inductionHypothesis =>
        intro scope
        rw [List.foldl_cons, inductionHypothesis]
        simp [bind]
  simpa [ofParams, enter] using general params.zipIdx (enter function)

/-- In a function each name stands for the argument at the place of its parameter. -/
theorem lookup_ofParams
    {function : String}
    {params : List String}
    {name : String}
    {operand : Code.Operand}
    (found : (ofParams function params).lookup name = some operand) :
    ∃ index, operand = .arg index ∧ params[index]? = some name := by
  unfold lookup at found
  rw [bindings_ofParams, List.lookup_eq_some_iff] at found
  obtain ⟨front, back, split, _⟩ := found
  have member : (name, operand) ∈
      params.zipIdx.map fun (param, index) => (param, Code.Operand.arg index) := by
    rw [← List.mem_reverse, split]
    simp
  obtain ⟨⟨param, index⟩, inZip, same⟩ := List.mem_map.1 member
  obtain ⟨rfl, rfl⟩ : param = name ∧ Code.Operand.arg index = operand := by simpa using same
  exact ⟨index, rfl, List.mem_zipIdx_iff_getElem?.1 inZip⟩

/-- Parameters are bound to operands that are given. -/
theorem bindsGiven_ofParams
    (function : String)
    (params : List String) :
    (ofParams function params).BindsGiven := by
  intro name operand found
  obtain ⟨index, rfl, _⟩ := lookup_ofParams found
  trivial

end Scope
end ScalarScript
