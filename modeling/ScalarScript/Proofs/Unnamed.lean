import ScalarScript.Lowering
import ScalarScript.Machine.Run

/-!
# The names of parameters in code

Code refers to arguments by their place.  A function keeps the names of its parameters for
listings only: the checks and the machine see how many there are.  `Module.unnamed` is a module
without these names; two modules that agree but for them are accepted and run alike.
-/

namespace ScalarScript
namespace Code

namespace Function

/-- The function whose parameters all have the empty name. -/
def unnamed (function : Function) : Function :=
  { function with params := List.replicate function.params.length "" }

@[simp] theorem name_unnamed (function : Function) :
    function.unnamed.name = function.name := rfl

@[simp] theorem body_unnamed (function : Function) :
    function.unnamed.body = function.body := rfl

@[simp] theorem arity_unnamed (function : Function) :
    function.unnamed.arity = function.arity :=
  List.length_replicate

/-- The types of operands do not depend on the names of parameters. -/
@[simp] theorem typeOf?_unnamed
    (function : Function)
    (operand : Operand) :
    function.unnamed.typeOf? operand = function.typeOf? operand := by
  cases operand with
  | const value => rfl
  | arg index => simp [typeOf?, unnamed]
  | reg index => rfl

end Function

namespace Module

/-- The module without the names of parameters. -/
def unnamed (table : Module) : Module :=
  { table with functions := table.functions.map Function.unnamed }

/-- A function is found under the same name. -/
@[simp] theorem find?_unnamed
    (table : Module)
    (name : String) :
    table.unnamed.find? name = (table.find? name).map Function.unnamed := by
  unfold find? unnamed
  exact List.find?_map ..

@[simp] theorem blockCount_unnamed (table : Module) :
    table.unnamed.blockCount = table.blockCount := by
  simp [blockCount, unnamed, List.flatMap_map]

/-- A function that was given parameters can be given others, as many. -/
theorem unnamed_setParams
    (table : Module)
    (name : String)
    {params others : List String}
    (sameLength : others.length = params.length) :
    (table.setParams name others).unnamed = (table.setParams name params).unnamed := by
  unfold setParams modify unnamed
  simp only [Module.mk.injEq, true_and]
  refine List.ext_getElem? fun index => ?_
  simp only [List.getElem?_map, List.getElem?_modify, Option.map_eq_map, Option.map_map]
  congr 1
  funext function
  by_cases here : table.position name = index
  · simp [here, Function.unnamed, sameLength]
  · simp [here]

/-- The modules know the same names, with as many parameters. -/
def SameArities (table other : Module) : Prop :=
  ∀ name, (other.find? name).map Function.arity = (table.find? name).map Function.arity

/-- Tables that differ in names of parameters only know the same functions with as many parameters.
-/
theorem sameArities_of_unnamed_eq
    {table other : Module}
    (alike : other.unnamed = table.unnamed) :
    table.SameArities other := by
  intro name
  have found : other.unnamed.find? name = table.unnamed.find? name := by rw [alike]
  simpa [Option.map_map, Function.comp_def] using congrArg (Option.map Function.arity) found

end Module

/-! ## The checks -/

section Checks

variable (table : Module) (function : Function)

/-- Checking an operand does not depend on the names of parameters. -/
@[simp] theorem checkOperand_unnamed
    (role : Role)
    (operand : Operand) :
    checkOperand function.unnamed role operand = checkOperand function role operand := by
  unfold checkOperand
  rw [Function.typeOf?_unnamed]

@[simp] theorem checkOperands_unnamed
    (role : Role)
    (operands : List Operand) :
    checkOperands function.unnamed role operands = checkOperands function role operands := by
  induction operands with
  | nil => rfl
  | cons operand operands inductionHypothesis =>
      rw [checkOperands, checkOperands, inductionHypothesis, checkOperand_unnamed]

/-- Checking what an instruction reads does not depend on the names of parameters. -/
@[simp] theorem checkReads_unnamed (op : Op) :
    checkReads table.unnamed function.unnamed op = checkReads table function op := by
  cases op with
  | call dest callee args =>
      rw [checkReads, checkReads, Module.find?_unnamed]
      cases table.find? callee with
      | none => rfl
      | some target => simp
  | ret value => cases value <;> simp [checkReads]
  | _ => simp [checkReads]

/-- Checking instructions does not depend on the names of parameters. -/
@[simp] theorem checkOps_unnamed
    (body : Body)
    (written : List Nat)
    (ops : List Op) :
    checkOps table.unnamed function.unnamed body written ops =
      checkOps table function body written ops := by
  induction ops generalizing written with
  | nil => rfl
  | cons op ops inductionHypothesis =>
      simp only [checkOps, checkReads_unnamed, inductionHypothesis]

/-- Checking blocks does not depend on the names of parameters. -/
@[simp] theorem checkBlocks_unnamed
    (body : Body)
    (written : List Nat)
    (blocks : List Block) :
    checkBlocks table.unnamed function.unnamed body written blocks =
      checkBlocks table function body written blocks := by
  induction blocks generalizing written with
  | nil => rfl
  | cons block blocks inductionHypothesis =>
      simp only [checkBlocks, checkOps_unnamed, inductionHypothesis]

/-- The checks do not read the names of parameters. -/
theorem Module.verifyFunction_unnamed :
    table.unnamed.verifyFunction function.unnamed = table.verifyFunction function := by
  simp only [verifyFunction, checkBody, Function.body_unnamed, Function.name_unnamed,
    checkBlocks_unnamed]

end Checks

/-- Functions that agree but for the names of parameters pass the same checks. -/
theorem Module.verifyFunction_of_unnamed_eq
    {table other : Module}
    (alike : other.unnamed = table.unnamed)
    {function counterpart : Function}
    (same : counterpart.unnamed = function.unnamed) :
    other.verifyFunction counterpart = table.verifyFunction function := by
  rw [← verifyFunction_unnamed, alike, same, verifyFunction_unnamed]

end Code

/-! ## The machine -/

namespace Machine

/-- Calls do not read the names of parameters. -/
theorem invoke_unnamed
    (table : Code.Module)
    (limit steps room : Nat) :
    invoke table.unnamed limit steps room = invoke table limit steps room := by
  induction room with
  | zero =>
      funext name args
      unfold invoke
      rw [Code.Module.find?_unnamed]
      cases table.find? name with
      | none => rfl
      | some function => simp
  | succ room inductionHypothesis =>
      funext name args
      unfold invoke
      rw [Code.Module.find?_unnamed]
      cases table.find? name with
      | none => rfl
      | some function => simp [inductionHypothesis]

/-- Calls run alike in tables that differ in names of parameters only. -/
theorem callWithin_of_unnamed_eq
    {table other : Code.Module}
    (alike : other.unnamed = table.unnamed)
    (steps limit : Nat)
    (name : String)
    (args : List Float) :
    callWithin steps other limit name args = callWithin steps table limit name args := by
  unfold callWithin
  rw [← invoke_unnamed other, alike, invoke_unnamed]

/-- Modules that agree but for the names of parameters run alike. -/
theorem call_of_unnamed_eq
    {table other : Code.Module}
    (alike : other.unnamed = table.unnamed)
    (limit : Nat)
    (name : String)
    (args : List Float) :
    call other limit name args = call table limit name args := by
  unfold call
  rw [← other.blockCount_unnamed, alike, table.blockCount_unnamed]
  exact callWithin_of_unnamed_eq alike ..

end Machine
end ScalarScript
