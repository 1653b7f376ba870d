import ScalarScript.Proofs.Scoping
import ScalarScript.Proofs.Unnamed

/-!
# Renaming parameters

The parameters of a definition can be given other names, in the prototype and wherever the body
mentions them, as long as the new names are distinct and none of them is mentioned already.  The
definition is then lowered to the same code, or refused with the same error at the same place.
The names that are called belong to functions and stay: a parameter may have the name of a
function.
-/

namespace ScalarScript

/-! ## Renaming in trees -/

mutual

/-- The expression in which variables have other names. -/
def Expr.rename (nameOf : String → String) : Expr → Expr
  | .num value span => .num value span
  | .var name span => .var (nameOf name) span
  | .binary op left right span => .binary op (left.rename nameOf) (right.rename nameOf) span
  | .call callee args span => .call callee (Expr.renameAll nameOf args) span

/-- The expressions in which variables have other names. -/
def Expr.renameAll (nameOf : String → String) : List Expr → List Expr
  | [] => []
  | arg :: args => arg.rename nameOf :: Expr.renameAll nameOf args

end

/-- The return in which variables have other names. -/
def Return.rename (nameOf : String → String) (value : Return) : Return :=
  { value with value := value.value.map (Expr.rename nameOf) }

mutual

/-- The statement in which variables have other names.  Prototypes inside it stay. -/
def Stmt.rename (nameOf : String → String) : Stmt → Stmt
  | .prototype proto => .prototype proto
  | .function proto body => .function proto (body.rename nameOf)
  | .block body => .block (body.rename nameOf)
  | .ret value => .ret (value.rename nameOf)
  | .expression proto body => .expression proto (body.rename nameOf)
  | .branch condition thenBlock none none span =>
      .branch (condition.rename nameOf) (thenBlock.rename nameOf) none none span
  | .branch condition thenBlock none (some elseBlock) span =>
      .branch (condition.rename nameOf) (thenBlock.rename nameOf) none
        (some (elseBlock.rename nameOf)) span
  | .branch condition thenBlock (some elseIf) none span =>
      .branch (condition.rename nameOf) (thenBlock.rename nameOf)
        (some (elseIf.rename nameOf)) none span
  | .branch condition thenBlock (some elseIf) (some elseBlock) span =>
      .branch (condition.rename nameOf) (thenBlock.rename nameOf)
        (some (elseIf.rename nameOf)) (some (elseBlock.rename nameOf)) span

/-- The block in which variables have other names. -/
def Block.rename (nameOf : String → String) : Block → Block
  | .mk statements tail =>
      .mk (Stmt.renameAll nameOf statements) (tail.map (Return.rename nameOf))

/-- The statements in which variables have other names. -/
def Stmt.renameAll (nameOf : String → String) : List Stmt → List Stmt
  | [] => []
  | statement :: statements =>
      statement.rename nameOf :: Stmt.renameAll nameOf statements

end

@[simp] theorem Expr.length_renameAll
    (nameOf : String → String)
    (exprs : List Expr) :
    (Expr.renameAll nameOf exprs).length = exprs.length := by
  induction exprs with
  | nil => rfl
  | cons expr exprs inductionHypothesis => simp [Expr.renameAll, inductionHypothesis]

/-- One of the nodes is a variable of the given name. -/
def Mentions (nodes : List Expr) (name : String) : Prop :=
  ∃ span, Expr.var name span ∈ nodes

namespace Mentions

variable {nodes others : List Expr} {name : String}

/-- A name in the front part is mentioned in the whole. -/
theorem left (mentions : Mentions nodes name) : Mentions (nodes ++ others) name := by
  obtain ⟨span, member⟩ := mentions
  exact ⟨span, List.mem_append_left others member⟩

/-- A name in the back part is mentioned in the whole. -/
theorem right (mentions : Mentions others name) : Mentions (nodes ++ others) name := by
  obtain ⟨span, member⟩ := mentions
  exact ⟨span, List.mem_append_right nodes member⟩

section Branch

variable {condition : Expr} {thenBlock : Block} {elseIf : Option Stmt} {elseBlock : Option Block}
  {span : Span}

theorem branch_condition (mentions : Mentions condition.nodes name) :
    Mentions (Stmt.branch condition thenBlock elseIf elseBlock span).nodes name := by
  cases elseIf <;> cases elseBlock <;> rw [Stmt.nodes] <;> exact mentions.left

theorem branch_then (mentions : Mentions thenBlock.nodes name) :
    Mentions (Stmt.branch condition thenBlock elseIf elseBlock span).nodes name := by
  cases elseIf with
  | none =>
      cases elseBlock with
      | none => rw [Stmt.nodes]; exact mentions.right
      | some block => rw [Stmt.nodes]; exact mentions.left.right
  | some other => cases elseBlock <;> rw [Stmt.nodes] <;> exact mentions.left.right

end Branch

end Mentions

/-- New names for the parameters of a definition: they are distinct, and no other variable of
the body has one of them. -/
structure Renaming (proto : Prototype) (body : Block) where
  /-- The new name of a parameter. -/
  apply : String → String
  distinct : (proto.params.map apply).Nodup
  captureFree : ∀ name, Mentions body.nodes name → name ∉ proto.params →
    name ∉ proto.params.map apply

namespace Renaming

variable {proto : Prototype} {body : Block}

/-- The new name of a variable: those that are no parameters keep theirs. -/
def nameOf (new : Renaming proto body) (name : String) : String :=
  if name ∈ proto.params then new.apply name else name

/-- The prototype with the new names. -/
def prototype (new : Renaming proto body) : Prototype :=
  ⟨proto.name, proto.params.map new.apply, proto.span, new.distinct⟩

theorem length_params (new : Renaming proto body) :
    new.prototype.params.length = proto.params.length :=
  List.length_map _

/-- The definition with the new names. -/
def definition (new : Renaming proto body) : Stmt :=
  .function new.prototype (body.rename new.nameOf)

end Renaming

/-! ## Scopes -/

namespace Scope

/-- Among distinct parameters each stands for the argument at its place. -/
theorem lookup_ofParams_of_getElem?
    (function : String)
    {params : List String}
    (distinct : params.Nodup)
    {index : Nat}
    {name : String}
    (isParam : params[index]? = some name) :
    (ofParams function params).lookup name = some (.arg index) := by
  cases found : (ofParams function params).lookup name with
  | none =>
      exact absurd (List.mem_of_getElem? isParam) (lookup_ofParams_eq_none_iff.1 found)
  | some operand =>
      obtain ⟨other, rfl, isOther⟩ := lookup_ofParams found
      have inside : index < params.length := (List.getElem?_eq_some_iff.1 isParam).1
      have same : index = other :=
        (List.getElem?_inj inside distinct).1 (isParam.trans isOther.symm)
      rw [same]

/-- A scope says of the new name what another scope says of the name; a name that is not bound
stays. -/
structure Carries (scope other : Scope) (nameOf : String → String) (name : String) : Prop where
  lookup : other.lookup (nameOf name) = scope.lookup name
  unbound : scope.lookup name = none → nameOf name = name

end Scope

/-- The scopes of the two definitions agree on every name that the body mentions. -/
theorem Renaming.carries
    {proto : Prototype}
    {body : Block}
    (new : Renaming proto body)
    (name : String)
    (mentioned : Mentions body.nodes name) :
    (Scope.ofParams proto.name proto.params).Carries
      (Scope.ofParams proto.name new.prototype.params) new.nameOf name := by
  by_cases isParam : name ∈ proto.params
  · have renamed : new.nameOf name = new.apply name := if_pos isParam
    obtain ⟨index, found⟩ := List.getElem?_of_mem isParam
    have foundNew : new.prototype.params[index]? = some (new.apply name) := by
      simp [prototype, found]
    have bound := Scope.lookup_ofParams_of_getElem? proto.name proto.distinct found
    constructor
    · rw [renamed, bound]
      exact Scope.lookup_ofParams_of_getElem? proto.name new.distinct foundNew
    · intro unbound
      rw [bound] at unbound
      cases unbound
  · have kept : new.nameOf name = name := if_neg isParam
    have unboundNew : (Scope.ofParams proto.name new.prototype.params).lookup name = none :=
      Scope.lookup_ofParams_eq_none_iff.2 (new.captureFree name mentioned isParam)
    refine ⟨?_, fun _ => kept⟩
    rw [kept, unboundNew, Scope.lookup_ofParams_eq_none_iff.2 isParam]

namespace Lowering

open Code (Module)

/-! ## Bodies -/

section Bodies

variable {table other : Module} {scope inner : Scope} {nameOf : String → String}

mutual

/-- The code of an expression is that of the renamed one, in a scope that carries the names over. -/
theorem lowerExpr_rename
    (arities : table.SameArities other)
    (expr : Expr)
    (carries : ∀ name, Mentions expr.nodes name → scope.Carries inner nameOf name) :
    lowerExpr other inner (expr.rename nameOf) = lowerExpr table scope expr := by
  cases expr with
  | num value span => simp only [Expr.rename, lowerExpr]
  | var name span =>
      have carried := carries name ⟨span, by simp [Expr.nodes]⟩
      simp only [Expr.rename, lowerExpr, carried.lookup]
      cases found : scope.lookup name with
      | some operand => rfl
      | none => rw [carried.unbound found]
  | binary op left right span =>
      rw [Expr.nodes] at carries
      have sameLeft := lowerExpr_rename arities left fun name mentions => carries name mentions.left
      have sameRight := lowerExpr_rename arities right fun name mentions =>
        carries name mentions.left.right
      simp only [Expr.rename, lowerExpr, sameLeft, sameRight]
  | call callee args span =>
      rw [Expr.nodes, ← List.singleton_append] at carries
      have sameArgs := lowerArgs_rename arities args fun name mentions =>
        carries name mentions.right
      have sameTarget := arities callee
      simp only [Expr.rename, lowerExpr, sameArgs, Expr.length_renameAll]
      cases found : table.find? callee with
      | none =>
          rw [found, Option.map_none, Option.map_eq_none_iff] at sameTarget
          rw [sameTarget]
      | some target =>
          rw [found, Option.map_some, Option.map_eq_some_iff] at sameTarget
          obtain ⟨otherTarget, foundOther, arity⟩ := sameTarget
          rw [foundOther]
          simp only [arity]

/-- The code of arguments is that of the renamed ones. -/
theorem lowerArgs_rename
    (arities : table.SameArities other)
    (args : List Expr)
    (carries : ∀ name, Mentions (Expr.nodesAll args) name → scope.Carries inner nameOf name) :
    lowerArgs other inner (Expr.renameAll nameOf args) = lowerArgs table scope args := by
  cases args with
  | nil => simp only [Expr.renameAll, lowerArgs]
  | cons arg args =>
      rw [Expr.nodesAll] at carries
      have sameArg := lowerExpr_rename arities arg fun name mentions => carries name mentions.left
      have sameArgs := lowerArgs_rename arities args fun name mentions =>
        carries name mentions.right
      simp only [Expr.renameAll, lowerArgs, sameArg, sameArgs]

end

/-- The code of a return is that of the renamed one. -/
theorem lowerReturn_rename
    (arities : table.SameArities other)
    (value : Return)
    (carries : ∀ name, Mentions value.nodes name → scope.Carries inner nameOf name) :
    lowerReturn other inner (value.rename nameOf) = lowerReturn table scope value := by
  obtain ⟨value, span⟩ := value
  cases value with
  | none => rfl
  | some expr =>
      simp only [lowerReturn, Return.rename, Option.map_some,
        lowerExpr_rename arities expr carries]

mutual

/-- The code of a statement is that of the renamed one. -/
theorem lowerBodyStmt_rename
    (arities : table.SameArities other)
    (statement : Stmt)
    (carries : ∀ name, Mentions statement.nodes name → scope.Carries inner nameOf name) :
    lowerBodyStmt other inner (statement.rename nameOf) = lowerBodyStmt table scope statement := by
  cases statement with
  | prototype proto | function proto body => simp only [Stmt.rename, lowerBodyStmt]
  | block body =>
      rw [Stmt.nodes] at carries
      simp only [Stmt.rename, lowerBodyStmt, lowerBlock_rename arities body carries]
  | ret value =>
      rw [Stmt.nodes] at carries
      simp only [Stmt.rename, lowerBodyStmt, lowerReturn_rename arities value carries]
  | expression proto body =>
      rw [Stmt.nodes] at carries
      simp only [Stmt.rename, lowerBodyStmt, lowerExpr_rename arities body carries]
  | branch condition thenBlock elseIf elseBlock span =>
      have sameCondition := lowerExpr_rename arities condition fun name mentions =>
        carries name mentions.branch_condition
      have sameThen := lowerBlock_rename arities thenBlock fun name mentions =>
        carries name mentions.branch_then
      cases elseIf with
      | none =>
          cases elseBlock with
          | none => simp only [Stmt.rename, lowerBodyStmt, sameCondition, sameThen]
          | some block =>
              rw [Stmt.nodes] at carries
              simp only [Stmt.rename, lowerBodyStmt, sameCondition, sameThen,
                lowerBlock_rename arities block fun name mentions =>
                  carries name mentions.right.right]
      | some otherwise =>
          cases elseBlock with
          | none =>
              rw [Stmt.nodes] at carries
              simp only [Stmt.rename, lowerBodyStmt, sameCondition, sameThen,
                lowerBodyStmt_rename arities otherwise fun name mentions =>
                  carries name mentions.right.right]
          | some block =>
              rw [Stmt.nodes] at carries
              simp only [Stmt.rename, lowerBodyStmt, sameCondition, sameThen,
                lowerBodyStmt_rename arities otherwise fun name mentions =>
                  carries name mentions.left.right.right]

/-- The code of a block is that of the renamed one. -/
theorem lowerBlock_rename
    (arities : table.SameArities other)
    (block : Block)
    (carries : ∀ name, Mentions block.nodes name → scope.Carries inner nameOf name) :
    lowerBlock other inner (block.rename nameOf) = lowerBlock table scope block := by
  obtain ⟨statements, tail⟩ := block
  cases tail with
  | none =>
      rw [Block.nodes] at carries
      simp only [Block.rename, lowerBlock, Option.map_none,
        lowerStmts_rename arities statements carries]
  | some value =>
      rw [Block.nodes] at carries
      simp only [Block.rename, lowerBlock, Option.map_some,
        lowerStmts_rename arities statements fun name mentions => carries name mentions.left,
        lowerReturn_rename arities value fun name mentions => carries name mentions.right]

theorem lowerStmts_rename
    (arities : table.SameArities other)
    (statements : List Stmt)
    (carries : ∀ name, Mentions (Stmt.nodesAll statements) name →
      scope.Carries inner nameOf name) :
    lowerStmts other inner (Stmt.renameAll nameOf statements) =
      lowerStmts table scope statements := by
  cases statements with
  | nil => simp only [Stmt.renameAll, lowerStmts]
  | cons statement statements =>
      rw [Stmt.nodesAll] at carries
      simp only [Stmt.renameAll, lowerStmts,
        lowerBodyStmt_rename arities statement fun name mentions => carries name mentions.left,
        lowerStmts_rename arities statements fun name mentions => carries name mentions.right]

end

end Bodies

end Lowering

/-! ## Tables whose functions get other parameters -/

namespace Code
namespace Module

@[simp] theorem setParams_setParams
    (table : Module)
    (name : String)
    (params others : List String) :
    (table.setParams name params).setParams name others = table.setParams name others :=
  table.modify_modify name fun _ same => same

theorem find?_setParams
    (table : Module)
    (name : String)
    (params : List String) :
    (table.setParams name params).find? name =
      (table.find? name).map fun function => { function with params := params } := by
  have found := table.find?_modify name name (fun function => { function with params := params })
    fun _ same => same
  rwa [if_pos rfl] at found

/-- A body is attached whatever the parameters. -/
theorem define?_setParams
    (table : Module)
    (name : String)
    (params : List String)
    (body : Body) :
    (table.setParams name params).define? name body =
      (table.define? name body).map fun defined => defined.setParams name params := by
  unfold define?
  rw [find?_setParams]
  cases table.find? name with
  | none => rfl
  | some function =>
      simp only [Option.map_some]
      have sameState : ({ function with params := params } : Function).isDefined =
          function.isDefined := rfl
      rw [sameState]
      split
      · rfl
      · simp only [Option.map_some, setParams]
        rw [modify_modify, modify_modify] <;> exact fun _ same => same

end Module
end Code

namespace Lowering

open Code (Module)

/-! ## Definitions -/

/-- A definition announces its name and then the names of its parameters. -/
theorem announce_eq_setParams
    (table : Module)
    (proto : Prototype) :
    announce table proto = (table.declare proto.name []).setParams proto.name proto.params := by
  unfold announce Module.declare
  cases found : table.find? proto.name with
  | some former => rfl
  | none =>
      -- either way the function at the end is the declaration with all parameters
      have added (declared : Code.Function) (sameName : declared.name = proto.name) :=
        Module.modify_append (sameName ▸ found : table.find? declared.name = none)
          fun function => { function with params := proto.params }
      exact (added ⟨proto.name, proto.params, none⟩ rfl).trans
        (added ⟨proto.name, [], none⟩ rfl).symm

/-- Taking a declaration back takes back the names of its parameters. -/
theorem rollBack_setParams
    (table : Module)
    (name : String)
    (params : List String)
    (former : Option Code.Function) :
    rollBack (table.setParams name params) name former = rollBack table name former := by
  cases former with
  | some function =>
      simp only [rollBack, Module.setParams, Module.discard]
      rw [Module.modify_modify, Module.modify_modify, Module.modify_modify] <;>
        exact fun _ same => same
  | none =>
      simp only [rollBack]
      exact table.erase_modify name fun _ same => same

/-- A function that is not defined takes a body once its name is announced. -/
theorem exists_find?_define?_declare
    {table : Module}
    {name : String}
    (undefined : ∀ former, table.find? name = some former → former.isDefined = false)
    (body : Code.Body) :
    ∃ defined function, (table.declare name []).define? name body = some defined ∧
      defined.find? name = some function ∧ function.body = some body := by
  obtain ⟨function, found, isDeclared⟩ : ∃ function,
      (table.declare name []).find? name = some function ∧ function.isDefined = false := by
    unfold Module.declare
    cases found : table.find? name with
    | some former => exact ⟨former, found, undefined former found⟩
    | none =>
        have added := table.find?_append ⟨name, [], none⟩ found name
        exact ⟨⟨name, [], none⟩, by simpa using added, rfl⟩
  have attached := (table.declare name []).find?_modify name name
    (fun function => { function with body := some body }) fun _ same => same
  rw [if_pos rfl, found, Option.map_some] at attached
  refine ⟨_, _, ?_, attached, rfl⟩
  simp [Module.define?, found, isDeclared]

section Definitions

variable {proto : Prototype} {body : Block} (new : Renaming proto body)

/-- A body has the same code with renamed parameters. -/
theorem lowerSource_renamed (table : Module) :
    lowerSource (announce table new.prototype)
        (Scope.ofParams proto.name new.prototype.params) (.block (body.rename new.nameOf)) =
      lowerSource (announce table proto) (Scope.ofParams proto.name proto.params)
        (.block body) := by
  have alike : (announce table new.prototype).unnamed = (announce table proto).unnamed := by
    rw [announce_eq_setParams, announce_eq_setParams]
    exact Module.unnamed_setParams _ _ new.length_params
  have arities := Module.sameArities_of_unnamed_eq alike
  simp only [lowerSource, lowerBlock_rename arities body new.carries]

/-- A definition passes verification exactly if the renamed one does. -/
theorem verifyDefined_renamed
    {table other : Module}
    (alike : other.unnamed = table.unnamed) :
    verifyDefined other new.prototype = verifyDefined table proto := by
  have found : (other.find? proto.name).map Code.Function.unnamed =
      (table.find? proto.name).map Code.Function.unnamed := by
    rw [← Module.find?_unnamed, alike, Module.find?_unnamed]
  change verifyDefined other proto = verifyDefined table proto
  unfold verifyDefined
  cases here : table.find? proto.name with
  | none =>
      rw [here, Option.map_none, Option.map_eq_none_iff] at found
      rw [found]
  | some function =>
      rw [here, Option.map_some, Option.map_eq_some_iff] at found
      obtain ⟨counterpart, foundOther, same⟩ := found
      rw [foundOther]
      simp only [Module.verifyFunction_of_unnamed_eq alike same]

/-- Lowering the definition with the new names came to the same, but for these names. -/
structure Matches (original renamed : Lowered) : Prop where
  result : renamed.result = original.result
  scope : renamed.scope = original.scope
  failed : ∀ error, original.result = .error error → renamed.table = original.table
  made : ∀ name, original.result = .ok name → name = proto.name ∧
    ∃ (defined : Module) (function : Code.Function) (code : Code.Body),
      defined.find? name = some function ∧ function.body = some code ∧
        original.table = defined.setParams name proto.params ∧
        renamed.table = defined.setParams name new.prototype.params

/-- Defining a function and defining the renamed one differ in the names of the parameters only. -/
theorem defineFunction_matches
    {table : Module}
    {former : Option Code.Function}
    (undefined : ∀ function, table.find? proto.name = some function →
      function.isDefined = false) :
    Matches new (defineFunction proto (.block body) table former)
      (defineFunction new.prototype (.block (body.rename new.nameOf)) table former) := by
  have sameBuilt := congrFun (lowerSource_renamed new table) .opened
  have sameName : new.prototype.name = proto.name := rfl
  unfold defineFunction
  simp only [sameName, sameBuilt]
  cases lowerSource (announce table proto) (Scope.ofParams proto.name proto.params)
      (.block body) .opened with
  | error error builder =>
      simp only [announce_eq_setParams, sameName, rollBack_setParams]
      exact ⟨rfl, rfl, fun _ _ => rfl, nofun⟩
  | ok _ builder =>
      obtain ⟨defined, function, isDefined, found, code⟩ :=
        exists_find?_define?_declare undefined builder.body
      have alike := defined.unnamed_setParams proto.name new.length_params
      simp only [announce_eq_setParams, sameName, Module.define?_setParams, isDefined,
        Option.map_some, Option.getD_some, verifyDefined_renamed new alike, rollBack_setParams]
      cases verifyDefined (defined.setParams proto.name proto.params) proto with
      | error error => exact ⟨rfl, rfl, fun _ _ => rfl, nofun⟩
      | ok _ =>
          refine ⟨rfl, rfl, nofun, ?_⟩
          rintro _ ⟨⟩
          exact ⟨rfl, defined, function, builder.body, found, code, rfl, rfl⟩

/-- Lowering a definition and lowering the renamed one differ in the names of the parameters only.
-/
theorem lowerFunction_matches
    (table : Module)
    (scope : Scope) :
    Matches new (lowerFunction proto (.block body) table scope)
      (lowerFunction new.prototype (.block (body.rename new.nameOf)) table scope) := by
  have sameName : new.prototype.name = proto.name := rfl
  have sameArity : new.prototype.arity = proto.arity := new.length_params
  have sameSpan : new.prototype.span = proto.span := rfl
  unfold lowerFunction
  simp only [sameName, sameArity, sameSpan]
  cases found : table.find? proto.name with
  | none => exact defineFunction_matches new (by simp [found])
  | some function =>
      dsimp only
      split
      · exact ⟨rfl, rfl, fun _ _ => rfl, nofun⟩
      next undefined =>
        split
        · exact ⟨rfl, rfl, fun _ _ => rfl, nofun⟩
        · exact defineFunction_matches new (by simpa [found] using undefined)

end Definitions

/-- **Lowering does not depend on the names of parameters.**  A definition whose parameters were
renamed goes through or fails as before, with the same error at the same place.  If it fails, then
the module is the same; if it goes through, then the function has the same code, and the modules
differ in the names of its parameters only.  All calls do the same in both modules. -/
theorem lowerStmt_renamed
    {proto : Prototype}
    {body : Block}
    (new : Renaming proto body)
    (table : Module)
    (scope : Scope) :
    let original := lowerStmt (.function proto body) table scope
    let renamed := lowerStmt new.definition table scope
    renamed.result = original.result ∧
      renamed.scope = original.scope ∧
      (∀ error, original.result = .error error → renamed.table = original.table) ∧
      (∀ name, original.result = .ok name → name = proto.name ∧
        ∃ code : Code.Body,
          original.table.find? name = some ⟨name, proto.params, some code⟩ ∧
            renamed.table.find? name =
              some ⟨name, proto.params.map new.apply, some code⟩ ∧
            renamed.table = original.table.setParams name (proto.params.map new.apply)) ∧
      ∀ limit callee args,
        Machine.call renamed.table limit callee args =
            Machine.call original.table limit callee args ∧
          ∀ steps, Machine.callWithin steps renamed.table limit callee args =
            Machine.callWithin steps original.table limit callee args := by
  intro original renamed
  have same : Matches new original renamed := lowerFunction_matches new table scope
  have alike : renamed.table.unnamed = original.table.unnamed := by
    cases result : original.result with
    | error error => rw [same.failed error result]
    | ok name =>
        obtain ⟨-, defined, -, -, -, -, isOriginal, isRenamed⟩ := same.made name result
        rw [isOriginal, isRenamed]
        exact defined.unnamed_setParams name new.length_params
  refine ⟨same.result, same.scope, same.failed, ?_, fun limit callee args =>
    ⟨Machine.call_of_unnamed_eq alike limit callee args, fun steps =>
      Machine.callWithin_of_unnamed_eq alike steps limit callee args⟩⟩
  intro name result
  obtain ⟨isName, defined, function, code, found, isBody, isOriginal, isRenamed⟩ :=
    same.made name result
  have isFunction : function = ⟨name, function.params, some code⟩ := by
    rw [← isBody, ← Module.name_of_find? found]
  rw [isOriginal, isRenamed, Module.find?_setParams, Module.find?_setParams, found, isFunction]
  exact ⟨isName, code, rfl, rfl, (Module.setParams_setParams ..).symm⟩

/-- The words of `def k(first, second) if first < second then return g(first) end
return k(second, first) end`. -/
def crossingWords (first second : String) : List Token :=
  [.word .kwDef, .ofName "k", .word .leftParen, .ofName first, .word .comma, .ofName second,
    .word .rightParen, .word .kwIf, .ofName first, .word .lesser, .ofName second, .word .kwThen,
    .word .kwReturn, .ofName "g", .word .leftParen, .ofName first, .word .rightParen, .word .kwEnd,
    .word .kwReturn, .ofName "k", .word .leftParen, .ofName second, .word .comma, .ofName first,
    .word .rightParen, .word .kwEnd]

theorem nodup_crossing : ["a", "g"].Nodup := by decide

/-- The function `k(a, g)`. -/
def crossingHead : Prototype :=
  ⟨"k", ["a", "g"], .zero, nodup_crossing⟩

/-- The body of the function, in which `g` is a parameter and a function. -/
def crossingBody : Block :=
  .mk [.branch (.binary .lesser (.var "a" .zero) (.var "g" .zero) .zero)
    (.mk [] (some ⟨some (.call "g" [.var "a" .zero] .zero), .zero⟩)) none none .zero]
    (some ⟨some (.call "k" [.var "g" .zero, .var "a" .zero] .zero), .zero⟩)

/-- The parameters exchange their names. -/
def crossing (name : String) : String :=
  if name = "a" then "g" else "a"

theorem nodup_map_crossing : (crossingHead.params.map crossing).Nodup := by decide

/-- The names that the parameters take are not used for anything else in the body. -/
theorem captureFree_crossing (name : String) (mentioned : Mentions crossingBody.nodes name) :
    name ∉ crossingHead.params → name ∉ crossingHead.params.map crossing := by
  have isParam : name ∈ crossingHead.params := by
    obtain ⟨span, member⟩ := mentioned
    simp only [crossingBody, Block.nodes, Stmt.nodesAll, Stmt.nodes, Expr.nodes, Expr.nodesAll,
      Return.nodes, List.cons_append, List.nil_append, List.append_nil, List.mem_cons,
      Expr.var.injEq, reduceCtorEq, List.not_mem_nil, or_false, false_or] at member
    rcases member with ⟨rfl, _⟩ | ⟨rfl, _⟩ | ⟨rfl, _⟩ | ⟨rfl, _⟩ | ⟨rfl, _⟩ <;>
      simp [crossingHead]
  exact fun other => absurd isParam other

/-- The definition in which the parameters have exchanged their names. -/
def crossed : Renaming crossingHead crossingBody :=
  ⟨crossing, nodup_map_crossing, captureFree_crossing⟩

theorem lowerStmt_renamed_crossed :
    (Parse.ofTokens (crossingWords "a" "g")).result =
        .ok [.function crossingHead crossingBody] ∧
      (Parse.ofTokens (crossingWords "g" "a")).result = .ok [crossed.definition] ∧
      (lowerStmt crossed.definition workbench .empty).result = .ok "k" ∧
      ∃ code : Code.Body,
        (lowerStmt (.function crossingHead crossingBody) workbench .empty).table.find? "k" =
            some ⟨"k", ["a", "g"], some code⟩ ∧
          (lowerStmt crossed.definition workbench .empty).table.find? "k" =
            some ⟨"k", ["g", "a"], some code⟩ := by
  have lowered : (lowerStmt (.function crossingHead crossingBody) workbench .empty).result =
      .ok "k" := rfl
  obtain ⟨sameResult, -, -, made, -⟩ := lowerStmt_renamed crossed workbench .empty
  obtain ⟨-, code, found, foundCrossed, -⟩ := made "k" lowered
  exact ⟨by cbv, by cbv, sameResult.trans lowered, code, found, foundCrossed⟩

end Lowering
end ScalarScript
