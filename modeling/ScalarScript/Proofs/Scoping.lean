import ScalarScript.Proofs.Checked
import ScalarScript.Proofs.Printing

/-!
# Well-scoped definitions

Inside a function a name stands for a parameter, and a call names a function of the module, or the
function itself, with as many arguments as it has parameters.  A definition is well scoped when
this holds of all nodes of its body.  Lowering visits the nodes in one fixed order and stops at the
first one of which it does not hold; since what was built passes the checks, nothing else can stop
it.
-/

namespace ScalarScript

/-! ## The nodes of a body -/

mutual

/-- The nodes of an expression in the order in which lowering decides them: a call before its
arguments, an operator after its operands. -/
def Expr.nodes : Expr → List Expr
  | .num value span => [.num value span]
  | .var name span => [.var name span]
  | .binary op left right span => left.nodes ++ (right.nodes ++ [.binary op left right span])
  | .call callee args span => .call callee args span :: Expr.nodesAll args

/-- The nodes of expressions from left to right. -/
def Expr.nodesAll : List Expr → List Expr
  | [] => []
  | arg :: args => arg.nodes ++ Expr.nodesAll args

end

/-- The nodes of the value of a return. -/
def Return.nodes (value : Return) : List Expr :=
  match value.value with
  | some expr => expr.nodes
  | none => []

mutual

/-- The nodes of a statement; those of a condition come before those of the arms. -/
def Stmt.nodes : Stmt → List Expr
  | .prototype _ => []
  | .function _ body => body.nodes
  | .block body => body.nodes
  | .ret value => value.nodes
  | .expression _ body => body.nodes
  | .branch condition thenBlock none none _ => condition.nodes ++ thenBlock.nodes
  | .branch condition thenBlock none (some elseBlock) _ =>
      condition.nodes ++ (thenBlock.nodes ++ elseBlock.nodes)
  | .branch condition thenBlock (some elseIf) none _ =>
      condition.nodes ++ (thenBlock.nodes ++ elseIf.nodes)
  | .branch condition thenBlock (some elseIf) (some elseBlock) _ =>
      condition.nodes ++ (thenBlock.nodes ++ (elseIf.nodes ++ elseBlock.nodes))

/-- The nodes of the statements of a block and then of its return. -/
def Block.nodes : Block → List Expr
  | .mk statements none => Stmt.nodesAll statements
  | .mk statements (some value) => Stmt.nodesAll statements ++ value.nodes

/-- The nodes of statements in order. -/
def Stmt.nodesAll : List Stmt → List Expr
  | [] => []
  | statement :: statements => statement.nodes ++ Stmt.nodesAll statements

end

namespace Lowering

open Code (Builder Module)

/-- The nodes of what the body of a function is made from. -/
def Source.nodes : Source → List Expr
  | .block body => body.nodes
  | .expr body => body.nodes

/-! ## Where lowering stops -/

/-- Why lowering stops at the node, if it does: the name or the call has no meaning. -/
def fault? (table : Module) (scope : Scope) : Expr → Option LoweringError
  | .var name span =>
      match scope.lookup name with
      | some _ => none
      | none => some (.unknownVariable name span)
  | .call callee args span =>
      match table.find? callee with
      | none => some (.unknownFunction callee span)
      | some target =>
          if target.arity ≠ args.length then
            some (.argumentCount callee target.arity args.length span)
          else none
  | .num .. => none
  | .binary .. => none

/-- The error with which a step ended, if it did. -/
def stopped? {α : Type} : EStateM.Result LoweringError Builder α → Option LoweringError
  | .ok .. => none
  | .error error _ => some error

/-- On every builder the step ends with the given error, or goes through if there is none. -/
def Reports {α : Type} (build : Build α) (fault : Option LoweringError) : Prop :=
  ∀ builder, stopped? (build builder) = fault

namespace Reports

theorem pure
    {α : Type}
    (value : α) :
    Reports (Pure.pure value : Build α) none :=
  fun _ => rfl

theorem throw
    {α : Type}
    (error : LoweringError) :
    Reports (MonadExcept.throw error : Build α) (some error) :=
  fun _ => rfl

theorem change
    {α : Type}
    (step : Builder → α × Builder) :
    Reports (Lowering.change step) none :=
  fun _ => rfl

theorem emit (op : Code.Op) : Reports (Lowering.emit op) none :=
  fun _ => rfl

/-- Of two steps in a row the second is not reached if the first stops. -/
theorem bind
    {α β : Type}
    {first : Build α}
    {next : α → Build β}
    {fault later : Option LoweringError}
    (firstReports : Reports first fault)
    (nextReports : ∀ value, Reports (next value) later) :
    Reports (first >>= next) (fault.or later) := by
  intro builder
  rw [← firstReports builder]
  change stopped? (EStateM.bind first next builder) = _
  unfold EStateM.bind
  cases first builder with
  | error error middle => rfl
  | ok value middle => exact nextReports value middle

/-- Steps that cannot stop leave the verdict to those after them. -/
theorem after
    {α β : Type}
    {first : Build α}
    {next : α → Build β}
    {fault : Option LoweringError}
    (firstReports : Reports first none)
    (nextReports : ∀ value, Reports (next value) fault) :
    Reports (first >>= next) fault :=
  firstReports.bind nextReports

/-- Steps that cannot stop leave the verdict to those before them. -/
theorem before
    {α β : Type}
    {first : Build α}
    {next : α → Build β}
    {fault : Option LoweringError}
    (firstReports : Reports first fault)
    (nextReports : ∀ value, Reports (next value) none) :
    Reports (first >>= next) fault := by
  have both := firstReports.bind nextReports
  rwa [Option.or_none] at both

theorem ending
    {build : Build Unit}
    {fault : Option LoweringError}
    (reports : Reports build fault)
    (op : Code.Op) :
    Reports (Lowering.ending build op) fault := by
  apply reports.before
  intro _ builder
  change stopped? ((if builder.isTerminated then Pure.pure () else Lowering.emit op) builder) = none
  split
  · rfl
  · rfl

theorem arm
    {build : Build Unit}
    {fault : Option LoweringError}
    (reports : Reports build fault)
    (index merge : Nat) :
    Reports (Lowering.arm index merge build) fault := by
  intro builder
  rw [arm_eq_ending]
  exact reports.ending (.jump merge) _

variable {condition : Build Code.Operand} {thenArm elseArm : Build Unit}
  {fault thenFault elseFault : Option LoweringError}

theorem conditional_none
    (conditionReports : Reports condition fault)
    (thenReports : Reports thenArm thenFault) :
    Reports (conditional condition thenArm none) (fault.or thenFault) := by
  apply conditionReports.bind
  intro value
  apply (change _).after
  intro flag
  apply (change _).after
  intro thenIndex
  apply (change _).after
  intro merge
  apply (emit _).after
  intro _
  apply (thenReports.arm thenIndex merge).before
  exact fun _ _ => rfl

/-- A conditional is decided in the order of its text. -/
theorem conditional_some
    (conditionReports : Reports condition fault)
    (thenReports : Reports thenArm thenFault)
    (elseReports : Reports elseArm elseFault) :
    Reports (conditional condition thenArm (some elseArm)) (fault.or (thenFault.or elseFault)) := by
  apply conditionReports.bind
  intro value
  apply (change _).after
  intro flag
  apply (change _).after
  intro thenIndex
  apply (change _).after
  intro elseIndex
  apply (change _).after
  intro merge
  apply (emit _).after
  intro _
  apply (thenReports.arm thenIndex merge).bind
  intro _
  apply (elseReports.arm elseIndex merge).before
  exact fun _ _ => rfl

end Reports

section

variable {table : Module} {scope : Scope}

/-- Operators of a grammatical tree are applied. -/
theorem binary_reports
    {op : Token.Kind}
    (joins : op.precedence?.isSome = true)
    (lhs rhs : Code.Operand)
    (span : Span) :
    Reports (binary op lhs rhs span) none := by
  unfold binary
  cases isArith : arith? op with
  | some arith => exact .change _
  | none =>
      cases isPredicate : predicate? op with
      | some predicate => exact (Reports.change _).after fun flag => .change _
      | none => cases op <;> simp_all [arith?, predicate?, Token.Kind.precedence?]

theorem lowerArgs_reports
    {args : List Expr}
    (reports : ∀ arg ∈ args,
      Reports (lowerExpr table scope arg) (arg.nodes.findSome? (fault? table scope))) :
    Reports (lowerArgs table scope args)
      ((Expr.nodesAll args).findSome? (fault? table scope)) := by
  induction args with
  | nil =>
      rw [lowerArgs]
      exact .pure []
  | cons arg args inductionHypothesis =>
      obtain ⟨first, others⟩ := List.forall_mem_cons.1 reports
      rw [lowerArgs, Expr.nodesAll, List.findSome?_append]
      apply first.bind
      intro value
      apply (inductionHypothesis others).before
      exact fun values => .pure _

/-- Lowering an expression stops at the first node with a fault. -/
theorem lowerExpr_reports
    {expr : Expr}
    (grammatical : expr.Grammatical) :
    Reports (lowerExpr table scope expr) (expr.nodes.findSome? (fault? table scope)) := by
  induction grammatical with
  | num value span =>
      rw [lowerExpr, Expr.nodes]
      exact .pure _
  | var name span =>
      rw [lowerExpr, Expr.nodes, List.findSome?_singleton, fault?]
      cases scope.lookup name with
      | some operand => exact .pure _
      | none => exact .throw _
  | binary span joins _ _ leftReports rightReports =>
      rw [lowerExpr, Expr.nodes, List.findSome?_append, List.findSome?_append,
        List.findSome?_singleton]
      apply leftReports.bind
      intro lhs
      apply rightReports.bind
      intro rhs
      exact binary_reports joins lhs rhs span
  | @call callee args span _ argsReport =>
      rw [lowerExpr, Expr.nodes, List.findSome?_cons, fault?]
      cases table.find? callee with
      | none => exact .throw _
      | some target =>
          by_cases sameCount : target.arity = args.length
          · simp only [ne_eq, sameCount, not_true_eq_false, if_false]
            exact (lowerArgs_reports argsReport).before fun values => .change _
          · simp only [ne_eq, sameCount, not_false_eq_true, if_true]
            exact .throw _

theorem lowerReturn_reports
    {value : Return}
    (grammatical : value.Grammatical) :
    Reports (lowerReturn table scope value) (value.nodes.findSome? (fault? table scope)) := by
  unfold lowerReturn Return.nodes
  cases isValue : value.value with
  | none => exact .emit _
  | some expr => exact (lowerExpr_reports (grammatical expr isValue)).before fun operand => .emit _

theorem lowerStmts_reports
    {statements : List Stmt}
    (reports : ∀ statement ∈ statements,
      Reports (lowerBodyStmt table scope statement)
        (statement.nodes.findSome? (fault? table scope))) :
    Reports (lowerStmts table scope statements)
      ((Stmt.nodesAll statements).findSome? (fault? table scope)) := by
  induction statements with
  | nil =>
      rw [lowerStmts]
      exact .pure ()
  | cons statement statements inductionHypothesis =>
      obtain ⟨first, others⟩ := List.forall_mem_cons.1 reports
      rw [lowerStmts, Stmt.nodesAll, List.findSome?_append]
      exact first.bind fun _ => inductionHypothesis others

theorem lowerBlock_reports
    {statements : List Stmt}
    {tail : Option Return}
    (reports : ∀ statement ∈ statements,
      Reports (lowerBodyStmt table scope statement)
        (statement.nodes.findSome? (fault? table scope)))
    (tailGrammatical : ∀ value ∈ tail, value.Grammatical) :
    Reports (lowerBlock table scope (.mk statements tail))
      ((Block.mk statements tail).nodes.findSome? (fault? table scope)) := by
  cases tail with
  | none =>
      rw [lowerBlock, Block.nodes]
      exact (lowerStmts_reports reports).before fun _ => .pure ()
  | some value =>
      rw [lowerBlock, Block.nodes, List.findSome?_append]
      exact (lowerStmts_reports reports).bind fun _ =>
        lowerReturn_reports (tailGrammatical value rfl)

/-- Lowering a statement inside a function stops at the first node with a fault. -/
theorem lowerBodyStmt_reports
    {statement : Stmt}
    (inner : statement.Inner) :
    Reports (lowerBodyStmt table scope statement)
      (statement.nodes.findSome? (fault? table scope)) := by
  induction inner with
  | expression _ grammatical =>
      rw [lowerBodyStmt, Stmt.nodes]
      exact (lowerExpr_reports grammatical).before fun _ => .pure ()
  | done span conditionGrammatical _ tail thenReports =>
      rw [lowerBodyStmt, Stmt.nodes, List.findSome?_append]
      exact (lowerExpr_reports conditionGrammatical).conditional_none
        (lowerBlock_reports thenReports tail)
  | otherwise span conditionGrammatical _ tail _ otherTail thenReports elseReports =>
      rw [lowerBodyStmt, Stmt.nodes, List.findSome?_append, List.findSome?_append]
      exact (lowerExpr_reports conditionGrammatical).conditional_some
        (lowerBlock_reports thenReports tail) (lowerBlock_reports elseReports otherTail)
  | elif span conditionGrammatical _ tail _ thenReports elseReports =>
      rw [lowerBodyStmt, Stmt.nodes, List.findSome?_append, List.findSome?_append]
      exact (lowerExpr_reports conditionGrammatical).conditional_some
        (lowerBlock_reports thenReports tail) elseReports

/-- Lowering the body of a function stops at the first node with a fault. -/
theorem lowerSource_reports
    {source : Source}
    (grammatical : source.Grammatical) :
    Reports (lowerSource table scope source) (source.nodes.findSome? (fault? table scope)) := by
  cases source with
  | block body =>
      obtain ⟨statements, tail⟩ := body
      rw [lowerSource_block_eq_ending]
      apply (lowerBlock_reports _ grammatical.2).ending
      exact fun statement member => lowerBodyStmt_reports (grammatical.1 statement member)
  | expr body => exact (lowerExpr_reports grammatical).before fun operand => .emit _

end

end Lowering

/-! ## Scopes -/

theorem Scope.lookup_ofParams_eq_none_iff
    {function : String}
    {params : List String}
    {name : String} :
    (Scope.ofParams function params).lookup name = none ↔ name ∉ params := by
  constructor
  · intro unbound member
    obtain ⟨index, found⟩ := List.getElem?_of_mem member
    rw [Scope.lookup, List.lookup_eq_none_iff] at unbound
    have bound : (name, Code.Operand.arg index) ∈ (Scope.ofParams function params).bindings := by
      rw [Scope.bindings_ofParams, List.mem_reverse]
      exact List.mem_map.2 ⟨(name, index), List.mem_zipIdx_iff_getElem?.2 found, rfl⟩
    simpa using unbound _ bound
  · intro absent
    cases found : (Scope.ofParams function params).lookup name with
    | none => rfl
    | some operand =>
        obtain ⟨index, _, isParam⟩ := Scope.lookup_ofParams found
        exact absurd (List.mem_of_getElem? isParam) absent

/-- The node means something inside the definition: a name stands for a parameter, and a call
passes as many arguments as a function of the module, or the function itself, has parameters. -/
def Expr.Resolved (table : Code.Module) (proto : Prototype) : Expr → Prop
  | .var name _ => name ∈ proto.params
  | .call callee args _ =>
      (∃ target, table.find? callee = some target ∧ target.arity = args.length) ∨
        callee = proto.name ∧ proto.arity = args.length
  | .num .. => True
  | .binary .. => True

/-- The error says that the name or the function of the node is not known, at its place. -/
def Expr.BlamedBy (error : LoweringError) : Expr → Prop
  | .var _ span => error.kind = .unknownVariable ∧ error.span? = some span
  | .call _ _ span => error.kind = .unknownFunction ∧ error.span? = some span
  | .num .. => False
  | .binary .. => False

/-- The statement failed with an error of the class. -/
def Lowered.FailsWith (lowered : Lowered) (kind : LoweringError.Kind) : Prop :=
  ∃ error, lowered.result = .error error ∧ error.kind = kind

namespace Lowering

open Code (Module)

theorem blamedBy_of_fault?
    {table : Module}
    {scope : Scope}
    {node : Expr}
    {error : LoweringError}
    (isFault : fault? table scope node = some error) :
    node.BlamedBy error := by
  cases node with
  | num value span => cases isFault
  | binary op left right span => cases isFault
  | var name span =>
      rw [fault?] at isFault
      split at isFault
      · cases isFault
      · cases isFault
        exact ⟨rfl, rfl⟩
  | call callee args span =>
      rw [fault?] at isFault
      split at isFault
      · cases isFault
        exact ⟨rfl, rfl⟩
      · split at isFault
        · cases isFault
          exact ⟨rfl, rfl⟩
        · cases isFault

/-- In a definition a node has no fault exactly when it means something. -/
theorem fault?_eq_none_iff
    {table : Module}
    {proto : Prototype}
    (definable : Definable table proto)
    (node : Expr) :
    fault? (table.put (declaration proto)) (Scope.ofParams proto.name proto.params) node = none ↔
      node.Resolved table proto := by
  cases node with
  | num value span => simp [fault?, Expr.Resolved]
  | binary op left right span => simp [fault?, Expr.Resolved]
  | var name span =>
      rw [Expr.Resolved, ← not_iff_not, ← Scope.lookup_ofParams_eq_none_iff, fault?]
      cases (Scope.ofParams proto.name proto.params).lookup name with
      | none => simp
      | some operand => simp
  | call callee args span =>
      rw [Expr.Resolved, fault?, Module.find?_put, name_declaration]
      by_cases itself : callee = proto.name
      · -- the declaration that stands for the function agrees with what was there before
        subst itself
        have arity : (declaration proto).arity = proto.arity := rfl
        have known : (∃ target, table.find? proto.name = some target ∧
            target.arity = args.length) → proto.arity = args.length := by
          rintro ⟨target, found, count⟩
          exact (definable target found).2.symm.trans count
        simp only [if_true, arity, true_and, or_iff_right_of_imp known]
        by_cases count : proto.arity = args.length
        · simp [count]
        · simp [count]
      · simp only [itself, if_false, false_and, or_false]
        cases table.find? callee with
        | none => simp
        | some target =>
            by_cases count : target.arity = args.length
            · simp [count]
            · simp [count]

/-- All nodes of the body mean something inside the definition. -/
def Source.WellScoped (table : Module) (proto : Prototype) (source : Source) : Prop :=
  ∀ node ∈ source.nodes, node.Resolved table proto

/-! ## What comes of a definition -/

/-- The module has a function of the name, with a body. -/
def Defines (table : Module) (name : String) : Prop :=
  ∃ function, table.find? name = some function ∧ function.isDefined = true

/-- The module has a function of the name, with another number of parameters. -/
def Disagrees (table : Module) (proto : Prototype) : Prop :=
  ∃ function, table.find? proto.name = some function ∧ function.arity ≠ proto.arity

theorem definable_of_not
    {table : Module}
    {proto : Prototype}
    (undefined : ¬Defines table proto.name)
    (agrees : ¬Disagrees table proto) :
    Definable table proto := by
  intro former found
  constructor
  · cases code : former.body with
    | none => rfl
    | some body => exact absurd ⟨former, found, by simp [Code.Function.isDefined, code]⟩ undefined
  · by_contra differs
    exact agrees ⟨former, found, differs⟩

section

variable {table : Module} {proto : Prototype} {source : Source} {scope : Scope}

theorem lowerFunction_defines (defined : Defines table proto.name) :
    (lowerFunction proto source table scope).FailsWith .functionRedefinition := by
  obtain ⟨former, found, isDefined⟩ := defined
  refine ⟨.functionRedefinition proto.name proto.span, ?_, rfl⟩
  simp only [lowerFunction, found, isDefined, if_true]

theorem lowerFunction_disagrees
    (undefined : ¬Defines table proto.name)
    (disagrees : Disagrees table proto) :
    (lowerFunction proto source table scope).FailsWith .signatureMismatch := by
  obtain ⟨former, found, differs⟩ := disagrees
  have notDefined : ¬former.isDefined = true := fun isDefined =>
    undefined ⟨former, found, isDefined⟩
  refine ⟨.signatureMismatch proto.name former.arity proto.arity proto.span, ?_, rfl⟩
  simp only [lowerFunction, found, notDefined, if_false, ne_eq, differs, not_false_eq_true,
    if_true, Bool.false_eq_true]

variable (grammatical : source.Grammatical)
include grammatical

/-- A definition that is not refused at once goes through unless a node of its body has a
fault. -/
theorem lowerFunction_result (definable : Definable table proto) :
    (lowerFunction proto source table scope).result =
      match source.nodes.findSome?
        (fault? (table.put (declaration proto)) (Scope.ofParams proto.name proto.params)) with
      | none => .ok proto.name
      | some error => .error error := by
  have came := lowerFunction_definition table proto source scope
  have reported : stopped? (buildBody table proto source) = _ := lowerSource_reports grammatical _
  rw [← reported]
  generalize (lowerFunction proto source table scope).result = result at came ⊢
  generalize (lowerFunction proto source table scope).table = final at came
  cases came with
  | redefined found isDefined =>
      simp [Code.Function.isDefined, (definable _ found).1] at isDefined
  | mismatched found differs => exact absurd (definable _ found).2 differs
  | unbuilt _ stopped => rw [stopped, stopped?]
  | rejected _ built defect =>
      rw [verifyFunction_of_built grammatical built] at defect
      cases defect
  | made _ built _ => rw [built, stopped?]

/-- A definition goes through if all nodes mean something; otherwise the first that does not is
blamed. -/
theorem lowerFunction_scoped (definable : Definable table proto) :
    source.WellScoped table proto ∧
        (lowerFunction proto source table scope).result = .ok proto.name ∨
      ∃ before node after error, source.nodes = before ++ node :: after ∧
        (∀ earlier ∈ before, earlier.Resolved table proto) ∧ ¬node.Resolved table proto ∧
        (lowerFunction proto source table scope).result = .error error ∧ node.BlamedBy error := by
  rw [lowerFunction_result grammatical definable]
  cases verdict : source.nodes.findSome?
      (fault? (table.put (declaration proto)) (Scope.ofParams proto.name proto.params)) with
  | none =>
      left
      refine ⟨?_, rfl⟩
      intro node member
      apply (fault?_eq_none_iff definable node).1
      exact List.findSome?_eq_none_iff.1 verdict node member
  | some error =>
      right
      obtain ⟨before, node, after, split, isFault, earlier⟩ := List.findSome?_eq_some_iff.1 verdict
      refine ⟨before, node, after, error, split, ?_, ?_, rfl, blamedBy_of_fault? isFault⟩
      · intro other member
        exact (fault?_eq_none_iff definable other).1 (earlier other member)
      · intro resolved
        rw [(fault?_eq_none_iff definable node).2 resolved] at isFault
        cases isFault

theorem lowerFunction_ok_iff (definable : Definable table proto) :
    (∃ name, (lowerFunction proto source table scope).result = .ok name) ↔
      source.WellScoped table proto := by
  rcases lowerFunction_scoped grammatical definable
    with ⟨wellScoped, succeeded⟩ | ⟨before, node, after, error, split, _, unresolved, failed, _⟩
  · exact ⟨fun _ => wellScoped, fun _ => ⟨proto.name, succeeded⟩⟩
  · constructor
    · rintro ⟨name, succeeded⟩
      cases failed.symm.trans succeeded
    · intro wellScoped
      refine absurd (wellScoped node ?_) unresolved
      rw [split]
      exact List.mem_append_right _ (.head _)

theorem lowerFunction_blames
    (definable : Definable table proto)
    (notScoped : ¬source.WellScoped table proto) :
    ∃ before node after error, source.nodes = before ++ node :: after ∧
      (∀ earlier ∈ before, earlier.Resolved table proto) ∧ ¬node.Resolved table proto ∧
      (lowerFunction proto source table scope).result = .error error ∧ node.BlamedBy error := by
  rcases lowerFunction_scoped grammatical definable with ⟨wellScoped, _⟩ | blamed
  · exact absurd wellScoped notScoped
  · exact blamed

/-- The classes of errors with which a definition can fail, each with its reason. -/
theorem lowerFunction_failsWith
    {kind : LoweringError.Kind}
    (failed : (lowerFunction proto source table scope).FailsWith kind) :
    kind = .functionRedefinition ∧ Defines table proto.name ∨
      kind = .signatureMismatch ∧ Disagrees table proto ∨
        kind = .unknownVariable ∨ kind = .unknownFunction := by
  obtain ⟨error, isError, rfl⟩ := failed
  by_cases defined : Defines table proto.name
  · obtain ⟨other, isOther, kind⟩ := lowerFunction_defines defined
    cases isError.symm.trans isOther
    exact .inl ⟨kind, defined⟩
  · by_cases disagrees : Disagrees table proto
    · obtain ⟨other, isOther, kind⟩ := lowerFunction_disagrees defined disagrees
      cases isError.symm.trans isOther
      exact .inr (.inl ⟨kind, disagrees⟩)
    · right
      right
      rcases lowerFunction_scoped grammatical (definable_of_not defined disagrees)
        with ⟨_, succeeded⟩ | ⟨_, node, _, other, _, _, _, isOther, blamed⟩
      · cases isError.symm.trans succeeded
      · cases isError.symm.trans isOther
        cases node with
        | num value span => exact blamed.elim
        | binary op left right span => exact blamed.elim
        | var name span => exact .inl blamed.1
        | call callee args span => exact .inr blamed.1

end

/-- The function that a statement defines, with what its body is made from. -/
def defining? : Stmt → Option (Prototype × Source)
  | .function proto body => some (proto, .block body)
  | .expression proto body => some (proto, .expr body)
  | _ => none

theorem lowerStmt_of_defining?
    {statement : Stmt}
    {proto : Prototype}
    {source : Source}
    (defines : defining? statement = some (proto, source))
    (table : Module)
    (scope : Scope) :
    lowerStmt statement table scope = lowerFunction proto source table scope := by
  cases statement with
  | function _ body =>
      cases defines
      rfl
  | expression _ body =>
      cases defines
      rfl
  | _ => cases defines

theorem grammatical_of_defining?
    {statement : Stmt}
    (outer : statement.Outer)
    {proto : Prototype}
    {source : Source}
    (defines : defining? statement = some (proto, source)) :
    source.Grammatical := by
  cases outer with
  | prototype => cases defines
  | function _ grammatical =>
      cases defines
      exact grammatical
  | expression _ grammatical =>
      cases defines
      exact grammatical

/-- A declaration fails only for the number of its parameters. -/
theorem lowerPrototype_failsWith
    {proto : Prototype}
    {table : Module}
    {scope : Scope}
    {kind : LoweringError.Kind}
    (failed : (lowerPrototype proto table scope).FailsWith kind) :
    kind = .signatureMismatch := by
  obtain ⟨error, isError, rfl⟩ := failed
  unfold lowerPrototype at isError
  split at isError
  · split at isError
    · cases isError
      rfl
    · cases isError
  · cases isError

/-- A statement of a program never fails for its shape, for an operator or in the checks. -/
theorem not_failsWith_of_outer
    {statement : Stmt}
    (outer : statement.Outer)
    (table : Module)
    (scope : Scope) :
    ∀ kind ∈ [LoweringError.Kind.verification, .misplacedStatement, .invalidBinaryOperator],
      ¬(lowerStmt statement table scope).FailsWith kind := by
  have ofDefinition : ∀ proto source, defining? statement = some (proto, source) →
      ∀ kind ∈ [LoweringError.Kind.verification, .misplacedStatement, .invalidBinaryOperator],
        ¬(lowerStmt statement table scope).FailsWith kind := by
    intro proto source defines kind isOther failed
    rw [lowerStmt_of_defining? defines] at failed
    rcases lowerFunction_failsWith (grammatical_of_defining? outer defines) failed
      with ⟨rfl, _⟩ | ⟨rfl, _⟩ | rfl | rfl
    · simp at isOther
    · simp at isOther
    · simp at isOther
    · simp at isOther
  cases outer with
  | prototype =>
      intro kind isOther failed
      cases lowerPrototype_failsWith failed
      simp at isOther
  | function => exact ofDefinition _ _ rfl
  | expression => exact ofDefinition _ _ rfl

/-- A definition that was read fails as a redefinition exactly when its name is defined, otherwise
for its parameters exactly when their number differs from that of the declaration, and otherwise it
goes through exactly when it is well scoped.  If it is not, then the first node without a meaning
is blamed.  No statement that was read fails for its shape, for an operator or in the checks. -/
theorem lowerStmt_scoped
    {tokens : List Token}
    {statements : List Stmt}
    (parsed : (Parse.ofTokens tokens).result = .ok statements)
    {statement : Stmt}
    (member : statement ∈ statements)
    (table : Module)
    (scope : Scope) :
    (∀ proto source, defining? statement = some (proto, source) →
      ((lowerStmt statement table scope).FailsWith .functionRedefinition ↔
        Defines table proto.name) ∧
      (¬Defines table proto.name →
        ((lowerStmt statement table scope).FailsWith .signatureMismatch ↔
          Disagrees table proto)) ∧
      (¬Defines table proto.name → ¬Disagrees table proto →
        ((∃ name, (lowerStmt statement table scope).result = .ok name) ↔
          source.WellScoped table proto) ∧
        (¬source.WellScoped table proto →
          ∃ before node after error, source.nodes = before ++ node :: after ∧
            (∀ earlier ∈ before, earlier.Resolved table proto) ∧
            ¬node.Resolved table proto ∧
            (lowerStmt statement table scope).result = .error error ∧
            node.BlamedBy error))) ∧
      ∀ kind ∈ [LoweringError.Kind.verification, .misplacedStatement, .invalidBinaryOperator],
        ¬(lowerStmt statement table scope).FailsWith kind := by
  have outer := Parse.ofTokens_outer parsed statement member
  refine ⟨?_, not_failsWith_of_outer outer table scope⟩
  intro proto source defines
  have grammatical := grammatical_of_defining? outer defines
  rw [lowerStmt_of_defining? defines]
  refine ⟨⟨?_, lowerFunction_defines⟩, ?_, ?_⟩
  · intro failed
    simpa using lowerFunction_failsWith grammatical failed
  · intro undefined
    refine ⟨?_, lowerFunction_disagrees undefined⟩
    intro failed
    simpa using lowerFunction_failsWith grammatical failed
  · intro undefined agrees
    have definable := definable_of_not undefined agrees
    exact ⟨lowerFunction_ok_iff grammatical definable,
      lowerFunction_blames grammatical definable⟩

/-- The function `f(a)`. -/
def strayedHead : Prototype :=
  ⟨"f", ["a"], .zero, List.nodup_singleton "a"⟩

/-- The body `if a < b then return g() end return f(a)`. -/
def strayedBody : Block :=
  .mk [.branch (.binary .lesser (.var "a" .zero) (.var "b" .zero) .zero)
    (.mk [] (some ⟨some (.call "g" [] .zero), .zero⟩)) none none .zero]
    (some ⟨some (.call "f" [.var "a" .zero] .zero), .zero⟩)

/-- Two nodes of the body have no meaning: the name `b`, which is blamed, and the call of `g`
without the argument that it takes. -/
theorem lowerStmt_scoped_strayed :
    ∃ before node after error, strayedBody.nodes = before ++ node :: after ∧
      (∀ earlier ∈ before, earlier.Resolved workbench strayedHead) ∧
      ¬node.Resolved workbench strayedHead ∧
      (lowerStmt (.function strayedHead strayedBody) workbench .empty).result = .error error ∧
      node.BlamedBy error := by
  have parsed : (Parse.ofTokens [.word .kwDef, .ofName "f", .word .leftParen, .ofName "a",
      .word .rightParen, .word .kwIf, .ofName "a", .word .lesser, .ofName "b", .word .kwThen,
      .word .kwReturn, .ofName "g", .word .leftParen, .word .rightParen, .word .kwEnd,
      .word .kwReturn, .ofName "f", .word .leftParen, .ofName "a", .word .rightParen,
      .word .kwEnd]).result = .ok [.function strayedHead strayedBody] := by cbv
  have undefined : ¬Defines workbench "f" := by
    rintro ⟨_, ⟨⟩, isDefined⟩
    cases isDefined
  have agrees : ¬Disagrees workbench strayedHead := by
    rintro ⟨_, ⟨⟩, differs⟩
    exact differs rfl
  have notScoped : ¬(Source.block strayedBody).WellScoped workbench strayedHead := by
    intro wellScoped
    have bound : "b" ∈ ["a"] := wellScoped (.var "b" .zero) (.tail _ (.head _))
    simp at bound
  have verdict := (lowerStmt_scoped parsed (.head _) workbench .empty).1 _ _ rfl
  exact (verdict.2.2 undefined agrees).2 notScoped

end Lowering
end ScalarScript
