import ScalarScript.Token

/-!
# Syntax trees

Expressions, prototypes, blocks and statements.  Every node knows the span that a
diagnostic about it points to.  A tree need not come from a text: operators may be any
token, and blocks may hold any statement; what makes sense where is decided when the tree
is lowered.
-/

namespace ScalarScript

/-- An expression. -/
inductive Expr where
  | num (value : Float) (span : Span)
  | var (name : String) (span : Span)
  | binary (op : Token.Kind) (left right : Expr) (span : Span)
  | call (callee : String) (args : List Expr) (span : Span)
deriving Repr

namespace Expr

/-- The span that diagnostics about the expression point to. -/
def span : Expr → Span
  | .num _ span => span
  | .var _ span => span
  | .binary _ _ _ span => span
  | .call _ _ span => span

end Expr

/-- The first name of a list that is in `seen` or stands earlier in the list. -/
def firstRepeat? (seen : List String) : List String → Option String
  | [] => none
  | name :: names =>
      if name ∈ seen then some name else firstRepeat? (name :: seen) names

/-- Without a repeated name the names are pairwise distinct and none was seen before. -/
theorem nodup_of_firstRepeat?_eq_none
    {seen names : List String}
    (none_repeats : firstRepeat? seen names = none) :
    names.Nodup ∧ ∀ name ∈ names, name ∉ seen := by
  induction names generalizing seen with
  | nil => simp
  | cons name names ih =>
      simp only [firstRepeat?] at none_repeats
      split at none_repeats
      · simp at none_repeats
      · rename_i fresh
        obtain ⟨distinct, unseen⟩ := ih none_repeats
        refine ⟨List.nodup_cons.2 ⟨fun member => ?_, distinct⟩, ?_⟩
        · exact unseen name member List.mem_cons_self
        · intro other member
          rcases List.mem_cons.1 member with rfl | member
          · exact fresh
          · exact fun seen_before => unseen other member (List.mem_cons_of_mem _ seen_before)

/-- The name and the parameters of a function.  Parameters have distinct names. -/
structure Prototype where
  name : String
  params : List String
  span : Span
  distinct : params.Nodup
deriving Repr

namespace Prototype

/-- The name of the function that wraps a top-level expression. -/
def anonymousName : String := "__anon_expr"

/-- A prototype with the given parameters, or the first name that is repeated. -/
def make (name : String) (params : List String) (span : Span) : Except String Prototype :=
  match found : firstRepeat? [] params with
  | some repeated => .error repeated
  | none => .ok ⟨name, params, span, (nodup_of_firstRepeat?_eq_none found).1⟩

/-- The prototype of a top-level expression. -/
def anonymous (span : Span) : Prototype :=
  ⟨anonymousName, [], span, List.nodup_nil⟩

/-- The number of parameters. -/
def arity (proto : Prototype) : Nat :=
  proto.params.length

end Prototype

/-- A return with its value, if it has one. -/
structure Return where
  value : Option Expr
  span : Span
deriving Repr

mutual

/-- A statement. -/
inductive Stmt where
  | prototype (proto : Prototype)
  | function (proto : Prototype) (body : Block)
  | block (body : Block)
  | ret (value : Return)
  | expression (proto : Prototype) (body : Expr)
  /-- A conditional; an `elif` arm is a statement of its own. -/
  | branch (condition : Expr) (thenBlock : Block) (elseIf : Option Stmt)
      (elseBlock : Option Block) (span : Span)

/-- Statements, perhaps followed by a return. -/
inductive Block where
  | mk (statements : List Stmt) (tail : Option Return)

end

namespace Block

/-- The statements before the return. -/
def statements : Block → List Stmt
  | .mk statements _ => statements

/-- The return at the end. -/
def tail : Block → Option Return
  | .mk _ tail => tail

/-- The block with one more statement in front. -/
def cons (statement : Stmt) (block : Block) : Block :=
  .mk (statement :: block.statements) block.tail

end Block

/-- The kinds of nodes. -/
inductive Shape where
  | numberExpr
  | variableExpr
  | binaryExpr
  | callExpr
  | prototypeStmt
  | functionStmt
  | blockStmt
  | returnStmt
  | expressionStmt
  | ifStmt
deriving DecidableEq, Repr

namespace Shape

/-- The kind in messages. -/
def describe : Shape → String
  | .numberExpr => "number expression"
  | .variableExpr => "variable expression"
  | .binaryExpr => "binary expression"
  | .callExpr => "call expression"
  | .prototypeStmt => "prototype"
  | .functionStmt => "function definition"
  | .blockStmt => "block"
  | .returnStmt => "return statement"
  | .expressionStmt => "expression statement"
  | .ifStmt => "if statement"

/-- The name of the kind. -/
def name : Shape → String
  | .numberExpr => "NumberExpr"
  | .variableExpr => "VariableExpr"
  | .binaryExpr => "BinaryExpr"
  | .callExpr => "CallExpr"
  | .prototypeStmt => "PrototypeStmt"
  | .functionStmt => "FunctionStmt"
  | .blockStmt => "BlockStmt"
  | .returnStmt => "ReturnStmt"
  | .expressionStmt => "ExpressionStmt"
  | .ifStmt => "IfStmt"

end Shape

/-- The kind of an expression. -/
def Expr.shape : Expr → Shape
  | .num .. => .numberExpr
  | .var .. => .variableExpr
  | .binary .. => .binaryExpr
  | .call .. => .callExpr

namespace Stmt

/-- The kind of a statement. -/
def shape : Stmt → Shape
  | .prototype .. => .prototypeStmt
  | .function .. => .functionStmt
  | .block .. => .blockStmt
  | .ret .. => .returnStmt
  | .expression .. => .expressionStmt
  | .branch .. => .ifStmt

/-- A top-level expression, wrapped in the anonymous prototype. -/
def ofExpr (body : Expr) : Stmt :=
  .expression (.anonymous body.span) body

/-- The prototype of a statement that declares or defines a function. -/
def proto? : Stmt → Option Prototype
  | .prototype proto => some proto
  | .function proto _ => some proto
  | .expression proto _ => some proto
  | _ => none

end Stmt
end ScalarScript
