import ScalarScript.Code.WellFormed
import ScalarScript.Diagnostic
import ScalarScript.Tree

/-!
# Lowering errors

Why a statement cannot become code.
-/

namespace ScalarScript

/-- The classes of lowering errors. -/
inductive LoweringError.Kind where
  | unknownVariable
  /-- An unknown callee, or a known one with the wrong number of arguments. -/
  | unknownFunction
  | invalidBinaryOperator
  | signatureMismatch
  | functionRedefinition
  | misplacedStatement
  | verification
deriving DecidableEq, Repr

namespace LoweringError.Kind

/-- The class in messages. -/
def describe : Kind → String
  | .unknownVariable => "unknown variable"
  | .unknownFunction => "unknown function"
  | .invalidBinaryOperator => "invalid binary operator"
  | .signatureMismatch => "signature mismatch"
  | .functionRedefinition => "function redefinition"
  | .misplacedStatement => "misplaced statement"
  | .verification => "verification failed"

/-- The name of the class. -/
def name : Kind → String
  | .unknownVariable => "UnknownVariable"
  | .unknownFunction => "UnknownFunction"
  | .invalidBinaryOperator => "InvalidBinaryOperator"
  | .signatureMismatch => "SignatureMismatch"
  | .functionRedefinition => "FunctionRedefinition"
  | .misplacedStatement => "MisplacedStatement"
  | .verification => "Verification"

/-- All classes. -/
def all : List Kind :=
  [.unknownVariable, .unknownFunction, .invalidBinaryOperator, .signatureMismatch,
    .functionRedefinition, .misplacedStatement, .verification]

/-- The part of the program that reports errors of the class. -/
def issuer (kind : Kind) : String :=
  s!"poly.lowering ({kind.describe})"

end LoweringError.Kind

/-- Why a statement cannot become code. -/
inductive LoweringError where
  | unknownVariable (name : String) (span : Span)
  | unknownFunction (name : String) (span : Span)
  | argumentCount (name : String) (expected found : Nat) (span : Span)
  | invalidBinaryOperator (op : Token.Kind) (span : Span)
  | signatureMismatch (name : String) (expected found : Nat) (span : Span)
  | functionRedefinition (name : String) (span : Span)
  /-- A statement that makes sense only inside a function stands outside. -/
  | outsideFunction (shape : Shape)
  /-- A statement that makes sense only outside functions stands inside one. -/
  | insideFunction (shape : Shape)
  | verification (error : Code.VerifyError) (span : Span)
deriving Repr

namespace LoweringError

/-- The class of the error. -/
def kind : LoweringError → Kind
  | .unknownVariable .. => .unknownVariable
  | .unknownFunction .. => .unknownFunction
  | .argumentCount .. => .unknownFunction
  | .invalidBinaryOperator .. => .invalidBinaryOperator
  | .signatureMismatch .. => .signatureMismatch
  | .functionRedefinition .. => .functionRedefinition
  | .outsideFunction .. => .misplacedStatement
  | .insideFunction .. => .misplacedStatement
  | .verification .. => .verification

/-- What is wrong. -/
def message : LoweringError → String
  | .unknownVariable name _ => s!"Unknown variable name '{name}'"
  | .unknownFunction name _ => s!"Unknown function referenced '{name}'"
  | .argumentCount name expected found _ =>
      s!"Incorrect number of arguments passed to '{name}' (expected {expected}, got {found})"
  | .invalidBinaryOperator op _ => s!"Invalid binary operator {op.describe}"
  | .signatureMismatch name expected found _ =>
      s!"'{name}' was declared with {expected} parameters, got {found}"
  | .functionRedefinition name _ => s!"Function '{name}' cannot be redefined"
  | .outsideFunction shape => s!"{shape.describe} is only allowed inside a function body"
  | .insideFunction shape => s!"{shape.describe} cannot be nested inside a function body"
  | .verification error _ => error.describe

/-- Where the error is. -/
def span? : LoweringError → Option Span
  | .unknownVariable _ span => some span
  | .unknownFunction _ span => some span
  | .argumentCount _ _ _ span => some span
  | .invalidBinaryOperator _ span => some span
  | .signatureMismatch _ _ _ span => some span
  | .functionRedefinition _ span => some span
  | .outsideFunction _ => none
  | .insideFunction _ => none
  | .verification _ span => some span

/-- The error as it is presented. -/
def diagnostic (error : LoweringError) : Diagnostic where
  issuer := error.kind.issuer
  message := error.message
  span := error.span?

end LoweringError
end ScalarScript
