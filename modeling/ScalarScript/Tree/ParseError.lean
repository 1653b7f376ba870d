import ScalarScript.Diagnostic
import ScalarScript.Token

/-!
# Grammatical errors

Most errors say what was expected and which token was found instead.  Two more concern
prototypes: a reserved function name and a repeated parameter.
-/

namespace ScalarScript

/-- The tokens that may close a block. -/
inductive Closing where
  /-- The body of a function or of an `else`, closed by `end`. -/
  | body
  /-- The first arm of a conditional, closed by `elif`, `else` or `end`. -/
  | arm
deriving DecidableEq, Repr

namespace Closing

/-- The kinds of token that close the block. -/
def kinds : Closing → List Token.Kind
  | .body => [.kwEnd]
  | .arm => [.kwElif, .kwElse, .kwEnd]

/-- Whether a token closes the block. -/
def closes (closing : Closing) (kind : Token.Kind) : Bool :=
  closing.kinds.contains kind

/-- The closing tokens in messages. -/
def describe : Closing → String
  | .body => "'end'"
  | .arm => "'elif', 'else' or 'end'"

end Closing

/-- What the grammar asks for at some place. -/
inductive Expectation where
  | expression
  | identifier
  | argumentDelimiter
  | closingParen
  | functionName
  | parameterList
  | parameterName
  | parameterDelimiter
  | functionEnd
  | blockEnd (closing : Closing)
  | thenKeyword
  | elseEnd
  | ifEnd
deriving DecidableEq, Repr

namespace Expectation

/-- The expectation in messages. -/
def describe : Expectation → String
  | .expression => "expression"
  | .identifier => "identifier"
  | .argumentDelimiter => "')' or ',' in argument list"
  | .closingParen => "')'"
  | .functionName => "function name in prototype"
  | .parameterList => "'(' in prototype"
  | .parameterName => "parameter name"
  | .parameterDelimiter => "')' or ',' in prototype"
  | .functionEnd => "'end' after function body"
  | .blockEnd closing => closing.describe
  | .thenKeyword => "'then' after condition"
  | .elseEnd => "'end' after else block"
  | .ifEnd => "'end' after if block"

/-- The part of the program that reports the missing thing. -/
def issuer : Expectation → String
  | .expression => "poly.parser.parse_primary"
  | .identifier => "poly.parser.parse_identifier_expr"
  | .argumentDelimiter => "poly.parser.parse_identifier_expr"
  | .closingParen => "poly.parser.parse_grouping_expr"
  | .functionName => "poly.parser.parse_prototype"
  | .parameterList => "poly.parser.parse_prototype"
  | .parameterName => "poly.parser.parse_prototype"
  | .parameterDelimiter => "poly.parser.parse_prototype"
  | .functionEnd => "poly.parser.parse_function_definition"
  | .blockEnd _ => "poly.parser.parse_block"
  | .thenKeyword => "poly.parser.parse_if_stmt"
  | .elseEnd => "poly.parser.parse_if_stmt"
  | .ifEnd => "poly.parser.parse_if_stmt"

end Expectation

/-- Why a list of tokens is no program. -/
inductive ParseError where
  /-- Another token stands where something was expected. -/
  | expected (what : Expectation) (found : Token)
  /-- A prototype has the name that is kept for top-level expressions. -/
  | reservedName (name : String) (span : Span)
  /-- A prototype names a parameter twice. -/
  | duplicateParameter (param function : String) (span : Span)
deriving Repr

namespace ParseError

/-- The message about a token that stands where something else was expected. -/
def expectation (what : String) (found : Token) : String :=
  s!"expected {what}, got {found.describe}"

/-- What is wrong. -/
def message : ParseError → String
  | .expected what found => expectation what.describe found
  | .reservedName name _ => s!"'{name}' is reserved for top-level expressions"
  | .duplicateParameter param function _ =>
      s!"duplicate parameter '{param}' in prototype '{function}'"

/-- The part of the program that reports the error. -/
def issuer : ParseError → String
  | .expected what _ => what.issuer
  | .reservedName .. => Expectation.functionName.issuer
  | .duplicateParameter .. => Expectation.parameterName.issuer

/-- Where the error is. -/
def span : ParseError → Span
  | .expected _ found => found.span
  | .reservedName _ span => span
  | .duplicateParameter _ _ span => span

/-- The error as it is presented. -/
def diagnostic (error : ParseError) : Diagnostic where
  issuer := error.issuer
  message := error.message
  span := some error.span

end ParseError
end ScalarScript
