import ScalarScript.Span
import ScalarScript.Decimal.Layout

/-!
# Tokens

The words of the language: punctuation, keywords, identifiers, numbers and strings, and
the mark at the end of the input.
-/

namespace ScalarScript

/-- The kind of a token. -/
inductive Token.Kind where
  | eof
  | equal
  | plus
  | minus
  | star
  | slash
  | greater
  | lesser
  | bang
  | leftParen
  | rightParen
  | comma
  | bangEqual
  | equalEqual
  | greaterEqual
  | lesserEqual
  | kwAnd
  | kwOr
  | kwIf
  | kwElif
  | kwElse
  | kwThen
  | kwLet
  | kwDef
  | kwEnd
  | kwExtern
  | kwReturn
  | identifier
  | number
  | string
deriving DecidableEq, Repr

/-- What a token carries besides its kind. -/
inductive Token.Payload where
  | number (value : Float)
  | text (value : String)
deriving Repr

/-- A word of the language with its place in the text. -/
structure Token where
  kind : Token.Kind
  payload : Option Token.Payload
  span : Span
deriving Repr

namespace Token

namespace Kind

/-- All kinds. -/
def all : List Kind :=
  [.eof, .equal, .plus, .minus, .star, .slash, .greater, .lesser, .bang, .leftParen, .rightParen,
    .comma, .bangEqual, .equalEqual, .greaterEqual, .lesserEqual, .kwAnd, .kwOr, .kwIf, .kwElif,
    .kwElse, .kwThen, .kwLet, .kwDef, .kwEnd, .kwExtern, .kwReturn, .identifier, .number, .string]

/-- The name of a kind in token listings. -/
def name : Kind → String
  | .eof => "Eof"
  | .equal => "Equal"
  | .plus => "Plus"
  | .minus => "Minus"
  | .star => "Star"
  | .slash => "Slash"
  | .greater => "Greater"
  | .lesser => "Lesser"
  | .bang => "Bang"
  | .leftParen => "LeftParen"
  | .rightParen => "RightParen"
  | .comma => "Comma"
  | .bangEqual => "BangEqual"
  | .equalEqual => "EqualEqual"
  | .greaterEqual => "GreaterEqual"
  | .lesserEqual => "LesserEqual"
  | .kwAnd => "And"
  | .kwOr => "Or"
  | .kwIf => "If"
  | .kwElif => "Elif"
  | .kwElse => "Else"
  | .kwThen => "Then"
  | .kwLet => "Let"
  | .kwDef => "Def"
  | .kwEnd => "End"
  | .kwExtern => "Extern"
  | .kwReturn => "Return"
  | .identifier => "Identifier"
  | .number => "Number"
  | .string => "String"

/-- The characters of punctuation and keywords; a describing word for the other kinds. -/
def lexeme : Kind → String
  | .eof => "EOF"
  | .equal => "="
  | .plus => "+"
  | .minus => "-"
  | .star => "*"
  | .slash => "/"
  | .greater => ">"
  | .lesser => "<"
  | .bang => "!"
  | .leftParen => "("
  | .rightParen => ")"
  | .comma => ","
  | .bangEqual => "!="
  | .equalEqual => "=="
  | .greaterEqual => ">="
  | .lesserEqual => "<="
  | .kwAnd => "and"
  | .kwOr => "or"
  | .kwIf => "if"
  | .kwElif => "elif"
  | .kwElse => "else"
  | .kwThen => "then"
  | .kwLet => "let"
  | .kwDef => "def"
  | .kwEnd => "end"
  | .kwExtern => "extern"
  | .kwReturn => "return"
  | .identifier => "identifier"
  | .number => "number"
  | .string => "string"

/-- The kind in messages. -/
def describe (kind : Kind) : String :=
  match kind with
  | .eof => "end of input"
  | .identifier | .number | .string => kind.lexeme
  | _ => s!"'{kind.lexeme}'"

/-- The reserved words. -/
def keywords : List Kind :=
  [.kwAnd, .kwOr, .kwIf, .kwElif, .kwElse, .kwThen, .kwLet, .kwDef, .kwEnd, .kwExtern, .kwReturn]

/-- The reserved word with the given spelling. -/
def keyword? (word : String) : Option Kind :=
  keywords.find? fun kind => kind.lexeme = word

/-- How tightly a binary operator binds; other kinds do not join two operands. -/
def precedence? : Kind → Option Nat
  | .lesser | .greater | .lesserEqual | .greaterEqual | .equalEqual | .bangEqual => some 10
  | .plus | .minus => some 20
  | .star | .slash => some 40
  | _ => none

end Kind

/-- The number that a token carries. -/
def number? (token : Token) : Option Float :=
  match token.payload with
  | some (.number value) => some value
  | _ => none

/-- The text that a token carries. -/
def text? (token : Token) : Option String :=
  match token.payload with
  | some (.text value) => some value
  | _ => none

/-- The token in messages. -/
def describe (token : Token) : String :=
  match token.kind, token.payload with
  | .identifier, some (.text text) => s!"identifier '{text}'"
  | .string, some (.text text) => s!"string \"{text}\""
  | .number, some (.number value) =>
      let digits := Decimal.Layout.plain.write value
      s!"number {digits}"
  | kind, _ => kind.describe

end Token
end ScalarScript
