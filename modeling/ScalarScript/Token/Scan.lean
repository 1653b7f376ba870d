import ScalarScript.Diagnostic
import ScalarScript.Text.Lines
import ScalarScript.Token.Piece

/-!
# Scanning

`scan` cuts a text into pieces and gives each token and each lexical error its place.
Blanks and comments vanish.  The tokens always end with one mark of the end of input.
-/

namespace ScalarScript

/-- A place in a text: a byte offset and a line number counted from one. -/
structure Cursor where
  offset : Nat
  line : Nat
deriving DecidableEq, Repr

namespace Cursor

/-- The beginning of a text. -/
def origin : Cursor := ⟨0, 1⟩

/-- The place after some characters. -/
def past (cursor : Cursor) (text : List Char) : Cursor :=
  ⟨cursor.offset + Text.byteLength text, cursor.line + text.count '\n'⟩

/-- The span from one place to another, on the line of the latter. -/
def spanTo (start finish : Cursor) : Span :=
  ⟨start.offset, finish.offset, finish.line⟩

@[simp] theorem past_nil (cursor : Cursor) : cursor.past [] = cursor := by
  simp [past]

@[simp] theorem past_append (cursor : Cursor) (front back : List Char) :
    cursor.past (front ++ back) = (cursor.past front).past back := by
  simp [past, Nat.add_assoc]

end Cursor

/-- Why a piece of text is no token. -/
inductive LexError.Cause where
  /-- A character that starts no token. -/
  | unexpected (c : Char)
  /-- A string without a closing quote. -/
  | unterminated
deriving DecidableEq, Repr

/-- A lexical error with its place. -/
structure LexError where
  cause : LexError.Cause
  span : Span
deriving DecidableEq, Repr

namespace LexError

/-- The part of the program that reports lexical errors. -/
def issuer : String := "poly.lexer"

/-- What is wrong. -/
def message (error : LexError) : String :=
  match error.cause with
  | .unexpected c => s!"Unexpected character '{c}'"
  | .unterminated => "Unterminated string"

/-- How the error may be mended. -/
def tip? (error : LexError) : Option String :=
  match error.cause with
  | .unexpected _ => none
  | .unterminated => some "Consider placing an enclosing \""

/-- The error as it is presented. -/
def diagnostic (error : LexError) : Diagnostic where
  issuer := issuer
  message := error.message
  span := some error.span
  tip := error.tip?

end LexError

/-- What a piece of text stands for, when it is neither blank nor comment. -/
inductive Lexeme where
  | token (found : Token)
  | error (found : LexError)
deriving Repr

namespace Lexeme

/-- The token, if it is one. -/
def token? : Lexeme → Option Token
  | .token found => some found
  | .error _ => none

/-- The error, if it is one. -/
def error? : Lexeme → Option LexError
  | .token _ => none
  | .error found => some found

end Lexeme

namespace Piece

/-- The token or error of a piece that lies between two places. -/
def lexeme? (start finish : Cursor) : Piece → Option Lexeme
  | .blank _ => none
  | .comment _ => none
  | .symbol kind => some (.token ⟨kind, none, start.spanTo finish⟩)
  | .word letters =>
      let word := String.ofList letters
      match Token.Kind.keyword? word with
      | some kind => some (.token ⟨kind, none, start.spanTo finish⟩)
      | none => some (.token ⟨.identifier, some (.text word), start.spanTo finish⟩)
  | .number whole fraction =>
      let value := Decimal.read whole (fraction.getD [])
      some (.token ⟨.number, some (.number value), start.spanTo finish⟩)
  | .string body =>
      let inner : Span := ⟨start.offset + 1, finish.offset - 1, finish.line⟩
      some (.token ⟨.string, some (.text (String.ofList body)), inner⟩)
  | .openString _ => some (.error ⟨.unterminated, start.spanTo finish⟩)
  | .stray c => some (.error ⟨.unexpected c, start.spanTo finish⟩)

end Piece

/-- The tokens and errors of consecutive pieces, the first of which begins at `start`. -/
def lexemes (start : Cursor) : List Piece → List Lexeme
  | [] => []
  | piece :: rest =>
      let finish := start.past piece.text
      (piece.lexeme? start finish).toList ++ lexemes finish rest

/-- Everything found in a text. -/
structure Scan where
  /-- The tokens and errors in the order of the text. -/
  lexemes : List Lexeme
  /-- The end of the text. -/
  finish : Cursor
deriving Repr

namespace Scan

/-- The mark of the end of input. -/
def eof (scan : Scan) : Token :=
  ⟨.eof, none, scan.finish.spanTo scan.finish⟩

/-- The tokens, ending with the mark of the end of input. -/
def tokens (scan : Scan) : List Token :=
  scan.lexemes.filterMap Lexeme.token? ++ [scan.eof]

/-- The lexical errors. -/
def errors (scan : Scan) : List LexError :=
  scan.lexemes.filterMap Lexeme.error?

end Scan

/-- Scans a text from its beginning to its end. -/
def scan (text : String) : Scan :=
  { lexemes := lexemes .origin (pieces text.toList)
    finish := Cursor.origin.past text.toList }

end ScalarScript
