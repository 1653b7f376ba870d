import ScalarScript.Diagnostic
import ScalarScript.Text.Blank
import ScalarScript.Text.Lines
import ScalarScript.Text.Quoted

/-!
# Scripts

A script is a text with a name: a file, or one line typed at a prompt.  Spans of the text
are resolved to a line and a column, counted from one; columns count bytes.
-/

namespace ScalarScript

/-- A place in a named text. -/
structure Position where
  file : String
  line : Nat
  column : Nat
deriving DecidableEq, Repr

namespace Position

/-- The place in messages. -/
def describe (position : Position) : String :=
  s!"{position.file}:{position.line}:{position.column}"

end Position

/-- A named text. -/
structure Script where
  name : String
  path : String
  content : String
deriving DecidableEq, Repr

namespace Script

/-- A text whose path is its name. -/
def ofSource (name content : String) : Script :=
  ⟨name, name, content⟩

/-- Whether the text holds nothing but white space. -/
def isEmpty (script : Script) : Bool :=
  Text.isBlank script.content

/-- The script in messages. -/
def describe (script : Script) : String :=
  s!"Script: {script.name} at {Text.quoted script.path}"

/-- The place at which a span starts, unless that is inside a character.  The column is
counted from the last newline before it; a span beyond the end starts at the end. -/
def locate? (script : Script) (span : Span) : Option Position :=
  let content := script.content.toList
  let start := min span.start (Text.byteLength content)
  (Text.upTo start content).map fun before =>
    ⟨script.name, span.line, Text.byteLength (Text.lastLine before) + 1⟩

/-- The line of the given number. -/
def line? (script : Script) (number : Nat) : Option String :=
  match number with
  | 0 => none
  | index + 1 => (Text.lines script.content.toList)[index]?.map String.ofList

end Script

/-- The diagnostic about a script that cannot be read. -/
def missingScript (path reason : String) : Diagnostic where
  issuer := "poly.script"
  message := s!"Missing script at {Text.quoted path}: {reason}"

end ScalarScript
