import ScalarScript.Document
import ScalarScript.Script

/-!
# Reports

A report is a diagnostic resolved against the script that caused it: with the place in the
script and the line of the text.
-/

namespace ScalarScript

/-- A diagnostic with its place in a script. -/
structure Report where
  severity : Severity
  issuer : String
  message : String
  position : Option Position := none
  /-- The number of bytes to be marked, at least one. -/
  length : Nat := 1
  tip : Option String := none
  /-- The line of the text at the place. -/
  sourceLine : Option String := none
deriving DecidableEq, Repr

namespace Report

/-- A diagnostic without its place. -/
def unplaced (diagnostic : Diagnostic) : Report where
  severity := diagnostic.severity
  issuer := diagnostic.issuer
  message := diagnostic.message

/-- A diagnostic resolved against a script, unless its span starts inside a character. -/
def resolve? (diagnostic : Diagnostic) (script : Script) : Option Report :=
  match diagnostic.span with
  | none => some { unplaced diagnostic with tip := diagnostic.tip }
  | some span => (script.locate? span).map fun position =>
      { unplaced diagnostic with
        position := some position
        length := max span.length 1
        tip := diagnostic.tip
        sourceLine := script.line? span.line }

/-- The report on one line. -/
def describe (report : Report) : String :=
  let place := match report.position with
    | some position => position.describe
    | none => "unknown location"
  s!"POLY | {report.severity.label} | {place} | {report.message}"

/-- The document of a position. -/
def positionDocument (position : Position) : Document :=
  .record [
    ("file", .text position.file),
    ("line", .nat position.line),
    ("column", .nat position.column)]

/-- The document of a report. -/
def document (report : Report) : Document :=
  .record [
    ("severity", .text report.severity.name),
    ("issuer", .text report.issuer),
    ("message", .text report.message),
    ("location", .option positionDocument report.position),
    ("length", .nat report.length),
    ("tip", .option .text report.tip),
    ("source_line", .option .text report.sourceLine)]

end Report
end ScalarScript
