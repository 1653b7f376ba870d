import ScalarScript.Console.Style
import ScalarScript.Report

/-!
# Reports on a terminal

A report shows the message, the place, the line of the text with the offending part
underlined, and the tip.
-/

namespace ScalarScript
namespace Console

/-- How reports are written. -/
inductive ReportFormat where
  | text
  | json
deriving DecidableEq, Repr

/-- The style of a severity. -/
def severityStyle : Severity → Style
  | .critical | .error => .failure
  | .warning => .warning
  | .info => .hint

/-- A number of blanks. -/
def blanks (count : Nat) : String :=
  String.ofList (List.replicate count ' ')

/-- The place of a report and its line of the text. -/
def excerpt (coloured : Bool) (report : Report) (position : Position) : String :=
  let margin := blanks ((toString position.line).length + 1)
  let bar := Style.faint.apply coloured "|"
  let marks := String.ofList (List.replicate report.length '^')
  let underline := (severityStyle report.severity).apply coloured marks
  let place := s!"{margin}--> {position.describe}\n"
  match report.sourceLine with
  | none => place
  | some line =>
      place ++ s!"{margin} {bar}\n" ++ s!" {position.line} {bar} {line}\n" ++
        s!"{margin} {bar} {blanks (position.column - 1)}{underline}\n"

/-- The report as text. -/
def reportText (coloured : Bool) (report : Report) : String :=
  let label := (severityStyle report.severity).apply coloured s!"[{report.severity.label}]"
  let message := Style.strong.apply coloured report.message
  let place := match report.position with
    | some position => excerpt coloured report position
    | none => ""
  let tip := match report.tip with
    | some tip => "  = " ++ Style.hint.apply coloured "tip:" ++ s!" {tip}\n"
    | none => ""
  s!"{label} {message}\n" ++ place ++ tip

/-- The most bytes that a text can hold. -/
def textLimit : Nat := Nat.pow 2 63 - 1

/-- Whether a text can hold the marks under the line and the blanks before them. -/
def isDrawable (report : Report) : Bool :=
  match report.position, report.sourceLine with
  | some position, some _ => position.column - 1 ≤ textLimit && report.length ≤ textLimit
  | _, _ => true

/-- The report as text, when a text can hold it. -/
def reportText? (coloured : Bool) (report : Report) : Option String :=
  if isDrawable report then some (reportText coloured report) else none

/-- The report in the given format. -/
def writeReport (format : ReportFormat) (coloured : Bool) (report : Report) : String :=
  match format with
  | .text => reportText coloured report
  | .json => report.document.pretty ++ "\n"

end Console
end ScalarScript
