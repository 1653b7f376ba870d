import ScalarScript.Span

/-!
# Diagnostics

Every problem that a script can cause is presented in the same way: how bad it is, which
part of the program noticed it, what happened, where, and perhaps how to mend it.
-/

namespace ScalarScript

/-- How bad a problem is. -/
inductive Severity where
  | info
  | warning
  | error
  | critical
deriving DecidableEq, Repr

namespace Severity

/-- The severity in messages. -/
def label : Severity → String
  | .info => "INFO"
  | .warning => "WARNING"
  | .error => "ERROR"
  | .critical => "CRITICAL"

/-- The severity in documents. -/
def name : Severity → String
  | .info => "Info"
  | .warning => "Warning"
  | .error => "Error"
  | .critical => "Critical"

end Severity

/-- A problem as it is presented to the user. -/
structure Diagnostic where
  severity : Severity := .error
  issuer : String
  message : String
  span : Option Span := none
  tip : Option String := none
deriving DecidableEq, Repr

namespace Diagnostic

/-- The problem on one line, with its span. -/
def describe (diagnostic : Diagnostic) : String :=
  let place := match diagnostic.span with
    | some span => span.describe
    | none => "unknown"
  s!"POLY | {diagnostic.severity.label} | {place} | {diagnostic.issuer} | {diagnostic.message}"

/-- The problem as one sentence: the message, its span when it has one, and then its tip. -/
def sentence (diagnostic : Diagnostic) : String :=
  match diagnostic.span with
  | none => diagnostic.message
  | some span =>
      let located := s!"{diagnostic.message} (at {span.describe})"
      match diagnostic.tip with
      | none => located
      | some tip => s!"{located} tip: {tip}"

end Diagnostic
end ScalarScript
