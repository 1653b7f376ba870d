import ScalarScript.Document
import ScalarScript.Token

/-!
# Tokens as documents

Spans and tokens as they appear in JSON documents.  `real` says how numbers are written.
-/

namespace ScalarScript

/-- The document of a span. -/
def Span.document (span : Span) : Document :=
  .record [("start", .nat span.start), ("end", .nat span.stop), ("line", .nat span.line)]

namespace Token

/-- The document of what a token carries. -/
def Payload.document (real : Float → Document) : Payload → Document
  | .number value => .tagged "Number" (real value)
  | .text value => .tagged "Text" (.text value)

/-- The document of a token. -/
def document (real : Float → Document) (token : Token) : Document :=
  .record [
    ("kind", .text token.kind.name),
    ("value", .option (Payload.document real) token.payload),
    ("location", token.span.document)]

end Token
end ScalarScript
