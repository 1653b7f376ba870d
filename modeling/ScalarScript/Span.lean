/-!
# Spans of a text

A span is a half-open range of byte offsets together with the line on which it ends.
-/

namespace ScalarScript

/-- A half-open range of byte offsets, with a line number counted from one. -/
structure Span where
  start : Nat
  stop : Nat
  line : Nat
deriving DecidableEq, Repr, Inhabited

namespace Span

/-- The span of a text that has not been located. -/
def zero : Span := ⟨0, 0, 0⟩

/-- The number of bytes covered. -/
def length (span : Span) : Nat :=
  span.stop - span.start

/-- The text of a span in messages. -/
def describe (span : Span) : String :=
  s!"line {span.line} [{span.start}..{span.stop})"

end Span
end ScalarScript
