/-!
# Text styles of a terminal

A styled text is the codes of its style, the text, and the code that ends all styles.
-/

namespace ScalarScript
namespace Console

/-- The colours in use. -/
inductive Colour where
  | red
  | green
  | yellow
  | blue
  | cyan
deriving DecidableEq, Repr

/-- The code of a colour. -/
def Colour.code : Colour → Nat
  | .red => 31
  | .green => 32
  | .yellow => 33
  | .blue => 34
  | .cyan => 36

/-- A colour and a weight. -/
structure Style where
  colour : Option Colour := none
  bold : Bool := false
  dim : Bool := false
deriving DecidableEq, Repr

namespace Style

/-- The codes of a style: its colour, then its weight. -/
def codes (style : Style) : List Nat :=
  (style.colour.map Colour.code).toList ++
    (if style.bold then [1] else []) ++ (if style.dim then [2] else [])

/-- One code as a terminal reads it. -/
def sequence (code : Nat) : String :=
  s!"\x1b[{code}m"

/-- The text in a style, unless styles are off. -/
def apply (style : Style) (enabled : Bool) (text : String) : String :=
  if enabled then
    String.join (style.codes.map sequence) ++ text ++ sequence 0
  else
    text

/-- The style of errors. -/
def failure : Style where
  colour := some .red
  bold := true

/-- The style of warnings. -/
def warning : Style where
  colour := some .yellow
  bold := true

/-- The style of successes. -/
def success : Style where
  colour := some .green
  bold := true

/-- The style of hints. -/
def hint : Style where
  colour := some .cyan

/-- The style of messages. -/
def strong : Style where
  bold := true

/-- The style of what frames a text. -/
def faint : Style where
  dim := true

end Style
end Console
end ScalarScript
