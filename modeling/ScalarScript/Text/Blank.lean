import ScalarScript.Text.Turns

/-!
# Blank characters

The characters with the property White_Space: the ASCII blanks and seventeen others.
-/

namespace ScalarScript
namespace Text

/-- Turning points of the characters with the property White_Space. -/
def blanks : List Nat := [
  0x9, 0xe, 0x20, 0x21, 0x85, 0x86, 0xa0, 0xa1, 0x1680, 0x1681, 0x2000, 0x200b, 0x2028, 0x202a,
  0x202f, 0x2030, 0x205f, 0x2060, 0x3000, 0x3001]

/-- Whether a character is white space. -/
def blank (c : Char) : Bool :=
  inside blanks c.toNat

/-- Whether a text holds nothing but white space. -/
def isBlank (text : String) : Bool :=
  text.toList.all blank

end Text
end ScalarScript
