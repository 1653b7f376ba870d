/-!
# Lines and byte offsets of a text

Positions in a text are byte offsets of its UTF-8 form.  Lines end at a newline, or at a
carriage return followed by a newline; a final newline starts no further line.
-/

namespace ScalarScript
namespace Text

/-- The number of bytes of the UTF-8 form of some characters. -/
def byteLength (text : List Char) : Nat :=
  text.foldr (fun c size => c.utf8Size + size) 0

@[simp] theorem byteLength_nil : byteLength [] = 0 := rfl

@[simp] theorem byteLength_cons (c : Char) (text : List Char) :
    byteLength (c :: text) = c.utf8Size + byteLength text := rfl

@[simp] theorem byteLength_append (front back : List Char) :
    byteLength (front ++ back) = byteLength front + byteLength back := by
  induction front with
  | nil => simp
  | cons c front inductionHypothesis => simp [inductionHypothesis, Nat.add_assoc]

/-- The characters that fill exactly the first `offset` bytes, if some do. -/
def upTo : Nat → List Char → Option (List Char)
  | 0, _ => some []
  | _ + 1, [] => none
  | offset + 1, c :: text =>
      if c.utf8Size ≤ offset + 1 then
        (upTo (offset + 1 - c.utf8Size) text).map (c :: ·)
      else
        none

/-- The characters after the last newline. -/
def lastLine (text : List Char) : List Char :=
  (text.reverse.takeWhile (· ≠ '\n')).reverse

/-- A line without the carriage return before its newline. -/
def withoutReturn (line : List Char) : List Char :=
  match line.reverse with
  | '\r' :: rest => rest.reverse
  | _ => line

/-- The lines of `text`, where `current` holds the characters read of the first line,
in reverse. -/
def linesFrom (current : List Char) : List Char → List (List Char)
  | [] => if current.isEmpty then [] else [current.reverse]
  | c :: text =>
      if c = '\n' then
        withoutReturn current.reverse :: linesFrom [] text
      else
        linesFrom (c :: current) text

/-- The lines of a text. -/
def lines (text : List Char) : List (List Char) :=
  linesFrom [] text

end Text
end ScalarScript
