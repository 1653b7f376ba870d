import ScalarScript.Token

/-!
# Cutting a text into pieces

A text falls into pieces without gap or overlap: blanks, comments, tokens, and the two
kinds of error, a stray character and a string that is never closed.  `Piece.cut` takes
the first piece off a text that is not empty, and `pieces` repeats this until nothing is
left.  The text of the pieces put together is the text that was cut.
-/

namespace ScalarScript

/-- A piece of text as the scanner sees it. -/
inductive Piece where
  /-- A space, tab, carriage return or newline. -/
  | blank (c : Char)
  /-- Two slashes and the characters up to the end of the line. -/
  | comment (body : List Char)
  /-- Punctuation of one or two characters. -/
  | symbol (kind : Token.Kind)
  /-- An identifier or a keyword. -/
  | word (letters : List Char)
  /-- Decimal digits, perhaps with a point and further digits. -/
  | number (whole : List Char) (fraction : Option (List Char))
  /-- A string, without its quotes. -/
  | string (body : List Char)
  /-- A string without its closing quote. -/
  | openString (body : List Char)
  /-- A character that starts nothing. -/
  | stray (c : Char)
deriving DecidableEq, Repr

namespace Piece

/-- The characters of a piece. -/
def text : Piece → List Char
  | .blank c => [c]
  | .comment body => '/' :: '/' :: body
  | .symbol kind => kind.lexeme.toList
  | .word letters => letters
  | .number whole none => whole
  | .number whole (some fraction) => whole ++ '.' :: fraction
  | .string body => '"' :: body ++ ['"']
  | .openString body => '"' :: body
  | .stray c => [c]

/-- The characters that separate tokens. -/
def separates (c : Char) : Bool :=
  c = ' ' || c = '\t' || c = '\r' || c = '\n'

/-- The characters that start a word. -/
def startsWord (c : Char) : Bool :=
  c.isAlpha || c = '_'

/-- The characters that continue a word. -/
def continuesWord (c : Char) : Bool :=
  c.isAlphanum || c = '_'

/-- Punctuation that never joins the character after it. -/
def single? : Char → Option Token.Kind
  | '(' => some .leftParen
  | ')' => some .rightParen
  | '+' => some .plus
  | '-' => some .minus
  | ',' => some .comma
  | '*' => some .star
  | _ => none

/-- Punctuation that joins an equals sign after it: its kind alone and its kind joined. -/
def joining? : Char → Option (Token.Kind × Token.Kind)
  | '!' => some (.bang, .bangEqual)
  | '>' => some (.greater, .greaterEqual)
  | '<' => some (.lesser, .lesserEqual)
  | '=' => some (.equal, .equalEqual)
  | _ => none

/-- The characters before the closing quote, and those after it.  A backslash keeps the
character after it from closing the string. -/
def closeString : List Char → Option (List Char × List Char)
  | [] => none
  | '"' :: rest => some ([], rest)
  | '\\' :: c :: rest =>
      (closeString rest).map fun (body, after) => ('\\' :: c :: body, after)
  | c :: rest =>
      (closeString rest).map fun (body, after) => (c :: body, after)

/-- The digits after a decimal point, if a point with a digit comes first. -/
def fraction? : List Char → Option (List Char × List Char)
  | '.' :: c :: rest =>
      if c.isDigit then
        some (c :: rest.takeWhile Char.isDigit, rest.dropWhile Char.isDigit)
      else
        none
  | _ => none

/-- A number whose first digit is `c`. -/
def cutNumber (c : Char) (rest : List Char) : Piece × List Char :=
  let whole := c :: rest.takeWhile Char.isDigit
  let after := rest.dropWhile Char.isDigit
  match fraction? after with
  | some (digits, after) => (.number whole (some digits), after)
  | none => (.number whole none, after)

/-- The first piece of a text that starts with `c`, and the text after it. -/
def cut (c : Char) (rest : List Char) : Piece × List Char :=
  if separates c then (.blank c, rest)
  else if startsWord c then
    (.word (c :: rest.takeWhile continuesWord), rest.dropWhile continuesWord)
  else if c.isDigit then cutNumber c rest
  else if c = '"' then
    match closeString rest with
    | some (body, after) => (.string body, after)
    | none => (.openString rest, [])
  else if c = '/' then
    match rest with
    | '/' :: after => (.comment (after.takeWhile (· ≠ '\n')), after.dropWhile (· ≠ '\n'))
    | _ => (.symbol .slash, rest)
  else match single? c, joining? c with
    | some kind, _ => (.symbol kind, rest)
    | none, some (alone, joined) =>
        match rest with
        | '=' :: after => (.symbol joined, after)
        | _ => (.symbol alone, rest)
    | none, none => (.stray c, rest)

/-- What closes a string is shorter than what was searched. -/
theorem closeString_length
    {text body after : List Char}
    (closed : closeString text = some (body, after)) :
    after.length < text.length := by
  fun_induction closeString text generalizing body after with
  | case1 => simp at closed
  | case2 rest =>
      simp only [Option.some.injEq, Prod.mk.injEq] at closed
      simp [← closed.2]
  | case3 c rest ih =>
      obtain ⟨⟨inner, tail⟩, found, equal⟩ := Option.map_eq_some_iff.1 closed
      simp only [Prod.mk.injEq] at equal
      have shorter := ih found
      simp only [List.length_cons, ← equal.2]
      omega
  | case4 c rest _ _ ih =>
      obtain ⟨⟨inner, tail⟩, found, equal⟩ := Option.map_eq_some_iff.1 closed
      simp only [Prod.mk.injEq] at equal
      have shorter := ih found
      simp only [List.length_cons, ← equal.2]
      omega

/-- Dropping characters from the front makes no text longer. -/
theorem length_dropWhile_le (keep : Char → Bool) (text : List Char) :
    (text.dropWhile keep).length ≤ text.length :=
  (List.dropWhile_suffix keep).length_le

/-- What follows a fraction is shorter than what was searched. -/
theorem fraction?_length
    {text digits after : List Char}
    (found : fraction? text = some (digits, after)) :
    after.length ≤ text.length := by
  unfold fraction? at found
  split at found
  · rename_i c rest
    split at found
    · simp only [Option.some.injEq, Prod.mk.injEq] at found
      have shorter := length_dropWhile_le Char.isDigit rest
      simp only [List.length_cons, ← found.2]
      omega
    · simp at found
  · simp at found

/-- What follows a number is no longer than what follows its first digit. -/
theorem cutNumber_length (c : Char) (rest : List Char) :
    (cutNumber c rest).2.length ≤ rest.length := by
  have digits := length_dropWhile_le Char.isDigit rest
  unfold cutNumber
  simp only
  split
  · rename_i found
    have shorter := fraction?_length found
    simp only
    omega
  · exact digits

/-- What follows the first piece is no longer than what follows the first character. -/
theorem cut_length (c : Char) (rest : List Char) :
    (cut c rest).2.length ≤ rest.length := by
  unfold cut
  split
  · exact Nat.le_refl _
  split
  · exact length_dropWhile_le _ _
  split
  · exact cutNumber_length c rest
  split
  · split
    · rename_i found
      exact Nat.le_of_lt (closeString_length found)
    · simp
  split
  · split
    · rename_i after
      have shorter := length_dropWhile_le (· ≠ '\n') after
      simp only [List.length_cons]
      exact Nat.le_succ_of_le shorter
    · exact Nat.le_refl _
  split
  · exact Nat.le_refl _
  · split <;> simp
  · exact Nat.le_refl _

end Piece

/-- The pieces of a text, in order. -/
def pieces : List Char → List Piece
  | [] => []
  | c :: rest =>
      have := Piece.cut_length c rest
      (Piece.cut c rest).1 :: pieces (Piece.cut c rest).2
termination_by text => text.length
decreasing_by
  simp only [List.length_cons]
  omega

end ScalarScript
