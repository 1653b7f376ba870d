import ScalarScript.Text.Emoji
import ScalarScript.Text.Ligature

/-!
# Display width

Text in a table is measured in terminal columns.  Most characters take their own columns, but
some sequences are drawn as one: pictures joined to each other, a picture with a skin tone,
a character with a variation selector, and the ligatures of some scripts.  A text is read
from its end, since the later characters of a sequence decide what the earlier ones take.
-/

namespace ScalarScript
namespace Text

/-- The end of a sequence, as far as it has been read. -/
inductive Tail where
  /-- Nothing that a character in front can join. -/
  | other
  | picture
  /-- A skin tone. -/
  | tone
  /-- One of the letters that form flags, and several of them. -/
  | regional
  | regionals
  /-- A picture with a joiner in front. -/
  | joinedPicture
  | joinedKeycap
  /-- A joined picture behind one letter of a flag, behind whole flags, and behind whole
  flags and one letter. -/
  | joinedRegional
  | joinedFlags
  | joinedFlagsRegional
  /-- A joined picture behind the end of a tagged flag and a number of its letters. -/
  | joinedLetters (count : Nat)
  /-- A joined picture behind the end of a tagged flag and a number of its digits. -/
  | joinedDigits (count : Nat)
  /-- The Kirat Rai vowels that contract with a vowel in front. -/
  | vowelE
  | vowelAi
  | ligature (sign : Ligature)
deriving DecidableEq, Repr

namespace Tail

/-- Whether a character with a selector in front of this joins a picture. -/
def joinsPicture : Tail → Bool
  | .joinedPicture | .joinedKeycap => true
  | _ => false

/-- Whether marks may stand in front of this without ending it. -/
def isLigature : Tail → Bool
  | .ligature _ => true
  | _ => false

/-- The tail that a character makes on its own, with the columns that it takes. -/
def ofLast (code : Nat) : Int × Tail :=
  if isPicture code then (2, .picture)
  else if isRegional code then (1, .regional)
  else if isTone code then (2, .tone)
  else if code = 0x16d67 then (1, .vowelE)
  else if code = 0x16d68 then (1, .vowelAi)
  else
    match Ligature.ofLast? code with
    | some sign => (columns code, .ligature sign)
    | none => (columns code, .other)

/-- Whether a character is a letter of a tagged flag. -/
def isTagLetter (code : Nat) : Bool :=
  0xe0061 ≤ code && code ≤ 0xe007a

/-- Whether a character is a digit of a tagged flag. -/
def isTagDigit (code : Nat) : Bool :=
  0xe0030 ≤ code && code ≤ 0xe0039

/-- The flag that carries tags. -/
def taggedFlag : Nat := 0x1f3f4

/-- Joins a character to a picture with a joiner in front. -/
def joinPicture? (code : Nat) : Option (Int × Tail) :=
  if code = 0x20e3 then some (0, .joinedKeycap)
  else if isRegional code then some (1, .joinedRegional)
  else if isTone code then some (0, .tone)
  else if code = 0xe007f then some (0, .joinedLetters 0)
  else if isPicture code then some (0, .picture)
  else none

/-- Joins a character to the letters of a tagged flag. -/
def joinLetters? (count : Nat) (code : Nat) : Option (Int × Tail) :=
  if isTagLetter code && count < 6 then some (0, .joinedLetters (count + 1))
  else if isTagDigit code && count ≤ 4 then some (0, .joinedDigits 1)
  else if code = taggedFlag && 3 ≤ count then some (0, .picture)
  else none

/-- Joins a character to the digits of a tagged flag. -/
def joinDigits? (count : Nat) (code : Nat) : Option (Int × Tail) :=
  if isTagDigit code && count < 3 then some (0, .joinedDigits (count + 1))
  else if code = taggedFlag && count = 3 then some (0, .picture)
  else none

/-- The columns that a character adds to the tail behind it, when it joins it. -/
def add? (tail : Tail) (code : Nat) : Option (Int × Tail) :=
  match tail with
  | .ligature sign => (sign.add? code).map fun (added, rest) =>
      (added, match rest with
        | some sign => .ligature sign
        | none => .other)
  | .tone =>
      if takesTone code then some (0, .picture)
      else if code = Ligature.joiner then some (0, .joinedPicture)
      else none
  | .picture => if code = Ligature.joiner then some (0, .joinedPicture) else none
  | .regional => if isRegional code then some (1, .regionals) else none
  | .regionals =>
      if isRegional code then some (1, .regionals)
      else if code = Ligature.joiner then some (0, .joinedPicture)
      else none
  | .joinedPicture => joinPicture? code
  | .joinedRegional => if isRegional code then some (-1, .joinedFlags) else none
  | .joinedFlags =>
      if isRegional code then some (3, .joinedFlagsRegional)
      else if code = Ligature.joiner then some (0, .joinedPicture)
      else none
  | .joinedFlagsRegional =>
      if isRegional code then some (-1, .joinedFlags)
      else if code = Ligature.joiner then some (0, .joinedPicture)
      else none
  | .joinedLetters count => joinLetters? count code
  | .joinedDigits count => joinDigits? count code
  | .vowelE =>
      if code = 0x16d63 ∨ code = 0x16d69 then some (0, .other)
      else if code = 0x16d67 then some (0, .vowelAi)
      else if code = 0x16d68 then some (1, .vowelE)
      else none
  | .vowelAi => if code = 0x16d63 then some (0, .other) else none
  | .joinedKeycap | .other => none

end Tail

/-- A variation selector, which asks for a form of the character before it. -/
inductive Selector where
  | picture
  | text
  /-- Asks for a quotation mark in its wide form. -/
  | wideQuote
deriving DecidableEq, Repr

namespace Selector

/-- The selector that a character is. -/
def ofCode? (code : Nat) : Option Selector :=
  if code = 0xfe0f then some .picture
  else if code = 0xfe0e then some .text
  else if code = 0xfe01 then some .wideQuote
  else none

end Selector

/-- Whether a character is a quotation mark with a wide form. -/
def isQuote (code : Nat) : Bool :=
  code ∈ [0x2018, 0x2019, 0x201c, 0x201d]

/-- What has been read of a text from its end: the end of a sequence, and the selectors in
front of it. -/
structure Ahead where
  tail : Tail := .other
  selectors : List Selector := []
deriving DecidableEq, Repr

namespace Ahead

/-- Puts a selector in front.  Selectors gather in front of a ligature, and a picture may be
joined to the one behind it; otherwise a selector leaves nothing else to be joined. -/
def select (ahead : Ahead) (selector : Selector) : Ahead :=
  if ahead.tail.isLigature then
    { ahead with selectors := ahead.selectors.insert selector }
  else if selector = .picture ∧ ahead.tail.joinsPicture then
    { ahead with selectors := [.picture] }
  else
    { selectors := [selector] }

/-- What remains when the selector of pictures turns nothing into a picture. -/
def dropPicture (ahead : Ahead) : Ahead :=
  if .picture ∈ ahead.selectors then
    if ahead.tail.isLigature then
      { ahead with selectors := ahead.selectors.filter (· ≠ .picture) }
    else
      {}
  else
    ahead

/-- Reads a character that no selector turns into a picture. -/
def readPlain (ahead : Ahead) (code : Nat) : Int × Ahead :=
  if code < 0xa1 then (1, {})
  else
    match Selector.ofCode? code with
    | some selector => (0, ahead.select selector)
    | none =>
        if .text ∈ ahead.selectors ∧ narrowsAsText code then (1, {})
        else if .wideQuote ∈ ahead.selectors ∧ isQuote code then (2, {})
        else
          let (added, tail) := (ahead.tail.add? code).getD (Tail.ofLast code)
          (added, { tail := tail })

/-- Reads a character: the columns that it adds, and what has been read with it. -/
def read (ahead : Ahead) (code : Nat) : Int × Ahead :=
  if .picture ∈ ahead.selectors ∧ isSelectable code then
    (if ahead.tail.joinsPicture then 0 else 2, { tail := .picture })
  else
    ahead.dropPicture.readPlain code

end Ahead

/-- The columns of a text together with what its beginning leaves open. -/
def measure : List Char → Int × Ahead
  | [] => (0, {})
  | c :: text =>
      let (sum, ahead) := measure text
      let (added, ahead) := ahead.read c.toNat
      (sum + added, ahead)

/-- The number of columns that a line of text takes. -/
def displayWidth (line : List Char) : Nat :=
  (measure line).1.toNat

end Text
end ScalarScript
