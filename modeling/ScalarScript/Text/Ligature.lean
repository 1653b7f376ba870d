import ScalarScript.Text.Columns

/-!
# Ligatures

In some scripts, letters that follow each other are drawn as one sign, which takes fewer
columns than its letters on their own.  A text is read from its end: a `Ligature` is the part
read so far of a sign that the letters in front may still join.
-/

namespace ScalarScript
namespace Text

/-- The end of a sign, as far as it has been read. -/
inductive Ligature where
  /-- An Arabic alef, which a lam joins. -/
  | alef
  /-- A Hebrew lamed, which an alef joins across a joiner. -/
  | lamed
  | joinedLamed
  /-- A Buginese ya, which the vowel i and the letter a join across a joiner. -/
  | ya
  | joinedYa
  | vowelYa
  /-- A Tifinagh consonant, which another one joins across a joiner of either kind. -/
  | consonant
  | joinedConsonant
  | linkedConsonant
  /-- A Lisu tone letter that ends a pair. -/
  | tone
  /-- The Old Turkic letter i, which the letter ec joins across a joiner. -/
  | orkhonI
  | joinedOrkhonI
  /-- A Khmer letter that goes under the one before it. -/
  | subscript
deriving DecidableEq, Repr

namespace Ligature

/-- The zero-width joiner. -/
def joiner : Nat := 0x200d

/-- The joiner of Tifinagh consonants, which shows where it joins nothing. -/
def consonantJoiner : Nat := 0x2d7f

/-- Whether a character is an Arabic alef, alone or with marks. -/
def isAlef (code : Nat) : Bool :=
  inside [0x622, 0x624, 0x625, 0x626, 0x627, 0x628, 0x671, 0x674, 0x675, 0x676, 0x773, 0x775,
    0x870, 0x883] code

/-- Whether a character is an Arabic lam, alone or with marks. -/
def isLam (code : Nat) : Bool :=
  inside [0x644, 0x645, 0x6b5, 0x6b9, 0x76a, 0x76b, 0x8a6, 0x8a7, 0x8c7, 0x8c8] code

/-- Whether a character is a Tifinagh consonant. -/
def isConsonant (code : Nat) : Bool :=
  inside [0x2d31, 0x2d66, 0x2d6f, 0x2d70] code

/-- Whether a character is a Khmer letter with a form under another letter. -/
def hasSubscript (code : Nat) : Bool :=
  inside [0x1780, 0x1783, 0x1784, 0x1788, 0x1789, 0x178d, 0x178e, 0x1794, 0x1795, 0x1799, 0x179b,
    0x179e, 0x17a0, 0x17a1, 0x17a2, 0x17a3, 0x17a7, 0x17a8, 0x17ab, 0x17ad, 0x17af, 0x17b0] code

/-- Whether a mark may stand anywhere inside a sign. -/
def isTransparent (code : Nat) : Bool :=
  inside [0x34f, 0x350, 0x17b4, 0x17b6, 0x180b, 0x180e, 0x180f, 0x1810, 0xfe00, 0xfe10, 0xe0100,
    0xe01f0] code

/-- Turning points of the characters that take no column and stop Arabic letters from
joining across them. -/
def arabicBarriers : List Nat := [
  0x605, 0x606, 0x890, 0x892, 0x8e2, 0x8e3, 0x9be, 0x9bf, 0x9d7, 0x9d8, 0xb3e, 0xb3f, 0xb57,
  0xb58, 0xbbe, 0xbbf, 0xbd7, 0xbd8, 0xcc0, 0xcc1, 0xcc2, 0xcc3, 0xcc7, 0xcc9, 0xcca, 0xccc,
  0xcd5, 0xcd7, 0xd3e, 0xd3f, 0xd4e, 0xd4f, 0xd57, 0xd58, 0xdcf, 0xdd0, 0xddf, 0xde0, 0x1160,
  0x1200, 0x1715, 0x1716, 0x1734, 0x1735, 0x180e, 0x180f, 0x1b35, 0x1b36, 0x1b3b, 0x1b3c, 0x1b3d,
  0x1b3e, 0x1b43, 0x1b45, 0x1baa, 0x1bab, 0x1bf2, 0x1bf4, 0x200c, 0x200e, 0x2065, 0x206a, 0x302e,
  0x3030, 0x3164, 0x3165, 0xa8fa, 0xa8fb, 0xa953, 0xa954, 0xa9c0, 0xa9c1, 0xd7b0, 0xd7c7, 0xd7cb,
  0xd7fc, 0xffa0, 0xffa1, 0xfff0, 0xfff9, 0x111c0, 0x111c1, 0x111c2, 0x111c4, 0x11235, 0x11236,
  0x1133e, 0x1133f, 0x1134d, 0x1134e, 0x11357, 0x11358, 0x113b8, 0x113b9, 0x113c2, 0x113c3,
  0x113c5, 0x113c6, 0x113c7, 0x113ca, 0x113cf, 0x113d0, 0x113d1, 0x113d2, 0x114b0, 0x114b1,
  0x114bd, 0x114be, 0x115af, 0x115b0, 0x116b6, 0x116b7, 0x11930, 0x11931, 0x1193d, 0x1193e,
  0x1193f, 0x11940, 0x11941, 0x11942, 0x11a84, 0x11a8a, 0x11d46, 0x11d47, 0x11f02, 0x11f03,
  0x11f41, 0x11f42, 0x16ff0, 0x16ff2, 0x1d165, 0x1d167, 0x1d16d, 0x1d173, 0x1d250, 0x1d253,
  0x1d25f, 0x1d260, 0x1d280, 0x1d282, 0xe0000, 0xe0001, 0xe0002, 0xe0020, 0xe0080, 0xe0100,
  0xe01f0, 0xe1000]

/-- Whether Arabic letters join across a mark. -/
def isArabicTransparent (code : Nat) : Bool :=
  columns code = 0 && !inside arabicBarriers code

/-- The sign that a character may end. -/
def ofLast? (code : Nat) : Option Ligature :=
  if isAlef code then some .alef
  else if code = 0x5dc then some .lamed
  else if code = 0x1a10 then some .ya
  else if isConsonant code then some .consonant
  else if code = 0xa4fc ∨ code = 0xa4fd then some .tone
  else if code = 0x10c03 then some .orkhonI
  else if hasSubscript code then some .subscript
  else none

/-- The sign with a joiner in front. -/
def joined : Ligature → Ligature
  | .lamed => .joinedLamed
  | .ya => .joinedYa
  | .consonant => .joinedConsonant
  | .orkhonI => .joinedOrkhonI
  | other => other

/-- The columns that a letter adds to the sign that it joins, with the sign that may still be
joined after that. -/
def addLetter? (ligature : Ligature) (code : Nat) : Option (Int × Option Ligature) :=
  match ligature with
  | .alef =>
      if isLam code then some (0, none)
      else if isArabicTransparent code then some (0, some .alef)
      else none
  | .joinedLamed => if code = 0x5d0 then some (0, none) else none
  | .joinedYa => if code = 0x1a17 then some (0, some .vowelYa) else none
  | .vowelYa => if code = 0x1a15 then some (0, none) else none
  | .consonant => if code = consonantJoiner then some (1, some .linkedConsonant) else none
  | .joinedConsonant =>
      if code = consonantJoiner then some (1, some .linkedConsonant)
      else if isConsonant code then some (0, none)
      else none
  | .linkedConsonant => if isConsonant code then some (-1, none) else none
  | .tone => if 0xa4f8 ≤ code ∧ code ≤ 0xa4fb then some (0, none) else none
  | .joinedOrkhonI => if code = 0x10c32 then some (0, none) else none
  | .subscript => if code = 0x17d2 then some (-1, none) else none
  | .lamed | .ya | .orkhonI => none

/-- The columns that a character adds to the sign behind it, when it belongs to the sign. -/
def add? (ligature : Ligature) (code : Nat) : Option (Int × Option Ligature) :=
  if ligature = .alef then
    ligature.addLetter? code
  else if code = joiner then
    some (0, some ligature.joined)
  else if isTransparent code then
    some (0, some ligature)
  else
    ligature.addLetter? code

end Ligature
end Text
end ScalarScript
