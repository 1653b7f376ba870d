import Mathlib.Data.List.TakeWhile
import ScalarScript.Token.Piece

/-!
# What the pieces of a text are

`Piece.Fits` says which characters a piece may have and what may follow it, without saying
how the piece is found: a word or a number goes on as long as it can, an equals sign joins the
sign before it, a comment ends where its line ends, and a string ends at the first quote that
no backslash keeps from closing it.  A text that is not empty starts with exactly one piece
that fits, and `Piece.cut` takes it off.
-/

namespace ScalarScript
namespace Piece

/-- The next character, if there is one, fails a test. -/
def NextFails (test : Char → Bool) (after : List Char) : Prop :=
  ∀ c ∈ after.head?, test c = false

/-- The characters between two quotes.  A backslash goes with the character after it, and a
quote stands only behind a backslash. -/
inductive Quoted : List Char → Prop where
  | nil : Quoted []
  | plain {c : Char} {body : List Char}
      (notQuote : c ≠ '"') (notBackslash : c ≠ '\\') (quoted : Quoted body) :
      Quoted (c :: body)
  | escaped (c : Char) {body : List Char} (quoted : Quoted body) :
      Quoted ('\\' :: c :: body)

/-- The characters behind a quote that is never closed.  The last one may be a backslash. -/
def Unclosed (body : List Char) : Prop :=
  Quoted body ∨ ∃ front, Quoted front ∧ body = front ++ ['\\']

/-- Punctuation that never joins the character after it. -/
def lone : List Token.Kind :=
  [.leftParen, .rightParen, .plus, .minus, .comma, .star]

/-- Punctuation that ends in an equals sign joined to the sign before it. -/
def joined : List Token.Kind :=
  [.bangEqual, .greaterEqual, .lesserEqual, .equalEqual]

/-- Punctuation that would join an equals sign after it. -/
def joinable : List Token.Kind :=
  [.bang, .greater, .lesser, .equal]

/-- The other characters that start a piece. -/
def signs : List Char :=
  ['"', '/', '(', ')', '+', '-', ',', '*', '!', '>', '<', '=']

/-- A piece fits in front of a text: its characters are of its kind, and none of the
characters after it belongs to it. -/
inductive Fits : Piece → List Char → Prop where
  | blank {c : Char} (after : List Char) (separating : separates c = true) :
      Fits (.blank c) after
  | comment {body after : List Char}
      (oneLine : '\n' ∉ body) (ends : NextFails (· ≠ '\n') after) :
      Fits (.comment body) after
  | lone {kind : Token.Kind} (after : List Char) (isLone : kind ∈ lone) :
      Fits (.symbol kind) after
  | slash {after : List Char} (ends : NextFails (· = '/') after) :
      Fits (.symbol .slash) after
  | joined {kind : Token.Kind} (after : List Char) (isJoined : kind ∈ joined) :
      Fits (.symbol kind) after
  | joinable {kind : Token.Kind} {after : List Char}
      (isJoinable : kind ∈ joinable) (ends : NextFails (· = '=') after) :
      Fits (.symbol kind) after
  | word {c : Char} {letters after : List Char}
      (starts : startsWord c = true) (continues : ∀ letter ∈ letters, continuesWord letter = true)
      (ends : NextFails continuesWord after) :
      Fits (.word (c :: letters)) after
  | integer {whole after : List Char}
      (nonempty : whole ≠ []) (digits : ∀ digit ∈ whole, digit.isDigit = true)
      (ends : NextFails Char.isDigit after)
      (noFraction : ∀ c rest, after = '.' :: c :: rest → c.isDigit = false) :
      Fits (.number whole none) after
  | fraction {whole fraction after : List Char}
      (nonempty : whole ≠ []) (digits : ∀ digit ∈ whole, digit.isDigit = true)
      (more : fraction ≠ []) (moreDigits : ∀ digit ∈ fraction, digit.isDigit = true)
      (ends : NextFails Char.isDigit after) :
      Fits (.number whole (some fraction)) after
  | string {body : List Char} (after : List Char) (quoted : Quoted body) :
      Fits (.string body) after
  | openString {body : List Char} (unclosed : Unclosed body) :
      Fits (.openString body) []
  | stray {c : Char} (after : List Char)
      (noBlank : separates c = false) (noWord : startsWord c = false)
      (noDigit : c.isDigit = false) (noSign : c ∉ signs) :
      Fits (.stray c) after

/-! ## Longest runs -/

/-- The longest run of characters that pass a test ends in front of one that fails. -/
theorem nextFails_dropWhile
    (test : Char → Bool)
    (text : List Char) :
    NextFails test (text.dropWhile test) := by
  intro c first
  simpa [Option.mem_def.1 first] using List.head?_dropWhile_not test text

/-- Characters that pass, in front of one that fails, are the longest run. -/
theorem NextFails.takeWhile_append
    {test : Char → Bool}
    {front after : List Char}
    (passes : ∀ c ∈ front, test c = true)
    (ends : NextFails test after) :
    (front ++ after).takeWhile test = front := by
  rw [List.takeWhile_append_of_pos passes]
  cases after with
  | nil => simp
  | cons c after => simp [ends c rfl]

/-- What follows the longest run of characters that pass is what comes behind it. -/
theorem NextFails.dropWhile_append
    {test : Char → Bool}
    {front after : List Char}
    (passes : ∀ c ∈ front, test c = true)
    (ends : NextFails test after) :
    (front ++ after).dropWhile test = after := by
  rw [List.dropWhile_append_of_pos passes]
  cases after with
  | nil => rfl
  | cons c after => simp [ends c rfl]

/-! ## Strings -/

/-- A closing quote is looked for behind the characters of a string. -/
theorem Quoted.closeString_append
    {body : List Char}
    (quoted : Quoted body)
    (rest : List Char) :
    closeString (body ++ rest) =
      (closeString rest).map fun (inner, after) => (body ++ inner, after) := by
  induction quoted with
  | nil => simp
  | plain notQuote notBackslash quoted inductionHypothesis =>
      rw [List.cons_append, closeString]
      · rw [inductionHypothesis, Option.map_map]
        rfl
      · exact notQuote
      · rintro c others rfl
        exact absurd rfl notBackslash
  | escaped c quoted inductionHypothesis =>
      rw [List.cons_append, List.cons_append, closeString, inductionHypothesis, Option.map_map]
      rfl

/-- A closing quote is found behind the characters of a string. -/
theorem closeString_eq_some
    {text body after : List Char}
    (closed : closeString text = some (body, after)) :
    Quoted body ∧ text = body ++ '"' :: after := by
  fun_induction closeString text generalizing body with
  | case1 => cases closed
  | case2 rest =>
      cases closed
      exact ⟨.nil, rfl⟩
  | case3 c rest inductionHypothesis =>
      obtain ⟨⟨inner, tail⟩, found, equal⟩ := Option.map_eq_some_iff.1 closed
      cases equal
      obtain ⟨quoted, rfl⟩ := inductionHypothesis found
      exact ⟨.escaped c quoted, rfl⟩
  | case4 c rest notQuote notEscape inductionHypothesis =>
      obtain ⟨⟨inner, tail⟩, found, equal⟩ := Option.map_eq_some_iff.1 closed
      cases equal
      obtain ⟨quoted, rfl⟩ := inductionHypothesis found
      -- the rest is not empty, since it holds the closing quote
      have notBackslash : c ≠ '\\' := by
        rintro rfl
        cases inner with
        | nil => exact notEscape _ _ rfl rfl
        | cons first inner => exact notEscape _ _ rfl rfl
      exact ⟨.plain notQuote notBackslash quoted, rfl⟩

/-- A string without closing quote goes on to the end of the text. -/
theorem closeString_eq_none
    {text : List Char}
    (noQuote : closeString text = none) :
    Unclosed text := by
  fun_induction closeString text with
  | case1 => exact .inl .nil
  | case2 rest => cases noQuote
  | case3 c rest inductionHypothesis =>
      rcases inductionHypothesis (Option.map_eq_none_iff.1 noQuote) with
        quoted | ⟨front, quoted, rfl⟩
      · exact .inl (.escaped c quoted)
      · exact .inr ⟨'\\' :: c :: front, .escaped c quoted, rfl⟩
  | case4 c rest notQuote notEscape inductionHypothesis =>
      by_cases backslash : c = '\\'
      · subst c
        cases rest with
        | nil => exact .inr ⟨[], .nil, rfl⟩
        | cons first rest => exact absurd rfl (notEscape first rest rfl)
      · rcases inductionHypothesis (Option.map_eq_none_iff.1 noQuote) with
          quoted | ⟨front, quoted, rfl⟩
        · exact .inl (.plain notQuote backslash quoted)
        · exact .inr ⟨c :: front, .plain notQuote backslash quoted, rfl⟩

/-- No closing quote is found in a string that is never closed. -/
theorem Unclosed.closeString
    {text : List Char}
    (unclosed : Unclosed text) :
    closeString text = none := by
  rcases unclosed with quoted | ⟨front, quoted, rfl⟩
  · simpa [Piece.closeString] using quoted.closeString_append []
  · simpa [Piece.closeString] using quoted.closeString_append ['\\']

/-! ## The first piece -/

/-- Punctuation of one character is spelled by that character. -/
theorem single?_eq_some
    {c : Char}
    {kind : Token.Kind}
    (found : single? c = some kind) :
    kind ∈ lone ∧ kind.lexeme.toList = [c] ∧ c ∈ signs := by
  unfold single? at found
  split at found <;> cases found <;> decide

/-- A sign that joins an equals sign spells two kinds of punctuation. -/
theorem joining?_eq_some
    {c : Char}
    {alone together : Token.Kind}
    (found : joining? c = some (alone, together)) :
    (alone ∈ joinable ∧ alone.lexeme.toList = [c]) ∧
      (together ∈ joined ∧ together.lexeme.toList = [c, '=']) ∧ c ∈ signs := by
  unfold joining? at found
  split at found <;> cases found <;> decide

/-- A character that is no punctuation, no quote and no slash is none of the signs. -/
theorem not_mem_signs
    {c : Char}
    (notQuote : c ≠ '"')
    (notSlash : c ≠ '/')
    (notSingle : single? c = none)
    (notJoining : joining? c = none) :
    c ∉ signs := by
  intro isSign
  simp only [signs, List.mem_cons, List.not_mem_nil, or_false] at isSign
  rcases isSign with rfl | rfl | rfl | rfl | rfl | rfl | rfl | rfl | rfl | rfl | rfl | rfl <;>
    simp_all [single?, joining?]

/-- The number that is cut off fits in front of what is left, and nothing is lost. -/
theorem cutNumber_fits
    {c : Char}
    (isDigit : c.isDigit = true)
    (rest : List Char) :
    (cutNumber c rest).1.text ++ (cutNumber c rest).2 = c :: rest ∧
      (cutNumber c rest).1.Fits (cutNumber c rest).2 := by
  have digits : ∀ digit ∈ c :: rest.takeWhile Char.isDigit, digit.isDigit = true := by
    intro digit member
    rcases List.mem_cons.1 member with rfl | later
    · exact isDigit
    · exact List.mem_takeWhile_imp later
  have whole : rest.takeWhile Char.isDigit ++ rest.dropWhile Char.isDigit = rest :=
    List.takeWhile_append_dropWhile
  have ends := nextFails_dropWhile Char.isDigit rest
  unfold cutNumber
  generalize rest.dropWhile Char.isDigit = after at whole ends
  fun_cases fraction? after with
  | case1 d others pointDigit =>
      simp only [fraction?, pointDigit, if_true]
      refine ⟨?_, .fraction (by simp) digits (by simp) ?_ (nextFails_dropWhile _ _)⟩
      · have fraction : others.takeWhile Char.isDigit ++ others.dropWhile Char.isDigit = others :=
          List.takeWhile_append_dropWhile
        simp [text, fraction, whole]
      · intro digit member
        rcases List.mem_cons.1 member with rfl | later
        · exact pointDigit
        · exact List.mem_takeWhile_imp later
  | case2 d others noDigit =>
      simp only [fraction?, noDigit]
      refine ⟨by simp [text, whole], .integer (by simp) digits ends ?_⟩
      rintro first tail equal
      cases equal
      simpa using noDigit
  | case3 _ noPoint =>
      have none : fraction? after = none := by
        unfold fraction?
        split
        · exact absurd rfl (noPoint _ _)
        · rfl
      simp only [none]
      exact ⟨by simp [text, whole], .integer (by simp) digits ends
        fun first tail equal => absurd equal (noPoint first tail)⟩

/-- What is cut off fits in front of what is left. -/
theorem cut_fits
    (c : Char)
    (rest : List Char) :
    (cut c rest).1.text ++ (cut c rest).2 = c :: rest ∧ (cut c rest).1.Fits (cut c rest).2 := by
  unfold cut
  split
  next separating => exact ⟨rfl, .blank rest separating⟩
  next noBlank =>
  split
  next starts =>
    refine ⟨by simp [text], .word starts ?_ (nextFails_dropWhile _ _)⟩
    exact fun letter member => List.mem_takeWhile_imp member
  next noWord =>
  split
  next isDigit => exact cutNumber_fits isDigit rest
  next noDigit =>
  split
  next isQuote =>
    subst c
    split
    next body after closed =>
      obtain ⟨quoted, rfl⟩ := closeString_eq_some closed
      exact ⟨by simp [text], .string after quoted⟩
    next noQuote => exact ⟨by simp [text], .openString (closeString_eq_none noQuote)⟩
  next notQuote =>
  split
  next isSlash =>
    subst c
    split
    next after =>
      refine ⟨by simp [text], .comment ?_ (nextFails_dropWhile _ _)⟩
      intro newline
      simpa using List.mem_takeWhile_imp newline
    next noComment =>
      refine ⟨rfl, .slash ?_⟩
      intro first isFirst
      cases rest with
      | nil => cases isFirst
      | cons head tail =>
          cases isFirst
          simpa using noComment tail
  next notSlash =>
  split
  next kind found =>
    obtain ⟨isLone, spelled, _⟩ := single?_eq_some found
    exact ⟨by simp [text, spelled], .lone rest isLone⟩
  next alone together notSingle found =>
    obtain ⟨⟨isJoinable, spelledAlone⟩, ⟨isJoined, spelledTogether⟩, _⟩ := joining?_eq_some found
    split
    next after => exact ⟨by simp [text, spelledTogether], .joined after isJoined⟩
    next noEqual =>
      refine ⟨by simp [text, spelledAlone], .joinable isJoinable ?_⟩
      intro first isFirst
      cases rest with
      | nil => cases isFirst
      | cons head tail =>
          cases isFirst
          simpa using noEqual tail
  next notSingle notJoining =>
    exact ⟨rfl, .stray rest (by simpa using noBlank) (by simpa using noWord)
      (by simpa using noDigit) (not_mem_signs notQuote notSlash notSingle notJoining)⟩

/-! ## No other piece -/

/-- No character that starts a word is blank. -/
theorem not_separates_of_startsWord
    {c : Char}
    (starts : startsWord c = true) :
    separates c = false := by
  cases separating : separates c with
  | false => rfl
  | true =>
      simp only [separates, Bool.or_eq_true, decide_eq_true_eq] at separating
      rcases separating with ((rfl | rfl) | rfl) | rfl <;> cases starts

/-- No digit is blank. -/
theorem not_separates_of_isDigit
    {c : Char}
    (isDigit : c.isDigit = true) :
    separates c = false := by
  cases separating : separates c with
  | false => rfl
  | true =>
      simp only [separates, Bool.or_eq_true, decide_eq_true_eq] at separating
      rcases separating with ((rfl | rfl) | rfl) | rfl <;> cases isDigit

/-- No digit starts a word. -/
theorem not_startsWord_of_isDigit
    {c : Char}
    (isDigit : c.isDigit = true) :
    startsWord c = false := by
  have digit : (decide (48 ≤ c.val) && decide (c.val ≤ 57)) = true := isDigit
  change (decide (65 ≤ c.val ∧ c.val ≤ 90) ||
    (decide (97 ≤ c.val) && decide (c.val ≤ 122)) || decide (c = '_')) = false
  have notUnderscore : c ≠ '_' := by
    rintro rfl
    cases isDigit
  simp only [Bool.and_eq_true, decide_eq_true_eq, UInt32.le_iff_toNat_le, UInt32.reduceToNat]
    at digit
  simp only [notUnderscore, decide_false, Bool.or_false, Bool.or_eq_false_iff,
    Bool.and_eq_false_iff, decide_eq_false_iff_not, UInt32.le_iff_toNat_le, UInt32.reduceToNat]
  omega

theorem cut_of_isDigit
    {c : Char}
    (isDigit : c.isDigit = true)
    (rest : List Char) :
    cut c rest = cutNumber c rest := by
  simp [cut, not_separates_of_isDigit isDigit, not_startsWord_of_isDigit isDigit, isDigit]

theorem cut_slash
    {rest : List Char}
    (ends : NextFails (· = '/') rest) :
    cut '/' rest = (.symbol .slash, rest) := by
  cases rest with
  | nil => rfl
  | cons first rest =>
      have notSlash : first ≠ '/' := by simpa using ends first rfl
      unfold cut
      rw [if_neg (by decide), if_neg (by decide), if_neg (by decide), if_neg (by decide),
        if_pos rfl]
      split
      next after same => exact absurd (List.cons.inj same).1 notSlash
      next => rfl

/-- A quote that is closed starts a string. -/
theorem cut_closed
    {rest body after : List Char}
    (closed : closeString rest = some (body, after)) :
    cut '"' rest = (.string body, after) := by
  unfold cut
  rw [if_neg (by decide), if_neg (by decide), if_neg (by decide), if_pos rfl, closed]

/-- A quote that is never closed starts a string that takes the rest of the text. -/
theorem cut_unclosed
    {rest : List Char}
    (noQuote : closeString rest = none) :
    cut '"' rest = (.openString rest, []) := by
  unfold cut
  rw [if_neg (by decide), if_neg (by decide), if_neg (by decide), if_pos rfl, noQuote]

theorem cut_of_single
    {c : Char}
    {kind : Token.Kind}
    (found : single? c = some kind)
    (rest : List Char) :
    cut c rest = (.symbol kind, rest) := by
  unfold single? at found
  split at found <;> cases found <;> rfl

/-- An equals sign joins the sign in front of it. -/
theorem cut_joined
    {c : Char}
    {alone together : Token.Kind}
    (found : joining? c = some (alone, together))
    (after : List Char) :
    cut c ('=' :: after) = (.symbol together, after) := by
  unfold joining? at found
  split at found <;> cases found <;> rfl

/-- A sign stands alone in front of another character. -/
theorem cut_alone
    {c : Char}
    {alone together : Token.Kind}
    (found : joining? c = some (alone, together))
    {rest : List Char}
    (ends : NextFails (· = '=') rest) :
    cut c rest = (.symbol alone, rest) := by
  cases rest with
  | nil =>
      unfold joining? at found
      split at found <;> cases found <;> rfl
  | cons first rest =>
      have notEqual : first ≠ '=' := by simpa using ends first rfl
      unfold joining? at found
      split at found <;> cases found <;> unfold cut <;>
        rw [if_neg (by decide), if_neg (by decide), if_neg (by decide), if_neg (by decide),
          if_neg (by decide)] <;>
        simp [single?, joining?, notEqual]

theorem exists_single_of_mem_lone
    {kind : Token.Kind}
    (isLone : kind ∈ lone) :
    ∃ c, single? c = some kind ∧ kind.lexeme.toList = [c] := by
  simp only [lone, List.mem_cons, List.not_mem_nil, or_false] at isLone
  rcases isLone with rfl | rfl | rfl | rfl | rfl | rfl <;> exact ⟨_, rfl, rfl⟩

/-- Punctuation that ends in an equals sign is spelled with a sign that joins one. -/
theorem exists_joining_of_mem_joined
    {kind : Token.Kind}
    (isJoined : kind ∈ joined) :
    ∃ c alone, joining? c = some (alone, kind) ∧ kind.lexeme.toList = [c, '='] := by
  simp only [joined, List.mem_cons, List.not_mem_nil, or_false] at isJoined
  rcases isJoined with rfl | rfl | rfl | rfl
  · exact ⟨'!', _, rfl, rfl⟩
  · exact ⟨'>', _, rfl, rfl⟩
  · exact ⟨'<', _, rfl, rfl⟩
  · exact ⟨'=', _, rfl, rfl⟩

theorem exists_joining_of_mem_joinable
    {kind : Token.Kind}
    (isJoinable : kind ∈ joinable) :
    ∃ c together, joining? c = some (kind, together) ∧ kind.lexeme.toList = [c] := by
  simp only [joinable, List.mem_cons, List.not_mem_nil, or_false] at isJoinable
  rcases isJoinable with rfl | rfl | rfl | rfl
  · exact ⟨'!', _, rfl, rfl⟩
  · exact ⟨'>', _, rfl, rfl⟩
  · exact ⟨'<', _, rfl, rfl⟩
  · exact ⟨'=', _, rfl, rfl⟩

/-- A piece that fits in front of a text is what is cut off. -/
theorem Fits.cut_eq
    {piece : Piece}
    {after : List Char}
    (fits : piece.Fits after)
    {c : Char}
    {rest : List Char}
    (starts : piece.text ++ after = c :: rest) :
    cut c rest = (piece, after) := by
  cases fits with
  | blank _ separating =>
      cases starts
      simp [cut, separating]
  | @comment body _ oneLine ends =>
      cases starts
      have passes : ∀ letter ∈ body, decide (letter ≠ '\n') = true := by
        intro letter member
        simpa using ne_of_mem_of_not_mem member oneLine
      change (Piece.comment ((body ++ after).takeWhile _), (body ++ after).dropWhile _) = _
      rw [ends.takeWhile_append passes, ends.dropWhile_append passes]
  | lone _ isLone =>
      obtain ⟨first, found, spelled⟩ := exists_single_of_mem_lone isLone
      simp only [text, spelled] at starts
      cases starts
      exact cut_of_single found after
  | slash ends =>
      cases starts
      exact cut_slash ends
  | joined _ isJoined =>
      obtain ⟨first, alone, found, spelled⟩ := exists_joining_of_mem_joined isJoined
      simp only [text, spelled] at starts
      cases starts
      exact cut_joined found after
  | joinable isJoinable ends =>
      obtain ⟨first, together, found, spelled⟩ := exists_joining_of_mem_joinable isJoinable
      simp only [text, spelled] at starts
      cases starts
      exact cut_alone found ends
  | word startsIt continues ends =>
      cases starts
      simp [cut, not_separates_of_startsWord startsIt, startsIt, ends.takeWhile_append continues,
        ends.dropWhile_append continues]
  | @integer whole _ nonempty digits ends noFraction =>
      obtain ⟨first, others, rfl⟩ := List.exists_cons_of_ne_nil nonempty
      cases starts
      have later : ∀ digit ∈ others, digit.isDigit = true :=
        fun digit member => digits digit (.tail _ member)
      have absent : fraction? after = none := by
        unfold fraction?
        split
        · rw [if_neg (by simp [noFraction _ _ rfl])]
        · rfl
      rw [cut_of_isDigit (digits c (.head _))]
      simp [cutNumber, ends.takeWhile_append later, ends.dropWhile_append later, absent]
  | @fraction whole fraction _ nonempty digits more moreDigits ends =>
      obtain ⟨first, others, rfl⟩ := List.exists_cons_of_ne_nil nonempty
      obtain ⟨second, further, rfl⟩ := List.exists_cons_of_ne_nil more
      simp only [text, List.append_assoc, List.cons_append, List.cons.injEq] at starts
      obtain ⟨rfl, rfl⟩ := starts
      have later : ∀ digit ∈ others, digit.isDigit = true :=
        fun digit member => digits digit (.tail _ member)
      have evenLater : ∀ digit ∈ further, digit.isDigit = true :=
        fun digit member => moreDigits digit (.tail _ member)
      have point : NextFails Char.isDigit ('.' :: second :: (further ++ after)) := by
        rintro _ ⟨⟩
        rfl
      have found : fraction? ('.' :: second :: (further ++ after)) =
          some (second :: further, after) := by
        simp [fraction?, moreDigits second (.head _), ends.takeWhile_append evenLater,
          ends.dropWhile_append evenLater]
      rw [cut_of_isDigit (digits first (.head _))]
      simp only [cutNumber, point.takeWhile_append later, point.dropWhile_append later, found]
  | @string body _ quoted =>
      simp only [text, List.append_assoc, List.cons_append, List.cons.injEq] at starts
      obtain ⟨rfl, rfl⟩ := starts
      have closed : closeString (body ++ (['"'] ++ after)) = some (body, after) := by
        rw [quoted.closeString_append]
        simp [closeString]
      exact cut_closed closed
  | @openString body unclosed =>
      simp only [text, List.append_nil, List.cons.injEq] at starts
      obtain ⟨rfl, rfl⟩ := starts
      exact cut_unclosed unclosed.closeString
  | stray _ noBlank noWord noDigit noSign =>
      cases starts
      have notQuote : c ≠ '"' := fun isQuote => noSign (by simp [isQuote, signs])
      have notSlash : c ≠ '/' := fun isSlash => noSign (by simp [isSlash, signs])
      have notSingle : single? c = none :=
        Option.eq_none_iff_forall_ne_some.2 fun kind found => noSign (single?_eq_some found).2.2
      have notJoining : joining? c = none :=
        Option.eq_none_iff_forall_ne_some.2 fun pair found => noSign (joining?_eq_some found).2.2
      simp [cut, noBlank, noWord, noDigit, notQuote, notSlash, notSingle, notJoining]

/-- No piece is empty. -/
theorem Fits.text_ne_nil
    {piece : Piece}
    {after : List Char}
    (fits : piece.Fits after) :
    piece.text ≠ [] := by
  cases fits with
  | lone _ isLone =>
      obtain ⟨first, _, spelled⟩ := exists_single_of_mem_lone isLone
      simp [text, spelled]
  | slash => exact List.cons_ne_nil '/' []
  | joined _ isJoined =>
      obtain ⟨first, _, _, spelled⟩ := exists_joining_of_mem_joined isJoined
      simp [text, spelled]
  | joinable isJoinable =>
      obtain ⟨first, _, _, spelled⟩ := exists_joining_of_mem_joinable isJoinable
      simp [text, spelled]
  | integer nonempty => exact nonempty
  | fraction => simp [text]
  | _ => exact List.cons_ne_nil _ _

/-! ## All pieces -/

/-- A text is made of pieces that fit in front of each other. -/
inductive Tiled : List Char → List Piece → Prop where
  | nil : Tiled [] []
  | cons {piece : Piece} {after : List Char} {others : List Piece}
      (fits : piece.Fits after) (tiled : Tiled after others) :
      Tiled (piece.text ++ after) (piece :: others)

/-- A text is made of its pieces. -/
theorem tiled_pieces (text : List Char) : Tiled text (pieces text) := by
  fun_induction pieces text with
  | case1 => exact .nil
  | case2 c rest _ inductionHypothesis =>
      obtain ⟨split, fits⟩ := cut_fits c rest
      rw [← split]
      exact .cons fits inductionHypothesis

/-- The pieces of a text are the only ones that it is made of. -/
theorem tiled_iff
    {text : List Char}
    {all : List Piece} :
    Tiled text all ↔ pieces text = all := by
  refine ⟨fun tiled => ?_, fun equal => equal ▸ tiled_pieces text⟩
  induction tiled with
  | nil => simp [pieces]
  | @cons piece after others fits tiled inductionHypothesis =>
      obtain ⟨c, rest, starts⟩ : ∃ c rest, piece.text ++ after = c :: rest :=
        List.exists_cons_of_ne_nil (List.append_ne_nil_of_left_ne_nil fits.text_ne_nil after)
      rw [starts, pieces, fits.cut_eq starts, inductionHypothesis]

end Piece
end ScalarScript
