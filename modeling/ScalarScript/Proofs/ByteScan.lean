import ScalarScript.Proofs.CharacterBytes

/-!
# Scanning byte by byte

Between two tokens the cursor on the bytes of a text stands in front of a piece that fits there.  It
reads the token or the error of that piece and goes over its characters, so that the tokens and
errors of the whole text are those of `scan`.
-/

namespace ScalarScript

open Text

namespace Lexer

/-! ## Tokens -/

section Tokens

variable {lexer : Lexer} {before middle after : List Char}

/-- An expected character that comes is gone over. -/
theorem matchByte_of_comes
    {c : Char}
    (place : lexer.At before (c :: after))
    (ascii : c.toNat < 128)
    (notNewline : c ≠ '\n') :
    lexer.matchByte c = (true, lexer.past [c]) := by
  simp [matchByte, place.finished_eq, place.peek_eq ascii,
    forward_one_eq_past lexer ascii notNewline]

/-- Where another character comes, nothing is gone over. -/
theorem matchByte_of_fails
    {c : Char}
    (place : lexer.At before after)
    (ascii : c.toNat < 128)
    (fails : Piece.NextFails (· = c) after) :
    lexer.matchByte c = (false, lexer) := by
  have ofAscii : OfAscii (· = c) := .eq ascii
  cases after with
  | nil => simp [matchByte, place.finished_eq]
  | cons next after =>
      have differs : decide (Char.ofUInt8 lexer.peek = c) = false :=
        (ofAscii.test_byte place.peek_mem).trans (fails next rfl)
      simp [matchByte, of_decide_eq_false differs]

theorem either_of_comes
    {c : Char}
    (place : lexer.At before (c :: after))
    (ascii : c.toNat < 128)
    (notNewline : c ≠ '\n')
    (matched otherwise : Token.Kind) :
    lexer.either c matched otherwise = (lexer.past [c]).token matched none := by
  simp [either, matchByte_of_comes place ascii notNewline]

theorem either_of_fails
    {c : Char}
    (place : lexer.At before after)
    (ascii : c.toNat < 128)
    (fails : Piece.NextFails (· = c) after)
    (matched otherwise : Token.Kind) :
    lexer.either c matched otherwise = lexer.token otherwise none := by
  simp [either, matchByte_of_fails place ascii fails]

/-- A comment is gone over up to the end of its line. -/
theorem skipLine_eq
    {body : List Char}
    (place : lexer.At before (body ++ after))
    (oneLine : '\n' ∉ body)
    (ends : Piece.NextFails (· ≠ '\n') after) :
    lexer.skipLine = lexer.past body := by
  have ofAscii : OfAscii (· = '\n') := .eq (by decide)
  have sameBytes : ∀ {c byte}, byte ∈ String.utf8EncodeChar c →
      decide (Char.ofUInt8 byte ≠ '\n') = decide (c ≠ '\n') := by
    intro c byte isByte
    simpa using ofAscii.test_byte isByte
  have passes : ∀ c ∈ body, decide (c ≠ '\n') = true := by
    intro c inBody
    exact decide_eq_true (ne_of_mem_of_not_mem inBody oneLine)
  exact skipWhile_eq (fun unfinished => by simp [unfinished]) sameBytes rfl place passes ends

/-- A word is gone over as far as it goes. -/
theorem skipWord_eq
    {letters : List Char}
    (place : lexer.At before (letters ++ after))
    (continues : ∀ letter ∈ letters, Piece.continuesWord letter = true)
    (ends : Piece.NextFails Piece.continuesWord after) :
    lexer.skipWord = lexer.past letters :=
  skipWhile_eq (fun _ => rfl) OfAscii.continuesWord.test_byte rfl place continues ends

/-- Digits are gone over as far as they go. -/
theorem skipDigits_eq
    {digits : List Char}
    (place : lexer.At before (digits ++ after))
    (continues : ∀ digit ∈ digits, digit.isDigit = true)
    (ends : Piece.NextFails Char.isDigit after) :
    lexer.skipDigits = lexer.past digits :=
  skipWhile_eq (fun _ => rfl) OfAscii.isDigit.test_byte rfl place continues ends

/-- A number ends in front of a point that no digit follows. -/
theorem skipFraction_of_fails
    (place : lexer.At before after)
    (noFraction : ∀ c rest, after = '.' :: c :: rest → c.isDigit = false) :
    lexer.skipFraction = lexer := by
  have ofAscii : OfAscii (· = '.') := .eq (by decide)
  have isPoint := place.test_peek ofAscii rfl
  have fails : (decide (Char.ofUInt8 lexer.peek = '.') &&
      (Char.ofUInt8 lexer.peekNext).isDigit) = false := by
    rw [isPoint]
    cases after with
    | nil => rfl
    | cons c rest =>
        by_cases point : c = '.'
        · subst c
          have behind : (lexer.forward 1).At (before ++ ['.']) rest := place.forward ['.']
          have isDigit : (Char.ofUInt8 lexer.peekNext).isDigit = rest.head?.any Char.isDigit :=
            behind.test_peek OfAscii.isDigit rfl
          rw [isDigit]
          cases rest with
          | nil => rfl
          | cons next rest => simp [noFraction next rest rfl]
        · simp [point]
  rw [skipFraction, fails]
  rfl

/-- A number goes on behind a point with a digit. -/
theorem skipFraction_of_comes
    {digit : Char}
    {fraction : List Char}
    (place : lexer.At before ('.' :: (digit :: fraction ++ after)))
    (digits : ∀ other ∈ digit :: fraction, other.isDigit = true)
    (ends : Piece.NextFails Char.isDigit after) :
    lexer.skipFraction = lexer.past ('.' :: digit :: fraction) := by
  have behind : (lexer.forward 1).At (before ++ ['.']) (digit :: fraction ++ after) :=
    place.forward ['.']
  have isPoint : Char.ofUInt8 lexer.peek = '.' := place.peek_eq (by decide)
  have isDigit : (Char.ofUInt8 lexer.peekNext).isDigit = true :=
    (behind.test_peek OfAscii.isDigit rfl).trans (digits digit (.head _))
  simp only [skipFraction, isPoint, isDigit, decide_true, Bool.and_self, if_true]
  rw [place.advance, skipDigits_eq behind digits ends,
    forward_one_eq_past lexer (c := '.') (by decide) (by decide), ← past_append]
  rfl

/-- Cutting out some bytes of a text cuts out the characters that fill them. -/
theorem At.slice_eq
    (place : lexer.At before (middle ++ after)) :
    lexer.slice lexer.current (lexer.current + byteLength middle) = String.ofList middle := by
  have cutOut := String.extract_of_valid before middle after
  rwa [List.append_assoc, ← place.text, String.ofList_toList, utf8Len_eq_byteLength,
    utf8Len_eq_byteLength, ← place.offset] at cutOut

/-- The spelling of the current token. -/
theorem slice_past
    (place : lexer.At before (middle ++ after)) :
    let last := lexer.starting.past middle
    last.slice last.start last.current = String.ofList middle :=
  place.slice_eq

end Tokens

/-! ## Pieces -/

/-- The place of the cursor. -/
def cursor (lexer : Lexer) : Cursor :=
  ⟨lexer.current, lexer.line⟩

/-- The token or error of a piece that is gone over, and the cursor behind it. -/
def reading (lexer : Lexer) (piece : Piece) : Option Lexeme × Lexer :=
  (piece.lexeme? lexer.cursor (lexer.cursor.past piece.text), lexer.starting.past piece.text)

section Pieces

variable {lexer : Lexer} {before after : List Char}

/-- The first byte of a token that starts with an ASCII character is that character. -/
theorem scanSingle_eq_scanAfter
    {c : Char}
    (place : lexer.At before (c :: after))
    (ascii : c.toNat < 128)
    (notNewline : c ≠ '\n') :
    lexer.scanSingle = (lexer.starting.past [c]).scanAfter c := by
  rw [scanSingle, place.starting.advance, place.starting.peek_eq ascii,
    forward_one_eq_past _ ascii notNewline]

/-- What starts with no blank and no sign is a word, a number or a stray character. -/
theorem scanAfter_eq_scanOther
    {c : Char}
    (noBlank : Piece.separates c = false)
    (noSign : c ∉ Piece.signs)
    (lexer : Lexer) :
    lexer.scanAfter c = lexer.scanOther c := by
  unfold scanAfter
  split
  case h_17 => rfl
  all_goals first | exact absurd noBlank (by decide) | exact absurd noSign (by decide)

theorem ne_newline_of_noBlank
    {c : Char}
    (noBlank : Piece.separates c = false) :
    c ≠ '\n' := by
  rintro rfl
  exact absurd noBlank (by decide)

/-- A test that fails for every sign holds of other characters only. -/
theorem not_mem_signs_of_test
    {test : Char → Bool}
    (fails : ∀ sign ∈ Piece.signs, test sign = false)
    {c : Char}
    (passes : test c = true) :
    c ∉ Piece.signs := by
  intro isSign
  simp [fails c isSign] at passes

/-- Words and numbers start with none of the other characters that have a meaning. -/
theorem scanSingle_eq_scanOther
    {c : Char}
    (place : lexer.At before (c :: after))
    (ascii : c.toNat < 128)
    (noBlank : Piece.separates c = false)
    (noSign : c ∉ Piece.signs) :
    lexer.scanSingle = (lexer.starting.past [c]).scanOther c := by
  rw [scanSingle_eq_scanAfter place ascii (ne_newline_of_noBlank noBlank),
    scanAfter_eq_scanOther noBlank noSign]

theorem reading_symbol
    {kind : Token.Kind}
    {text : List Char}
    (spelled : kind.lexeme.toList = text)
    (lexer : Lexer) :
    lexer.reading (.symbol kind) = (lexer.starting.past text).token kind none := by
  simp only [reading, Piece.text, spelled]
  rfl

/-- Punctuation is ASCII, and no newline. -/
theorem ascii_of_mem_signs : ∀ c ∈ Piece.signs, c.toNat < 128 ∧ c ≠ '\n' := by
  simp [Piece.signs]

/-- Punctuation that joins nothing is read alone. -/
theorem scanSingle_lone
    {kind : Token.Kind}
    (isLone : kind ∈ Piece.lone)
    (place : lexer.At before (kind.lexeme.toList ++ after)) :
    lexer.scanSingle = lexer.reading (.symbol kind) := by
  obtain ⟨c, single, spelled⟩ := Piece.exists_single_of_mem_lone isLone
  obtain ⟨ascii, notNewline⟩ := ascii_of_mem_signs c (Piece.single?_eq_some single).2.2
  have scanned : (lexer.starting.past [c]).scanAfter c =
      (lexer.starting.past [c]).token kind none := by
    unfold Piece.single? at single
    split at single <;> cases single <;> rfl
  rw [spelled] at place
  rw [scanSingle_eq_scanAfter place ascii notNewline, scanned, reading_symbol spelled]

/-- Signs that join an equals sign look for one. -/
theorem scanSingle_eq_either
    {c : Char}
    {alone together : Token.Kind}
    (joining : Piece.joining? c = some (alone, together))
    (place : lexer.At before (c :: after)) :
    lexer.scanSingle = (lexer.starting.past [c]).either '=' together alone := by
  obtain ⟨ascii, notNewline⟩ := ascii_of_mem_signs c (Piece.joining?_eq_some joining).2.2
  rw [scanSingle_eq_scanAfter place ascii notNewline]
  unfold Piece.joining? at joining
  split at joining <;> cases joining <;> rfl

/-- An equals sign is read together with the sign in front of it. -/
theorem scanSingle_joined
    {kind : Token.Kind}
    (isJoined : kind ∈ Piece.joined)
    (place : lexer.At before (kind.lexeme.toList ++ after)) :
    lexer.scanSingle = lexer.reading (.symbol kind) := by
  obtain ⟨c, alone, joining, spelled⟩ := Piece.exists_joining_of_mem_joined isJoined
  rw [spelled] at place
  rw [scanSingle_eq_either joining place,
    either_of_comes (place.starting.past [c]) (by decide) (by decide), ← past_append,
    reading_symbol spelled]
  rfl

/-- A sign is read alone where no equals sign follows. -/
theorem scanSingle_joinable
    {kind : Token.Kind}
    (isJoinable : kind ∈ Piece.joinable)
    (ends : Piece.NextFails (· = '=') after)
    (place : lexer.At before (kind.lexeme.toList ++ after)) :
    lexer.scanSingle = lexer.reading (.symbol kind) := by
  obtain ⟨c, together, joining, spelled⟩ := Piece.exists_joining_of_mem_joinable isJoinable
  rw [spelled] at place
  rw [scanSingle_eq_either joining place,
    either_of_fails (place.starting.past [c]) (by decide) ends, reading_symbol spelled]

/-- A blank is gone over, and a newline is counted. -/
theorem scanSingle_blank
    {c : Char}
    (separating : Piece.separates c = true)
    (place : lexer.At before (c :: after)) :
    lexer.scanSingle = lexer.reading (.blank c) := by
  have scanned : lexer.scanSingle = (lexer.starting.forward 1).scanAfter c := by
    rw [scanSingle, place.starting.advance, place.starting.peek_eq (OfAscii.separates c separating)]
  rw [scanned]
  simp only [Piece.separates, Bool.or_eq_true, decide_eq_true_eq] at separating
  rcases separating with ((rfl | rfl) | rfl) | rfl <;> rfl

theorem scanSlash_slash
    (ends : Piece.NextFails (· = '/') after)
    (place : lexer.At before ('/' :: after)) :
    (lexer.starting.past ['/']).scanSlash = lexer.reading (.symbol .slash) := by
  rw [scanSlash, matchByte_of_fails (place.starting.past ['/']) (by decide) ends]
  rfl

/-- A second slash starts a comment. -/
theorem scanSlash_comment
    {body : List Char}
    (place : lexer.At before ('/' :: '/' :: (body ++ after)))
    (oneLine : '\n' ∉ body)
    (ends : Piece.NextFails (· ≠ '\n') after) :
    (lexer.starting.past ['/']).scanSlash = lexer.reading (.comment body) := by
  have second := place.starting.past ['/']
  rw [scanSlash, matchByte_of_comes second (by decide) (by decide)]
  simp only [if_true]
  rw [skipLine_eq (second.past ['/']) oneLine ends, ← past_append, ← past_append]
  rfl

/-- A word is read as a keyword or an identifier by its spelling. -/
theorem scanSingle_word
    {c : Char}
    {letters : List Char}
    (starts : Piece.startsWord c = true)
    (continues : ∀ letter ∈ letters, Piece.continuesWord letter = true)
    (ends : Piece.NextFails Piece.continuesWord after)
    (place : lexer.At before (c :: letters ++ after)) :
    lexer.scanSingle = lexer.reading (.word (c :: letters)) := by
  have noSign : c ∉ Piece.signs :=
    not_mem_signs_of_test (by simp [Piece.signs, Piece.startsWord]) starts
  rw [scanSingle_eq_scanOther place (OfAscii.startsWord c starts)
    (Piece.not_separates_of_startsWord starts) noSign]
  unfold scanOther
  rw [if_pos (by simpa [Piece.startsWord] using starts)]
  have last : (lexer.starting.past [c]).skipWord = lexer.starting.past (c :: letters) := by
    rw [skipWord_eq (place.starting.past [c]) continues ends, ← past_append]
    rfl
  unfold scanWord reading Piece.lexeme?
  dsimp only
  rw [last, slice_past place]
  cases Token.Kind.keyword? (String.ofList (c :: letters)) <;> rfl

/-- What starts with a digit is read as a number. -/
theorem scanSingle_eq_scanNumber
    {digit : Char}
    (isDigit : digit.isDigit = true)
    (place : lexer.At before (digit :: after)) :
    lexer.scanSingle = (lexer.starting.past [digit]).scanNumber := by
  have noSign : digit ∉ Piece.signs := not_mem_signs_of_test (by simp [Piece.signs]) isDigit
  have noWord : (digit.isAlpha || digit = '_') = false := Piece.not_startsWord_of_isDigit isDigit
  rw [scanSingle_eq_scanOther place (OfAscii.isDigit digit isDigit)
    (Piece.not_separates_of_isDigit isDigit) noSign]
  simp [scanOther, noWord, isDigit]

/-- A number is parsed from its spelling. -/
theorem scanNumber_of_parse?
    {digit : Char}
    {spelling : List Char}
    {value : Float}
    (place : lexer.At before (spelling ++ after))
    (last : (lexer.starting.past [digit]).skipDigits.skipFraction = lexer.starting.past spelling)
    (parsed : Decimal.parse? spelling = some value) :
    (lexer.starting.past [digit]).scanNumber =
      (lexer.starting.past spelling).token .number (some (.number value)) := by
  unfold scanNumber
  dsimp only
  rw [last, slice_past place, String.toList_ofList, parsed]
  rfl

theorem skipDigits_whole
    {digit : Char}
    {digits : List Char}
    (place : lexer.At before (digit :: digits ++ after))
    (allDigits : ∀ other ∈ digit :: digits, other.isDigit = true)
    (ends : Piece.NextFails Char.isDigit after) :
    (lexer.starting.past [digit]).skipDigits = lexer.starting.past (digit :: digits) := by
  have others : ∀ other ∈ digits, other.isDigit = true :=
    fun other isOther => allDigits other (.tail _ isOther)
  rw [skipDigits_eq (place.starting.past [digit]) others ends, ← past_append]
  rfl

/-- A number without fraction is read. -/
theorem scanNumber_integer
    {digit : Char}
    {digits : List Char}
    (place : lexer.At before (digit :: digits ++ after))
    (allDigits : ∀ other ∈ digit :: digits, other.isDigit = true)
    (ends : Piece.NextFails Char.isDigit after)
    (noFraction : ∀ c rest, after = '.' :: c :: rest → c.isDigit = false) :
    (lexer.starting.past [digit]).scanNumber = lexer.reading (.number (digit :: digits) none) := by
  have last : (lexer.starting.past [digit]).skipDigits.skipFraction =
      lexer.starting.past (digit :: digits) := by
    rw [skipDigits_whole place allDigits ends,
      skipFraction_of_fails (place.starting.past _) noFraction]
  exact scanNumber_of_parse? place last (Decimal.parse?_whole (List.cons_ne_nil _ _) allDigits)

/-- A number with a fraction is read together with its point. -/
theorem scanNumber_fraction
    {digit : Char}
    {digits fraction : List Char}
    (place : lexer.At before (digit :: digits ++ '.' :: fraction ++ after))
    (allDigits : ∀ other ∈ digit :: digits, other.isDigit = true)
    (more : fraction ≠ [])
    (moreDigits : ∀ other ∈ fraction, other.isDigit = true)
    (ends : Piece.NextFails Char.isDigit after) :
    (lexer.starting.past [digit]).scanNumber =
      lexer.reading (.number (digit :: digits) (some fraction)) := by
  obtain ⟨first, others, rfl⟩ := List.exists_cons_of_ne_nil more
  have point : Piece.NextFails Char.isDigit ('.' :: (first :: others ++ after)) := by
    rintro _ ⟨⟩
    rfl
  have atWhole : lexer.At before (digit :: digits ++ '.' :: (first :: others ++ after)) := by
    simpa using place
  have last : (lexer.starting.past [digit]).skipDigits.skipFraction =
      lexer.starting.past (digit :: digits ++ '.' :: first :: others) := by
    rw [skipDigits_whole atWhole allDigits point,
      skipFraction_of_comes (atWhole.starting.past _) moreDigits ends, past_append]
  exact scanNumber_of_parse? place last
    (Decimal.parse?_fraction (List.cons_ne_nil _ _) allDigits more moreDigits)

/-- A string is read with both quotes, and its text is what is between them. -/
theorem scanString_string
    {body : List Char}
    (quoted : Piece.Quoted body)
    (place : lexer.At before ('"' :: (body ++ '"' :: after))) :
    (lexer.starting.past ['"']).scanString = lexer.reading (.string body) := by
  have inside := place.starting.past ['"']
  have atQuote := inside.past body
  have found : (lexer.starting.past ['"']).closing = (lexer.starting.past ['"']).past body :=
    closing_closed quoted inside
  have closed : (lexer.starting.past ['"']).closing.advance.2 =
      lexer.starting.past ('"' :: body ++ ['"']) := by
    rw [found, atQuote.advance, forward_one_eq_past _ (c := '"') (by decide) (by decide),
      ← past_append, ← past_append]
    rfl
  have unfinished : (lexer.starting.past ['"']).closing.finished = false := by
    rw [found]
    exact atQuote.finished_eq
  -- the quotes are one byte each
  have stop : lexer.current + byteLength ('"' :: body ++ ['"']) - 1 =
      lexer.current + 1 + byteLength body := by
    have quote : '"'.utf8Size = 1 := rfl
    simp only [List.cons_append, byteLength_cons, byteLength_append, byteLength_nil, quote]
    omega
  have text : lexer.slice (lexer.current + 1)
      (lexer.current + byteLength ('"' :: body ++ ['"']) - 1) = String.ofList body := by
    rw [stop]
    exact inside.slice_eq
  unfold scanString
  rw [unfinished, closed]
  simp only [reading, Piece.lexeme?, ← text]
  rfl

/-- A string that is never closed is an error that reaches to the end of the text. -/
theorem scanString_openString
    {body : List Char}
    (unclosed : Piece.Unclosed body)
    (place : lexer.At before ('"' :: body)) :
    (lexer.starting.past ['"']).scanString = lexer.reading (.openString body) := by
  have inside := place.starting.past ['"']
  have last : (lexer.starting.past ['"']).closing = lexer.starting.past ('"' :: body) := by
    rw [closing_unclosed unclosed inside, ← past_append]
    rfl
  have finished : (lexer.starting.past ('"' :: body)).finished = true := by
    rw [← List.append_nil ('"' :: body)] at place
    exact (place.starting.past _).finished_eq
  unfold scanString
  rw [last, finished]
  rfl

/-- A stray character is gone over with all its bytes. -/
theorem scanStray_eq
    {c : Char}
    (place : lexer.At before (c :: after))
    (notNewline : c ≠ '\n') :
    (lexer.starting.forward 1).scanStray = lexer.reading (.stray c) := by
  have size : lexer.source.utf8ByteSize = lexer.current + byteLength (c :: after) := by
    rw [← byteLength_toList, place.text, byteLength_append, place.offset]
  have rest : lexer.slice lexer.current lexer.source.utf8ByteSize = String.ofList (c :: after) := by
    rw [← List.append_nil (c :: after)] at place
    rw [size]
    exact place.slice_eq
  have sameLine : [c].count '\n' = 0 :=
    List.count_eq_zero_of_not_mem (by simpa using Ne.symm notNewline)
  have head : (lexer.slice lexer.current lexer.source.utf8ByteSize).toList.head?.getD '\ufffd' =
      c := by
    simp [rest]
  have first : (lexer.starting.forward 1).scanStray =
      let c := (lexer.slice lexer.current lexer.source.utf8ByteSize).toList.head?.getD '\ufffd'
      { lexer.starting with current := lexer.current + c.utf8Size }.error (.unexpected c) := rfl
  rw [first]
  dsimp only
  rw [head]
  simp [reading, error, span, Piece.lexeme?, Piece.text, Cursor.past, Cursor.spanTo, cursor, past,
    starting, sameLine]

/-- The first byte of a stray character starts nothing, although it may belong to a longer one. -/
theorem scanSingle_stray
    {c : Char}
    (place : lexer.At before (c :: after))
    (noBlank : Piece.separates c = false)
    (noWord : Piece.startsWord c = false)
    (noDigit : c.isDigit = false)
    (noSign : c ∉ Piece.signs) :
    lexer.scanSingle = lexer.reading (.stray c) := by
  have isByte := place.starting.peek_mem
  have noBlankByte := (OfAscii.separates.test_byte isByte).trans noBlank
  have noWordByte := (OfAscii.startsWord.test_byte isByte).trans noWord
  have noDigitByte := (OfAscii.isDigit.test_byte isByte).trans noDigit
  have noSignByte := (OfAscii.signs.test_byte isByte).trans (decide_eq_false noSign)
  rw [scanSingle, place.starting.advance,
    scanAfter_eq_scanOther noBlankByte (of_decide_eq_false noSignByte)]
  unfold scanOther
  rw [if_neg (by simpa [Piece.startsWord] using noWordByte), if_neg (by simp [noDigitByte])]
  exact scanStray_eq place (ne_newline_of_noBlank noBlank)

/-- **One token.**  In front of a piece that fits, the cursor reads the token or error of the
piece and goes over the piece. -/
theorem scanSingle_eq
    {piece : Piece}
    (fits : piece.Fits after)
    (place : lexer.At before (piece.text ++ after)) :
    lexer.scanSingle = lexer.reading piece := by
  cases fits with
  | blank _ separating => exact scanSingle_blank separating place
  | comment oneLine ends =>
      exact (scanSingle_eq_scanAfter place (by decide) (by decide)).trans
        (scanSlash_comment place oneLine ends)
  | lone _ isLone => exact scanSingle_lone isLone place
  | slash ends =>
      have place : lexer.At before ('/' :: after) := place
      exact (scanSingle_eq_scanAfter place (by decide) (by decide)).trans
        (scanSlash_slash ends place)
  | joined _ isJoined => exact scanSingle_joined isJoined place
  | joinable isJoinable ends => exact scanSingle_joinable isJoinable ends place
  | word starts continues ends =>
      exact scanSingle_word starts continues ends place
  | integer nonempty digits ends noFraction =>
      obtain ⟨digit, others, rfl⟩ := List.exists_cons_of_ne_nil nonempty
      rw [scanSingle_eq_scanNumber (digits digit (.head _)) place]
      exact scanNumber_integer place digits ends noFraction
  | fraction nonempty digits more moreDigits ends =>
      obtain ⟨digit, others, rfl⟩ := List.exists_cons_of_ne_nil nonempty
      rw [scanSingle_eq_scanNumber (digits digit (.head _)) place]
      exact scanNumber_fraction place digits more moreDigits ends
  | @string body _ quoted =>
      have place : lexer.At before ('"' :: (body ++ '"' :: after)) := by
        simpa [Piece.text] using place
      exact (scanSingle_eq_scanAfter place (by decide) (by decide)).trans
        (scanString_string quoted place)
  | openString unclosed =>
      rw [List.append_nil] at place
      exact (scanSingle_eq_scanAfter place (by decide) (by decide)).trans
        (scanString_openString unclosed place)
  | stray _ noBlank noWord noDigit noSign =>
      exact scanSingle_stray place noBlank noWord noDigit noSign

end Pieces

/-! ## The whole text -/

/-- In front of pieces that fit, the cursor reads their tokens and errors and then the mark of the
end of input. -/
theorem scanRest_eq
    {rest : List Char}
    {all : List Piece}
    (tiled : Piece.Tiled rest all)
    {lexer : Lexer}
    {before : List Char}
    (place : lexer.At before rest)
    (tokens : List Token)
    (errors : List LexError) :
    let found := lexemes lexer.cursor all
    let finish := lexer.cursor.past rest
    lexer.scanRest tokens errors =
      (tokens ++ found.filterMap Lexeme.token? ++ [⟨.eof, none, finish.spanTo finish⟩],
        errors ++ found.filterMap Lexeme.error?) := by
  induction tiled generalizing lexer before tokens errors with
  | nil =>
      have finished : lexer.finished = true := place.finished_eq
      rw [scanRest, dif_pos finished]
      simp [lexemes, Cursor.spanTo, cursor]
  | @cons piece after others fits tiled inductionHypothesis =>
      have unfinished : ¬lexer.finished = true := by
        simp [place.finished_eq, fits.text_ne_nil]
      have behind : (lexer.starting.past piece.text).At (before ++ piece.text) after :=
        place.starting.past piece.text
      have sameCursor : (lexer.starting.past piece.text).cursor =
          lexer.cursor.past piece.text := rfl
      rw [scanRest, dif_neg unfinished]
      dsimp only
      rw [scanSingle_eq fits place]
      dsimp only [reading]
      cases emitted : piece.lexeme? lexer.cursor (lexer.cursor.past piece.text) with
      | none =>
          simp only [inductionHypothesis behind]
          simp [lexemes, emitted, sameCursor]
      | some found =>
          cases found with
          | token token =>
              simp only [inductionHypothesis behind]
              simp [lexemes, emitted, sameCursor, List.filterMap_cons, Lexeme.token?, Lexeme.error?]
          | error error =>
              simp only [inductionHypothesis behind]
              simp [lexemes, emitted, sameCursor, List.filterMap_cons, Lexeme.token?, Lexeme.error?]

/-- **Scanning byte by byte.**  The tokens and errors found by the cursor are those of `scan`. -/
theorem scanTokens_eq (source : String) :
    scanTokens source = ((scan source).tokens, (scan source).errors) := by
  have place : At ⟨source, 0, 0, 1⟩ [] source.toList := ⟨rfl, rfl⟩
  exact scanRest_eq (Piece.tiled_pieces source.toList) place [] []

end Lexer
end ScalarScript
