import ScalarScript.Proofs.Lexer

/-!
# Bytes and characters

A cursor on the bytes of a text that stands in front of a character has the bytes of the characters
that are left ahead.  A test of one byte says what it says of the character, since the bytes of a
character beyond ASCII are all beyond ASCII themselves.  So a loop over bytes goes over whole
characters, although the cursor may stand inside one in between: `Lexer.skipWhile` goes to the first
character that fails the test, and `Lexer.closing` to the quote that closes a string.
-/

namespace ScalarScript

open Text

/-! ## The bytes of a text -/

namespace Text

/-- The bytes of some characters. -/
def encode (text : List Char) : List UInt8 :=
  text.flatMap String.utf8EncodeChar

@[simp] theorem encode_nil : encode [] = [] := rfl

@[simp] theorem encode_cons (c : Char) (text : List Char) :
    encode (c :: text) = String.utf8EncodeChar c ++ encode text := rfl

@[simp] theorem encode_append (front back : List Char) :
    encode (front ++ back) = encode front ++ encode back :=
  List.flatMap_append

/-- There are as many bytes as the characters fill. -/
@[simp] theorem length_encode (text : List Char) : (encode text).length = byteLength text := by
  induction text with
  | nil => rfl
  | cons c text inductionHypothesis => simp [inductionHypothesis]

/-- The bytes of a text are those of its characters, in their order. -/
theorem toByteArray_data_toList (source : String) :
    source.toByteArray.data.toList = encode source.toList := by
  obtain ⟨text, rfl⟩ := source.exists_eq_ofList
  simp [List.utf8Encode, encode]

/-- Every character has a first byte. -/
theorem exists_utf8EncodeChar_eq_cons (c : Char) :
    ∃ byte others, String.utf8EncodeChar c = byte :: others :=
  List.exists_cons_of_ne_nil String.utf8EncodeChar_ne_nil

/-- The only byte of an ASCII character is its code. -/
theorem utf8EncodeChar_of_lt
    {c : Char}
    (ascii : c.toNat < 128) :
    ∃ byte, String.utf8EncodeChar c = [byte] ∧ Char.ofUInt8 byte = c := by
  have small : c.val.toNat ≤ 127 := Nat.le_of_lt_succ ascii
  refine ⟨UInt8.ofNat c.val.toNat, ?_, ?_⟩
  · simp only [String.utf8EncodeChar, small, if_true]
  · apply Char.ext
    apply UInt32.toNat_inj.1
    change (UInt8.ofNat c.val.toNat).toUInt32.toNat = c.val.toNat
    rw [UInt8.toNat_toUInt32, UInt8.toNat_ofNat']
    omega

/-- The bytes of any other character are beyond ASCII. -/
theorem le_of_mem_utf8EncodeChar
    {c : Char}
    (high : 128 ≤ c.toNat)
    {byte : UInt8}
    (isByte : byte ∈ String.utf8EncodeChar c) :
    128 ≤ (Char.ofUInt8 byte).toNat := by
  have large : 127 < c.val.toNat := high
  have sameCode : (Char.ofUInt8 byte).toNat = byte.toNat := UInt8.toNat_toUInt32 byte
  rw [sameCode]
  unfold String.utf8EncodeChar at isByte
  dsimp only at isByte
  rw [if_neg (Nat.not_le_of_lt large)] at isByte
  -- one case for two, three and four bytes, each of which has its highest bit set
  repeat' split at isByte
  all_goals
    simp only [List.mem_cons, List.not_mem_nil, or_false] at isByte
    rcases isByte with rfl | rfl | rfl | rfl
  all_goals
    rw [UInt8.toNat_ofNat']
    omega

/-- A test holds of ASCII characters only. -/
def OfAscii (test : Char → Bool) : Prop :=
  ∀ c : Char, test c = true → c.toNat < 128

namespace OfAscii

/-- A test of ASCII characters holds of each byte of a character if it holds of the character. -/
theorem test_byte
    {test : Char → Bool}
    (ofAscii : OfAscii test)
    {c : Char}
    {byte : UInt8}
    (isByte : byte ∈ String.utf8EncodeChar c) :
    test (Char.ofUInt8 byte) = test c := by
  by_cases ascii : c.toNat < 128
  · obtain ⟨only, encoded, code⟩ := utf8EncodeChar_of_lt ascii
    rw [encoded, List.mem_singleton] at isByte
    rw [isByte, code]
  · have high := le_of_mem_utf8EncodeChar (Nat.le_of_not_lt ascii) isByte
    have failsByte : test (Char.ofUInt8 byte) = false :=
      Bool.eq_false_iff.2 fun passes => Nat.not_lt_of_le high (ofAscii _ passes)
    have fails : test c = false := Bool.eq_false_iff.2 fun passes => ascii (ofAscii c passes)
    rw [failsByte, fails]

/-- Two tests of ASCII characters make one. -/
theorem or
    {one other : Char → Bool}
    (first : OfAscii one)
    (second : OfAscii other) :
    OfAscii fun c => one c || other c := by
  intro c passes
  rcases Bool.or_eq_true_iff.1 passes with isOne | isOther
  · exact first c isOne
  · exact second c isOther

/-- A list of ASCII characters is a test of them. -/
theorem mem
    {signs : List Char}
    (ascii : ∀ sign ∈ signs, sign.toNat < 128) :
    OfAscii (· ∈ signs) :=
  fun c isSign => ascii c (of_decide_eq_true isSign)

theorem eq
    {sign : Char}
    (ascii : sign.toNat < 128) :
    OfAscii (· = sign) := by
  intro c isSign
  rwa [of_decide_eq_true isSign]

theorem isDigit : OfAscii Char.isDigit := by
  intro c passes
  change (decide (48 ≤ c.val) && decide (c.val ≤ 57)) = true at passes
  simp only [Bool.and_eq_true, decide_eq_true_eq, UInt32.le_iff_toNat_le] at passes
  exact Nat.lt_of_le_of_lt passes.2 (by decide)

theorem isAlpha : OfAscii Char.isAlpha := by
  intro c passes
  change (decide (65 ≤ c.val ∧ c.val ≤ 90) ||
    (decide (97 ≤ c.val) && decide (c.val ≤ 122))) = true at passes
  simp only [Bool.or_eq_true, Bool.and_eq_true, decide_eq_true_eq, UInt32.le_iff_toNat_le]
    at passes
  rcases passes with upper | lower
  · exact Nat.lt_of_le_of_lt upper.2 (by decide)
  · exact Nat.lt_of_le_of_lt lower.2 (by decide)

theorem startsWord : OfAscii Piece.startsWord :=
  isAlpha.or (.eq (by decide))

theorem continuesWord : OfAscii Piece.continuesWord :=
  (isAlpha.or isDigit).or (.eq (by decide))

/-- The blanks are ASCII characters. -/
theorem separates : OfAscii Piece.separates :=
  (((OfAscii.eq (by decide)).or (.eq (by decide))).or (.eq (by decide))).or (.eq (by decide))

/-- Punctuation and quotes are ASCII characters. -/
theorem signs : OfAscii (· ∈ Piece.signs) :=
  .mem (by simp [Piece.signs])

end OfAscii
end Text

/-! ## A cursor in front of a character -/

namespace Lexer

/-- The bytes that have not been read. -/
def ahead (lexer : Lexer) : List UInt8 :=
  lexer.source.toByteArray.data.toList.drop lexer.current

theorem peek_eq (lexer : Lexer) : lexer.peek = lexer.ahead.head?.getD 0 := by
  simp [peek, byteAt, ahead, List.head?_drop]

/-- All bytes have been read exactly if none is ahead. -/
theorem finished_eq (lexer : Lexer) : lexer.finished = lexer.ahead.isEmpty := by
  rw [Bool.eq_iff_iff, List.isEmpty_iff, ahead, List.drop_eq_nil_iff]
  simp [finished]

@[simp] theorem ahead_forward (lexer : Lexer) (count : Nat) :
    (lexer.forward count).ahead = lexer.ahead.drop count := by
  simp [ahead, forward]

@[simp] theorem forward_forward (lexer : Lexer) (one other : Nat) :
    (lexer.forward one).forward other = lexer.forward (one + other) := by
  simp [forward, Nat.add_assoc]

/-- Goes over some characters. -/
def past (lexer : Lexer) (text : List Char) : Lexer :=
  { lexer with
    current := lexer.current + byteLength text
    line := lexer.line + text.count '\n' }

/-- Characters are gone over one part after another. -/
theorem past_append (lexer : Lexer) (front back : List Char) :
    lexer.past (front ++ back) = (lexer.past front).past back := by
  simp [past, Nat.add_assoc]

/-- Going over characters of one line counts bytes only. -/
theorem past_of_oneLine
    (lexer : Lexer)
    {text : List Char}
    (oneLine : '\n' ∉ text) :
    lexer.past text = lexer.forward (byteLength text) := by
  simp [past, forward, List.count_eq_zero_of_not_mem oneLine]

/-- Going over one byte is going over an ASCII character. -/
theorem forward_one_eq_past
    (lexer : Lexer)
    {c : Char}
    (ascii : c.toNat < 128)
    (notNewline : c ≠ '\n') :
    lexer.forward 1 = lexer.past [c] := by
  obtain ⟨byte, encoded, -⟩ := utf8EncodeChar_of_lt ascii
  have size : c.utf8Size = 1 := by
    rw [← String.length_utf8EncodeChar, encoded]
    rfl
  rw [past_of_oneLine lexer (by simpa using Ne.symm notNewline)]
  simp [size]

/-- The cursor stands in front of some of the characters of its text. -/
structure At (lexer : Lexer) (before after : List Char) : Prop where
  text : lexer.source.toList = before ++ after
  offset : lexer.current = byteLength before

namespace At

variable {lexer : Lexer} {before after : List Char}

/-- The bytes ahead are those of the characters that are left. -/
theorem ahead_eq (place : lexer.At before after) : lexer.ahead = encode after := by
  rw [ahead, toByteArray_data_toList, place.text, place.offset, encode_append]
  exact List.drop_left' (length_encode before)

/-- Behind some characters the cursor stands in front of what follows them. -/
theorem past
    (text : List Char)
    (place : lexer.At before (text ++ after)) :
    (lexer.past text).At (before ++ text) after where
  text := by simp [Lexer.past, place.text]
  offset := by simp [Lexer.past, place.offset]

/-- The same holds when newlines are not counted. -/
theorem forward
    (text : List Char)
    (place : lexer.At before (text ++ after)) :
    (lexer.forward (byteLength text)).At (before ++ text) after where
  text := by simp [Lexer.forward, place.text]
  offset := by simp [Lexer.forward, place.offset]

theorem starting (place : lexer.At before after) : lexer.starting.At before after :=
  ⟨place.text, place.offset⟩

/-- All bytes have been read exactly if no character is left. -/
theorem finished_eq (place : lexer.At before after) : lexer.finished = after.isEmpty := by
  rw [Lexer.finished_eq, place.ahead_eq]
  cases after with
  | nil => rfl
  | cons c after => simp

/-- The next byte belongs to the next character. -/
theorem peek_mem
    {c : Char}
    (place : lexer.At before (c :: after)) :
    lexer.peek ∈ String.utf8EncodeChar c := by
  obtain ⟨byte, others, encoded⟩ := exists_utf8EncodeChar_eq_cons c
  simp [Lexer.peek_eq, place.ahead_eq, encoded]

/-- A test of the next byte is a test of the next character. -/
theorem test_peek
    (place : lexer.At before after)
    {test : Char → Bool}
    (ofAscii : OfAscii test)
    (nul : test '\x00' = false) :
    test (Char.ofUInt8 lexer.peek) = after.head?.any test := by
  cases after with
  | nil => exact stops_of_nul nul lexer (by simp [place.finished_eq])
  | cons c after => exact ofAscii.test_byte place.peek_mem

/-- The next byte is an ASCII character itself. -/
theorem peek_eq
    {c : Char}
    (place : lexer.At before (c :: after))
    (ascii : c.toNat < 128) :
    Char.ofUInt8 lexer.peek = c := by
  obtain ⟨byte, encoded, code⟩ := utf8EncodeChar_of_lt ascii
  simpa [Lexer.peek_eq, place.ahead_eq, encoded] using code

/-- In front of a character there is a byte to read. -/
theorem advance
    {c : Char}
    (place : lexer.At before (c :: after)) :
    lexer.advance = (lexer.peek, lexer.forward 1) :=
  advance_of_unfinished (by simp [place.finished_eq])

end At

/-! ## Loops -/

section Loop

variable {test : Lexer → Bool} {step : Lexer → Lexer}
  {shrinks : ∀ lexer, test lexer = true → (step lexer).left < lexer.left} {lexer : Lexer}

theorem loop_of_test
    (goesOn : test lexer = true) :
    loop test step shrinks lexer = loop test step shrinks (step lexer) := by
  rw [loop, dif_pos goesOn]

theorem loop_of_not_test
    (stops : test lexer = false) :
    loop test step shrinks lexer = lexer := by
  rw [loop, dif_neg (by simp [stops])]

/-- Bytes are gone over one after another if the step at each of them is to the next. -/
theorem loop_forward
    {bytes rest : List UInt8}
    (comes : lexer.ahead = bytes ++ rest)
    (steps : ∀ byte ∈ bytes, ∀ {lexer : Lexer},
      lexer.ahead.head? = some byte → test lexer = true ∧ step lexer = lexer.forward 1) :
    loop test step shrinks lexer = loop test step shrinks (lexer.forward bytes.length) := by
  induction bytes generalizing lexer with
  | nil => rfl
  | cons byte bytes inductionHypothesis =>
      obtain ⟨goesOn, one⟩ : test lexer = true ∧ step lexer = lexer.forward 1 :=
        steps byte (.head _) (by simp [comes])
      have next : (lexer.forward 1).ahead = bytes ++ rest := by simp [comes]
      rw [loop_of_test goesOn, one,
        inductionHypothesis next fun other isOther => steps other (.tail _ isOther)]
      simp [Nat.add_comm]

end Loop

/-- A byte that is ahead is the next one, and more than the end of the text. -/
theorem peek_of_head?
    {lexer : Lexer}
    {byte : UInt8}
    (comes : lexer.ahead.head? = some byte) :
    lexer.finished = false ∧ lexer.peek = byte := by
  refine ⟨?_, by simp [peek_eq, comes]⟩
  rw [finished_eq]
  cases bytes : lexer.ahead with
  | nil => simp [bytes] at comes
  | cons _ _ => rfl

/-- A loop over bytes goes over the characters that pass, and stops at the first that fails. -/
theorem skipWhile_eq
    {test : Lexer → Bool}
    {stops : ∀ lexer, lexer.finished = true → test lexer = false}
    {keep : Char → Bool}
    (tests : ∀ {lexer : Lexer}, lexer.finished = false →
      test lexer = keep (Char.ofUInt8 lexer.peek))
    (sameBytes : ∀ {c byte}, byte ∈ String.utf8EncodeChar c → keep (Char.ofUInt8 byte) = keep c)
    (newline : keep '\n' = false)
    {lexer : Lexer}
    {before text after : List Char}
    (place : lexer.At before (text ++ after))
    (passes : ∀ c ∈ text, keep c = true)
    (ends : Piece.NextFails keep after) :
    skipWhile test stops lexer = lexer.past text := by
  have oneLine : '\n' ∉ text := fun inText => by simp [passes _ inText] at newline
  have comes : lexer.ahead = encode text ++ encode after := by simp [place.ahead_eq]
  have goesOver : skipWhile test stops lexer =
      skipWhile test stops (lexer.forward (encode text).length) := by
    refine loop_forward comes fun byte isByte reader head => ?_
    obtain ⟨c, inText, ofChar⟩ := List.mem_flatMap.1 isByte
    obtain ⟨unfinished, rfl⟩ := peek_of_head? head
    refine ⟨?_, by rw [advance_of_unfinished unfinished]⟩
    rw [tests unfinished, sameBytes ofChar, passes c inText]
  rw [goesOver, length_encode, ← past_of_oneLine lexer oneLine]
  have behind := place.past text
  refine loop_of_not_test ?_
  cases after with
  | nil => exact stops _ (by simp [behind.finished_eq])
  | cons c after =>
      rw [tests (by simp [behind.finished_eq]), sameBytes behind.peek_mem, ends c rfl]

/-! ## Strings -/

/-- The bytes with a meaning in strings. -/
def special : List Char := ['"', '\\', '\n']

/-- In a string a byte without meaning is gone over alone. -/
theorem quotedStep_of_plain
    {lexer : Lexer}
    {byte : UInt8}
    (comes : lexer.ahead.head? = some byte)
    (plain : Char.ofUInt8 byte ∉ special) :
    lexer.insideString = true ∧ lexer.quotedStep = lexer.forward 1 := by
  obtain ⟨unfinished, rfl⟩ := peek_of_head? comes
  simp only [special, List.mem_cons, List.not_mem_nil, or_false, not_or] at plain
  obtain ⟨notQuote, notBackslash, notNewline⟩ := plain
  refine ⟨by simp [insideString, notQuote, unfinished], ?_⟩
  unfold quotedStep
  rw [advance_of_unfinished unfinished]
  dsimp only
  split
  · contradiction
  · contradiction
  · rfl

/-- Behind its first byte a character has no byte with a meaning in strings. -/
theorem plain_of_mem_tail
    {c : Char}
    {byte : UInt8}
    (isByte : byte ∈ (String.utf8EncodeChar c).tail) :
    Char.ofUInt8 byte ∉ special := by
  by_cases ascii : c.toNat < 128
  · obtain ⟨only, encoded, -⟩ := utf8EncodeChar_of_lt ascii
    simp [encoded] at isByte
  · have high := le_of_mem_utf8EncodeChar (Nat.le_of_not_lt ascii) (List.mem_of_mem_tail isByte)
    have low : ∀ sign ∈ special, sign.toNat < 128 := by simp [special]
    exact fun isSpecial => Nat.not_lt_of_le high (low _ isSpecial)

section Closing

variable {lexer : Lexer} {before after : List Char}

/-- A character other than a quote and a backslash is gone over, with all its bytes and its newline.
-/
theorem closing_plain
    {c : Char}
    (place : lexer.At before (c :: after))
    (notQuote : c ≠ '"')
    (notBackslash : c ≠ '\\') :
    lexer.closing = (lexer.past [c]).closing := by
  by_cases isNewline : c = '\n'
  · subst c
    have isByte : Char.ofUInt8 lexer.peek = '\n' := place.peek_eq (by decide)
    have inside : lexer.insideString = true := by
      simp [insideString, isByte, place.finished_eq]
    have step : lexer.quotedStep = lexer.past ['\n'] := by
      unfold quotedStep
      rw [place.advance]
      dsimp only
      rw [isByte]
      rfl
    rw [closing, loop_of_test inside, step]
  · have plain : c ∉ special := by simp [special, notQuote, notBackslash, isNewline]
    have ofAscii : OfAscii (· ∈ special) := .mem (by simp [special])
    have comes : lexer.ahead = String.utf8EncodeChar c ++ encode after := place.ahead_eq
    have goesOver : lexer.closing = (lexer.forward (String.utf8EncodeChar c).length).closing := by
      refine loop_forward comes fun byte isByte reader head => quotedStep_of_plain head ?_
      simpa [plain] using ofAscii.test_byte isByte
    rw [goesOver, past_of_oneLine lexer (by simpa using Ne.symm isNewline)]
    simp

/-- A backslash and the character behind it are gone over, whatever the character is. -/
theorem closing_escaped
    {c : Char}
    (place : lexer.At before ('\\' :: c :: after)) :
    lexer.closing = (lexer.past ['\\', c]).closing := by
  have isByte : Char.ofUInt8 lexer.peek = '\\' := place.peek_eq (by decide)
  have inside : lexer.insideString = true := by
    simp [insideString, isByte, place.finished_eq]
  have next : (lexer.forward 1).At (before ++ ['\\']) (c :: after) := place.forward ['\\']
  have isNewline : Char.ofUInt8 (lexer.forward 1).peek = '\n' ↔ c = '\n' := by
    have ofAscii : OfAscii (· = '\n') := .eq (by decide)
    simpa using ofAscii.test_byte next.peek_mem
  have step : lexer.quotedStep =
      if c = '\n' then (lexer.forward 2).newline else lexer.forward 2 := by
    unfold quotedStep
    rw [place.advance]
    dsimp only
    rw [isByte]
    simp [next.finished_eq, next.advance, isNewline]
  rw [closing, loop_of_test inside, step]
  split
  case isTrue equal =>
    subst c
    rfl
  case isFalse notNewline =>
    -- the cursor stands behind the first byte of the character
    obtain ⟨byte, others, encoded⟩ := exists_utf8EncodeChar_eq_cons c
    have comes : (lexer.forward 2).ahead = others ++ encode after := by
      rw [← forward_forward lexer 1 1, ahead_forward, next.ahead_eq, encode_cons, encoded]
      rfl
    have goesOver : (lexer.forward 2).closing = (lexer.forward (2 + others.length)).closing := by
      rw [← forward_forward]
      refine loop_forward comes fun other isOther reader head => quotedStep_of_plain head ?_
      exact plain_of_mem_tail (c := c) (by rwa [encoded])
    have size : c.utf8Size = others.length + 1 := by
      rw [← String.length_utf8EncodeChar, encoded, List.length_cons]
    have oneLine : '\n' ∉ ['\\', c] := by simp [Ne.symm notNewline]
    have backslash : '\\'.utf8Size = 1 := rfl
    have sameLength : byteLength ['\\', c] = 2 + others.length := by
      simp only [byteLength_cons, byteLength_nil, size, backslash]
      omega
    rw [past_of_oneLine lexer oneLine, sameLength]
    exact goesOver

/-- Nothing between two quotes ends a string. -/
theorem closing_quoted
    {body : List Char}
    (quoted : Piece.Quoted body)
    (place : lexer.At before (body ++ after)) :
    lexer.closing = (lexer.past body).closing := by
  induction quoted generalizing lexer before with
  | nil => rfl
  | @plain c body notQuote notBackslash quoted inductionHypothesis =>
      rw [closing_plain place notQuote notBackslash, inductionHypothesis (place.past [c]),
        ← past_append]
      rfl
  | @escaped c body quoted inductionHypothesis =>
      rw [closing_escaped place, inductionHypothesis (place.past ['\\', c]), ← past_append]
      rfl

/-- The first quote that no backslash keeps from closing the string is found. -/
theorem closing_closed
    {body : List Char}
    (quoted : Piece.Quoted body)
    (place : lexer.At before (body ++ '"' :: after)) :
    lexer.closing = lexer.past body := by
  rw [closing_quoted quoted place]
  refine loop_of_not_test ?_
  simp [insideString, (place.past body).peek_eq (by decide)]

/-- Where no quote closes the string, its end is the end of the text. -/
theorem closing_unclosed
    {body : List Char}
    (unclosed : Piece.Unclosed body)
    (place : lexer.At before body) :
    lexer.closing = lexer.past body := by
  have stops : ∀ {before} {lexer : Lexer}, lexer.At before [] → lexer.closing = lexer := by
    intro before lexer place
    exact loop_of_not_test (by simp [insideString, place.finished_eq])
  rcases unclosed with quoted | ⟨front, quoted, rfl⟩
  · rw [← List.append_nil body] at place
    rw [closing_quoted quoted place, stops (place.past body)]
  · have last := place.past front
    have isByte := last.peek_eq (by decide)
    have inside : (lexer.past front).insideString = true := by
      simp [insideString, isByte, last.finished_eq]
    have step : (lexer.past front).quotedStep = (lexer.past front).past ['\\'] := by
      unfold quotedStep
      rw [last.advance]
      dsimp only
      rw [isByte]
      have finished : ((lexer.past front).forward 1).finished = true :=
        (last.forward ['\\']).finished_eq
      simp only [finished, if_true]
      rfl
    rw [closing_quoted quoted place, closing, loop_of_test inside, step, past_append]
    exact stops (last.past ['\\'])

end Closing

end Lexer
end ScalarScript
