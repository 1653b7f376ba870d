import ScalarScript.Proofs.Partition

/-!
# A cursor on the bytes of a text

A text can be scanned with a cursor on its bytes, without cutting it into pieces first: the cursor
remembers where the current token starts, how far it has come and on which line it is.  It looks one
or two bytes ahead, and sees a zero byte beyond the last one.  It goes through comments and strings
one byte at a time, also through the bytes of a character that has several, and counts newlines
where it meets them: between tokens, in a string and behind a backslash in a string.  No step goes
back, so that `Lexer.scanTokens` ends for every text.
-/

namespace ScalarScript

/-- A text with the offset at which the current token starts, the offset that scanning has reached
and the number of its line. -/
structure Lexer where
  source : String
  start : Nat
  current : Nat
  line : Nat

namespace Lexer

/-- All bytes have been read. -/
def finished (lexer : Lexer) : Bool :=
  lexer.source.utf8ByteSize ≤ lexer.current

/-- The byte at an offset, zero beyond the last one. -/
def byteAt (lexer : Lexer) (offset : Nat) : UInt8 :=
  lexer.source.toByteArray.data[offset]?.getD 0

/-- The byte that comes next. -/
def peek (lexer : Lexer) : UInt8 :=
  lexer.byteAt lexer.current

/-- The byte after the next one. -/
def peekNext (lexer : Lexer) : UInt8 :=
  lexer.byteAt (lexer.current + 1)

/-- Goes over some bytes. -/
def forward (lexer : Lexer) (count : Nat) : Lexer :=
  { lexer with current := lexer.current + count }

/-- Counts a newline. -/
def newline (lexer : Lexer) : Lexer :=
  { lexer with line := lexer.line + 1 }

/-- Reads a byte, which is zero if there is none. -/
def advance (lexer : Lexer) : UInt8 × Lexer :=
  if lexer.finished then (0, lexer) else (lexer.peek, lexer.forward 1)

/-- Reads a byte if it is the expected one. -/
def matchByte (lexer : Lexer) (expected : Char) : Bool × Lexer :=
  if !lexer.finished && Char.ofUInt8 lexer.peek = expected then
    (true, lexer.forward 1)
  else
    (false, lexer)

/-! ## Loops -/

/-- A place is followed by another in the same text. -/
structure Precedes (lexer next : Lexer) : Prop where
  source : next.source = lexer.source
  current : lexer.current ≤ next.current

namespace Precedes

theorem refl (lexer : Lexer) : lexer.Precedes lexer :=
  ⟨rfl, Nat.le_refl _⟩

theorem trans
    {lexer middle last : Lexer}
    (first : lexer.Precedes middle)
    (second : middle.Precedes last) :
    lexer.Precedes last :=
  ⟨second.source.trans first.source, Nat.le_trans first.current second.current⟩

theorem forward (lexer : Lexer) (count : Nat) : lexer.Precedes (lexer.forward count) :=
  ⟨rfl, Nat.le_add_right _ _⟩

theorem newline (lexer : Lexer) : lexer.Precedes lexer.newline :=
  ⟨rfl, Nat.le_refl _⟩

theorem advance (lexer : Lexer) : lexer.Precedes lexer.advance.2 := by
  unfold Lexer.advance
  split
  · exact refl lexer
  · exact forward lexer 1

theorem matchByte (lexer : Lexer) (expected : Char) :
    lexer.Precedes (lexer.matchByte expected).2 := by
  unfold Lexer.matchByte
  split
  · exact forward lexer 1
  · exact refl lexer

end Precedes

/-- The number of bytes that have not been read. -/
def left (lexer : Lexer) : Nat :=
  lexer.source.utf8ByteSize - lexer.current

/-- Where something is left to read, a place behind the next byte has less. -/
theorem left_lt_of_precedes
    {lexer next : Lexer}
    (unfinished : lexer.finished = false)
    (behind : (lexer.forward 1).Precedes next) :
    next.left < lexer.left := by
  have bytesLeft : lexer.current < lexer.source.utf8ByteSize := by
    simpa [finished] using unfinished
  have sameSource : next.source = lexer.source := behind.source
  have further : lexer.current + 1 ≤ next.current := behind.current
  unfold left
  rw [sameSource]
  omega

/-- Where a byte is left, it is read. -/
theorem advance_of_unfinished
    {lexer : Lexer}
    (unfinished : lexer.finished = false) :
    lexer.advance = (lexer.peek, lexer.forward 1) := by
  simp [advance, unfinished]

/-- Repeats a step that goes on in the text as long as a test holds. -/
def loop
    (test : Lexer → Bool)
    (step : Lexer → Lexer)
    (shrinks : ∀ lexer, test lexer = true → (step lexer).left < lexer.left)
    (lexer : Lexer) : Lexer :=
  if goesOn : test lexer = true then
    have := shrinks lexer goesOn
    loop test step shrinks (step lexer)
  else
    lexer
termination_by lexer.left

/-- A loop whose step does not go back does not go back either. -/
theorem precedes_loop
    (test : Lexer → Bool)
    {step : Lexer → Lexer}
    (shrinks : ∀ lexer, test lexer = true → (step lexer).left < lexer.left)
    (goesOn : ∀ lexer : Lexer, lexer.Precedes (step lexer))
    (lexer : Lexer) :
    lexer.Precedes (loop test step shrinks lexer) := by
  fun_induction loop test step shrinks lexer with
  | case1 lexer _ _ inductionHypothesis => exact (goesOn lexer).trans inductionHypothesis
  | case2 lexer _ => exact .refl lexer

/-- A test that fails at the end of the text holds only where a byte can be read. -/
theorem left_advance_lt
    {test : Lexer → Bool}
    (stops : ∀ lexer, lexer.finished = true → test lexer = false)
    (lexer : Lexer)
    (goesOn : test lexer = true) :
    lexer.advance.2.left < lexer.left := by
  have unfinished : lexer.finished = false := by
    cases finished : lexer.finished with
    | false => rfl
    | true => simp [stops lexer finished] at goesOn
  refine left_lt_of_precedes unfinished ?_
  rw [advance_of_unfinished unfinished]
  exact .refl _

/-- Goes over bytes as long as a test holds, which fails at the end of the text. -/
def skipWhile
    (test : Lexer → Bool)
    (stops : ∀ lexer, lexer.finished = true → test lexer = false) : Lexer → Lexer :=
  loop test (·.advance.2) (left_advance_lt stops)

/-- A test of the next byte that fails for zero fails at the end of the text. -/
theorem stops_of_nul
    {keep : Char → Bool}
    (nul : keep '\x00' = false)
    (lexer : Lexer)
    (finished : lexer.finished = true) :
    keep (Char.ofUInt8 lexer.peek) = false := by
  have beyond : lexer.source.toByteArray.data.size ≤ lexer.current := by
    simpa [Lexer.finished] using finished
  have isNul : lexer.peek = 0 := by
    simp [peek, byteAt, Array.getElem?_eq_none beyond]
  rw [isNul]
  exact nul

/-- The loop over a comment checks for the end of the text itself. -/
theorem stops_of_finished
    (lexer : Lexer)
    (finished : lexer.finished = true) :
    (Char.ofUInt8 lexer.peek ≠ '\n' && !lexer.finished) = false := by
  simp [finished]

/-! ## Tokens -/

/-- The span of the current token. -/
def span (lexer : Lexer) : Span :=
  ⟨lexer.start, lexer.current, lexer.line⟩

/-- The text between two offsets. -/
def slice (lexer : Lexer) (start stop : Nat) : String :=
  String.Pos.Raw.extract lexer.source ⟨start⟩ ⟨stop⟩

/-- A token that ends here. -/
def token (lexer : Lexer) (kind : Token.Kind) (payload : Option Token.Payload) :
    Option Lexeme × Lexer :=
  (some (.token ⟨kind, payload, lexer.span⟩), lexer)

/-- An error that ends here. -/
def error (lexer : Lexer) (cause : LexError.Cause) : Option Lexeme × Lexer :=
  (some (.error ⟨cause, lexer.span⟩), lexer)

/-- One of two kinds, the first if the expected byte comes next. -/
def either (lexer : Lexer) (expected : Char) (matched otherwise : Token.Kind) :
    Option Lexeme × Lexer :=
  if (lexer.matchByte expected).1 then
    (lexer.matchByte expected).2.token matched none
  else
    (lexer.matchByte expected).2.token otherwise none

/-- Reads the next byte of a string, and the one behind a backslash. -/
def quotedStep (lexer : Lexer) : Lexer :=
  let next := lexer.advance.2
  match Char.ofUInt8 lexer.advance.1 with
  | '\n' => next.newline
  | '\\' =>
      if next.finished then
        next
      else if Char.ofUInt8 next.advance.1 = '\n' then
        next.advance.2.newline
      else
        next.advance.2
  | _ => next

/-- Neither the closing quote nor the end of the text has been reached. -/
def insideString (lexer : Lexer) : Bool :=
  Char.ofUInt8 lexer.peek ≠ '"' && !lexer.finished

/-- A step in a string reads at least one byte. -/
theorem precedes_quotedStep (lexer : Lexer) : lexer.advance.2.Precedes lexer.quotedStep := by
  unfold quotedStep
  dsimp only
  split
  · exact .newline _
  · split
    · exact .refl _
    split
    · exact (Precedes.advance _).trans (.newline _)
    · exact .advance _
  · exact .refl _

/-- Inside a string each step leaves fewer bytes. -/
theorem left_quotedStep_lt
    (lexer : Lexer)
    (inside : lexer.insideString = true) :
    lexer.quotedStep.left < lexer.left := by
  have unfinished : lexer.finished = false := by
    simp only [insideString, Bool.and_eq_true, Bool.not_eq_true'] at inside
    exact inside.2
  refine left_lt_of_precedes unfinished ?_
  have behind := precedes_quotedStep lexer
  rwa [advance_of_unfinished unfinished] at behind

/-- Goes to the closing quote of a string. -/
def closing : Lexer → Lexer :=
  loop insideString quotedStep left_quotedStep_lt

/-- Reads a string behind its opening quote. -/
def scanString (lexer : Lexer) : Option Lexeme × Lexer :=
  if lexer.closing.finished then
    lexer.closing.error .unterminated
  else
    let closed := lexer.closing.advance.2
    let text := closed.slice (closed.start + 1) (closed.current - 1)
    let inner : Span := ⟨closed.start + 1, closed.current - 1, closed.line⟩
    (some (.token ⟨.string, some (.text text), inner⟩), closed)

/-- Goes over the rest of a word. -/
def skipWord : Lexer → Lexer :=
  skipWhile (fun lexer => Piece.continuesWord (Char.ofUInt8 lexer.peek)) (stops_of_nul rfl)

/-- Reads a word behind its first letter. -/
def scanWord (lexer : Lexer) : Option Lexeme × Lexer :=
  let last := lexer.skipWord
  let word := last.slice last.start last.current
  match Token.Kind.keyword? word with
  | some kind => last.token kind none
  | none => last.token .identifier (some (.text word))

/-- Goes over digits. -/
def skipDigits : Lexer → Lexer :=
  skipWhile (fun lexer => (Char.ofUInt8 lexer.peek).isDigit) (stops_of_nul rfl)

/-- Goes over a point and the digits behind it, if there is a digit. -/
def skipFraction (lexer : Lexer) : Lexer :=
  if Char.ofUInt8 lexer.peek = '.' && (Char.ofUInt8 lexer.peekNext).isDigit then
    lexer.advance.2.skipDigits
  else
    lexer

/-- Reads a number behind its first digit. -/
def scanNumber (lexer : Lexer) : Option Lexeme × Lexer :=
  let last := lexer.skipDigits.skipFraction
  let spelling := last.slice last.start last.current
  last.token .number (some (.number ((Decimal.parse? spelling.toList).getD 0)))

/-- Goes over the rest of a line. -/
def skipLine : Lexer → Lexer :=
  skipWhile (fun lexer => Char.ofUInt8 lexer.peek ≠ '\n' && !lexer.finished) stops_of_finished

/-- Reads a comment or a slash, behind the first slash. -/
def scanSlash (lexer : Lexer) : Option Lexeme × Lexer :=
  if (lexer.matchByte '/').1 then
    (none, (lexer.matchByte '/').2.skipLine)
  else
    (lexer.matchByte '/').2.token .slash none

/-- Goes over a whole character, which starts no token. -/
def scanStray (lexer : Lexer) : Option Lexeme × Lexer :=
  let rest := lexer.slice lexer.start lexer.source.utf8ByteSize
  let c := rest.toList.head?.getD '\ufffd'
  { lexer with current := lexer.start + c.utf8Size }.error (.unexpected c)

/-- Reads what starts with a byte that is neither blank nor punctuation. -/
def scanOther (lexer : Lexer) (c : Char) : Option Lexeme × Lexer :=
  if c.isAlpha || c = '_' then lexer.scanWord
  else if c.isDigit then lexer.scanNumber
  else lexer.scanStray

/-- Reads a token, an error or something that is neither, behind its first byte. -/
def scanAfter (lexer : Lexer) (c : Char) : Option Lexeme × Lexer :=
  match c with
  | '\n' => (none, lexer.newline)
  | ' ' | '\r' | '\t' => (none, lexer)
  | '(' => lexer.token .leftParen none
  | ')' => lexer.token .rightParen none
  | '+' => lexer.token .plus none
  | '-' => lexer.token .minus none
  | ',' => lexer.token .comma none
  | '*' => lexer.token .star none
  | '/' => lexer.scanSlash
  | '!' => lexer.either '=' .bangEqual .bang
  | '>' => lexer.either '=' .greaterEqual .greater
  | '<' => lexer.either '=' .lesserEqual .lesser
  | '=' => lexer.either '=' .equalEqual .equal
  | '"' => lexer.scanString
  | c => lexer.scanOther c

/-- Starts a token here. -/
def starting (lexer : Lexer) : Lexer :=
  { lexer with start := lexer.current }

/-- Reads what comes next as a token of its own. -/
def scanSingle (lexer : Lexer) : Option Lexeme × Lexer :=
  lexer.starting.advance.2.scanAfter (Char.ofUInt8 lexer.starting.advance.1)

/-! ## The whole text -/

theorem precedes_skipWhile
    {test : Lexer → Bool}
    (stops : ∀ lexer, lexer.finished = true → test lexer = false)
    (lexer : Lexer) :
    lexer.Precedes (skipWhile test stops lexer) :=
  precedes_loop test _ Precedes.advance lexer

theorem precedes_either (lexer : Lexer) (expected : Char) (matched otherwise : Token.Kind) :
    lexer.Precedes (lexer.either expected matched otherwise).2 := by
  unfold either
  split <;> exact .matchByte lexer expected

/-- Reading a string does not go back. -/
theorem precedes_scanString (lexer : Lexer) : lexer.Precedes lexer.scanString.2 := by
  have toQuote : lexer.Precedes lexer.closing :=
    precedes_loop _ _ (fun lexer => .trans (.advance lexer) (precedes_quotedStep lexer)) lexer
  unfold scanString
  split
  · exact toQuote
  · exact toQuote.trans (.advance _)

/-- Reading a word does not go back. -/
theorem precedes_scanWord (lexer : Lexer) : lexer.Precedes lexer.scanWord.2 := by
  unfold scanWord
  dsimp only
  split <;> exact precedes_skipWhile (stops_of_nul rfl) lexer

/-- Reading a number does not go back. -/
theorem precedes_scanNumber (lexer : Lexer) : lexer.Precedes lexer.scanNumber.2 := by
  have digits : lexer.Precedes lexer.skipDigits := precedes_skipWhile _ lexer
  refine digits.trans ?_
  change Precedes _ lexer.skipDigits.skipFraction
  unfold skipFraction
  split
  · exact (Precedes.advance _).trans (precedes_skipWhile (stops_of_nul rfl) _)
  · exact .refl _

/-- Reading a comment or a slash does not go back. -/
theorem precedes_scanSlash (lexer : Lexer) : lexer.Precedes lexer.scanSlash.2 := by
  unfold scanSlash
  split
  · exact (Precedes.matchByte lexer '/').trans (precedes_skipWhile stops_of_finished _)
  · exact .matchByte lexer '/'

/-- Nothing goes back behind the first byte of the current token. -/
theorem precedes_scanAfter
    {lexer : Lexer}
    (oneByte : lexer.current ≤ lexer.start + 1)
    (c : Char) :
    lexer.Precedes (lexer.scanAfter c).2 := by
  have stray : lexer.Precedes lexer.scanStray.2 := by
    refine ⟨rfl, Nat.le_trans oneByte ?_⟩
    exact Nat.add_le_add_left (Char.utf8Size_pos _) _
  unfold scanAfter
  split
  case h_1 => exact .newline lexer
  case h_11 => exact precedes_scanSlash lexer
  case h_16 => exact precedes_scanString lexer
  case h_17 =>
    unfold scanOther
    split
    · exact precedes_scanWord lexer
    split
    · exact precedes_scanNumber lexer
    · exact stray
  all_goals first | exact .refl lexer | exact precedes_either lexer _ _ _

/-- Every token takes at least one byte. -/
theorem left_scanSingle_lt
    {lexer : Lexer}
    (unfinished : ¬lexer.finished = true) :
    lexer.scanSingle.2.left < lexer.left := by
  have bytesLeft : lexer.finished = false := Bool.eq_false_iff.2 unfinished
  have read : lexer.starting.advance = (lexer.starting.peek, lexer.starting.forward 1) :=
    advance_of_unfinished bytesLeft
  have behind : (lexer.starting.forward 1).Precedes lexer.scanSingle.2 := by
    unfold scanSingle
    rw [read]
    exact precedes_scanAfter (Nat.le_refl _) _
  have less : lexer.scanSingle.2.left < lexer.starting.left := left_lt_of_precedes bytesLeft behind
  exact less

/-- Scans the rest of a text, behind some tokens and errors. -/
def scanRest (tokens : List Token) (errors : List LexError) (lexer : Lexer) :
    List Token × List LexError :=
  if finished : lexer.finished = true then
    (tokens ++ [⟨.eof, none, ⟨lexer.current, lexer.current, lexer.line⟩⟩], errors)
  else
    have := left_scanSingle_lt finished
    match lexer.scanSingle.1 with
    | some (.token token) => scanRest (tokens ++ [token]) errors lexer.scanSingle.2
    | some (.error error) => scanRest tokens (errors ++ [error]) lexer.scanSingle.2
    | none => scanRest tokens errors lexer.scanSingle.2
termination_by lexer.left

/-- The tokens and the errors of a text. -/
def scanTokens (source : String) : List Token × List LexError :=
  scanRest [] [] ⟨source, 0, 0, 1⟩

end Lexer
end ScalarScript
