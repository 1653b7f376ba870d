import ScalarScript.Proofs.JoinedText

/-!
# Scanning starts afresh behind a newline

No piece of a text reaches across a newline, except a string.  If a text leaves no string open,
then a newline and a second text can follow it: the scanner finds what it finds in the first
text, errors included, and behind the newline what it finds in the second text alone, moved on by
the bytes and the lines in front of it.
-/

namespace ScalarScript

/-! ## Moving places -/

/-- The span moved on by some bytes and lines. -/
def Span.shift (bytes lines : Nat) (span : Span) : Span :=
  ⟨span.start + bytes, span.stop + bytes, span.line + lines⟩

/-- The token moved on by some bytes and lines. -/
def Token.shift (bytes lines : Nat) (token : Token) : Token :=
  { token with span := token.span.shift bytes lines }

/-- The error moved on by some bytes and lines. -/
def LexError.shift (bytes lines : Nat) (error : LexError) : LexError :=
  { error with span := error.span.shift bytes lines }

/-- What was found, moved on by some bytes and lines. -/
def Lexeme.shift (bytes lines : Nat) : Lexeme → Lexeme
  | .token found => .token (found.shift bytes lines)
  | .error found => .error (found.shift bytes lines)

namespace Cursor

/-- The place that is some bytes and lines further on. -/
def shift (bytes lines : Nat) (cursor : Cursor) : Cursor :=
  ⟨cursor.offset + bytes, cursor.line + lines⟩

theorem past_shift
    (bytes lines : Nat)
    (cursor : Cursor)
    (text : List Char) :
    (cursor.shift bytes lines).past text = (cursor.past text).shift bytes lines := by
  simp only [shift, past, Nat.add_right_comm]

theorem spanTo_shift
    (bytes lines : Nat)
    (start finish : Cursor) :
    (start.shift bytes lines).spanTo (finish.shift bytes lines) =
      (start.spanTo finish).shift bytes lines := rfl

end Cursor

/-- A piece that is moved on stands for the same token or error, moved on. -/
theorem Piece.lexeme?_shift
    (bytes lines : Nat)
    (start : Cursor)
    (piece : Piece) :
    piece.lexeme? (start.shift bytes lines) ((start.past piece.text).shift bytes lines) =
      (piece.lexeme? start (start.past piece.text)).map (Lexeme.shift bytes lines) := by
  cases piece with
  | word letters =>
      unfold lexeme?
      cases found : Token.Kind.keyword? (String.ofList letters) with
      | some kind => simp only [found, Cursor.spanTo_shift]; rfl
      | none => simp only [found, Cursor.spanTo_shift]; rfl
  | string body =>
      -- the closing quote is taken off an offset that is not zero
      have quote : '"'.utf8Size = 1 := rfl
      have closing : (start.past (Piece.string body).text).offset + bytes - 1 =
          (start.past (Piece.string body).text).offset - 1 + bytes := by
        simp only [Cursor.past, text, Text.byteLength_append, Text.byteLength_cons,
          Text.byteLength_nil, quote]
        omega
      simp only [lexeme?, Cursor.shift, Option.map_some, Lexeme.shift, Token.shift, Span.shift,
        closing, Nat.add_right_comm]
  | _ => rfl

/-- Pieces that are moved on stand for the same tokens and errors, moved on. -/
theorem lexemes_shift
    (bytes lines : Nat)
    (start : Cursor)
    (all : List Piece) :
    lexemes (start.shift bytes lines) all =
      (lexemes start all).map (Lexeme.shift bytes lines) := by
  induction all generalizing start with
  | nil => rfl
  | cons piece all inductionHypothesis =>
      simp only [lexemes, Cursor.past_shift, Piece.lexeme?_shift, inductionHypothesis,
        List.map_append, Option.toList_map]

theorem Lexeme.token?_shift
    (bytes lines : Nat)
    (found : Lexeme) :
    (found.shift bytes lines).token? = found.token?.map (Token.shift bytes lines) := by
  cases found <;> rfl

theorem Lexeme.error?_shift
    (bytes lines : Nat)
    (found : Lexeme) :
    (found.shift bytes lines).error? = found.error?.map (LexError.shift bytes lines) := by
  cases found <;> rfl

/-! ## Behind a newline -/

/-- A string that is left open is reported. -/
theorem exists_unterminated
    {all : List Piece}
    {body : List Char}
    (member : .openString body ∈ all)
    (start : Cursor) :
    ∃ error ∈ (lexemes start all).filterMap Lexeme.error?, error.cause = .unterminated := by
  obtain ⟨front, back, rfl⟩ := List.append_of_mem member
  rw [lexemes_append, lexemes, List.filterMap_append, List.filterMap_append]
  exact ⟨_, List.mem_append_right _ (List.mem_append_left _ (.head _)), rfl⟩

/-- The pieces of a text, put together, are the text. -/
theorem flatMap_text_pieces (text : List Char) :
    (pieces text).flatMap Piece.text = text := by
  have general : ∀ {rest : List Char} {all : List Piece}, Piece.Tiled rest all →
      all.flatMap Piece.text = rest := by
    intro rest all tiled
    induction tiled with
    | nil => rfl
    | cons _ _ inductionHypothesis => rw [List.flatMap_cons, inductionHypothesis]
  exact general (Piece.tiled_pieces text)

/-- The place behind a text and a newline. -/
theorem Cursor.origin_past_newline (front : String) :
    (Cursor.origin.past front.toList).past ['\n'] =
      Cursor.origin.shift (front.utf8ByteSize + 1) (1 + front.toList.count '\n') := by
  have newline : '\n'.utf8Size = 1 := rfl
  simp [origin, past, shift, Text.byteLength_toList, newline, Nat.add_comm]

/-- What is found in two texts that a newline joins. -/
theorem lexemes_scan_newline
    {front : String}
    (closed : ∀ error ∈ (scan front).errors, error.cause ≠ .unterminated)
    (back : String) :
    (scan (front ++ "\n" ++ back)).lexemes =
      (scan front).lexemes ++ (scan back).lexemes.map
        (Lexeme.shift (front.utf8ByteSize + 1) (1 + front.toList.count '\n')) := by
  have noOpenString : ∀ body, .openString body ∉ pieces front.toList := by
    intro body member
    obtain ⟨error, reported, unterminated⟩ := exists_unterminated member .origin
    exact closed error reported unterminated
  have joined : pieces (front ++ "\n" ++ back).toList =
      pieces front.toList ++ .blank '\n' :: pieces back.toList := by
    simpa using Piece.pieces_join noOpenString back.toList
  simp only [scan, joined, lexemes_append, flatMap_text_pieces]
  rw [lexemes, ← lexemes_shift, ← Cursor.origin_past_newline]
  rfl

theorem finish_scan_newline (front back : String) :
    (scan (front ++ "\n" ++ back)).finish =
      (scan back).finish.shift (front.utf8ByteSize + 1) (1 + front.toList.count '\n') := by
  simp only [scan, String.toList_append, Cursor.past_append, ← Cursor.past_shift,
    ← Cursor.origin_past_newline]
  rfl

/-- Two texts that a newline joins, the first of which leaves no string open, have the tokens of
the first, but for the mark of its end, and those of the second, and the errors of both.  The
places in the second text are moved on by the bytes and the lines in front of it. -/
theorem scan_newline
    {front : String}
    (closed : ∀ error ∈ (scan front).errors, error.cause ≠ .unterminated)
    (back : String) :
    let bytes := front.utf8ByteSize + 1
    let lines := 1 + front.toList.count '\n'
    (scan (front ++ "\n" ++ back)).tokens =
        (scan front).tokens.dropLast ++ (scan back).tokens.map (Token.shift bytes lines) ∧
      (scan (front ++ "\n" ++ back)).errors =
        (scan front).errors ++ (scan back).errors.map (LexError.shift bytes lines) := by
  intro bytes lines
  have found := lexemes_scan_newline closed back
  have ends : (scan (front ++ "\n" ++ back)).eof = (scan back).eof.shift bytes lines := by
    simp only [Scan.eof, finish_scan_newline, Cursor.spanTo_shift]
    rfl
  constructor
  · simp only [Scan.tokens, found, ends, List.dropLast_concat, List.filterMap_append,
      List.filterMap_map, Function.comp_def, Lexeme.token?_shift, List.map_append,
      List.map_filterMap, List.map_singleton, List.append_assoc]
    rfl
  · simp only [Scan.errors, found, List.filterMap_append, List.filterMap_map, Function.comp_def,
      Lexeme.error?_shift, List.map_filterMap]
    rfl

/-- The slash at the end of the first text and the one behind the newline open no comment, the
point behind the digit is no fraction, and the string of the second text is left open. -/
theorem scan_newline_slashes :
    (∀ error ∈ (scan "é 1./").errors, error.cause ≠ .unterminated) ∧
      (scan ("é 1./" ++ "\n" ++ "/ \"")).tokens.map (fun token => (token.kind, token.span)) =
        [(.number, ⟨3, 4, 1⟩), (.slash, ⟨5, 6, 1⟩), (.slash, ⟨7, 8, 2⟩), (.eof, ⟨10, 10, 2⟩)] ∧
      (scan ("é 1./" ++ "\n" ++ "/ \"")).errors =
        [⟨.unexpected 'é', ⟨0, 2, 1⟩⟩, ⟨.unexpected '.', ⟨4, 5, 1⟩⟩,
          ⟨.unterminated, ⟨9, 10, 2⟩⟩] := by
  have closed : ∀ error ∈ (scan "é 1./").errors, error.cause ≠ .unterminated := by
    decide +kernel
  obtain ⟨tokens, errors⟩ := scan_newline closed "/ \""
  rw [tokens, errors]
  exact ⟨closed, by decide +kernel, by decide +kernel⟩

end ScalarScript
