import Mathlib.Data.List.Forall2
import Mathlib.Data.List.Induction
import Mathlib.Data.Nat.Digits.Defs
import Mathlib.Data.String.Basic
import ScalarScript.Proofs.Pieces
import ScalarScript.Token.Scan

/-!
# Scanning partitions a text

The pieces of a text fill consecutive ranges of its bytes, from the first to the last.  Each
range that holds a token or an error gives one, in the order of the ranges, with a span that
cuts the piece, or what is between its quotes, out of the text.  Spans count bytes, so that a
span is in order only if characters fill exactly the bytes before it and the bytes in it.
-/

namespace ScalarScript

/-! ## Slices of a text -/

namespace Text

/-- The characters that fill exactly the bytes between two offsets, if some do. -/
def slice? (start stop : Nat) (text : List Char) : Option (List Char) :=
  if start ≤ stop then
    (upTo start text).bind fun before => upTo (stop - start) (text.drop before.length)
  else
    none

theorem utf8Len_eq_byteLength (text : List Char) : String.utf8Len text = byteLength text := by
  induction text with
  | nil => rfl
  | cons c text inductionHypothesis =>
      rw [byteLength_cons, ← inductionHypothesis, String.utf8Len_cons, Nat.add_comm]

/-- The characters of a text fill its bytes. -/
theorem byteLength_toList (source : String) :
    byteLength source.toList = source.utf8ByteSize := by
  rw [← utf8Len_eq_byteLength, String.utf8Len_toList]

/-- Characters fill at least one byte. -/
theorem byteLength_pos
    {text : List Char}
    (nonempty : text ≠ []) :
    0 < byteLength text := by
  obtain ⟨c, rest, rfl⟩ := List.exists_cons_of_ne_nil nonempty
  have positive := c.utf8Size_pos
  simp only [byteLength_cons]
  omega

/-- The characters that fill the first bytes are found again. -/
@[simp] theorem upTo_byteLength_append
    (front back : List Char) :
    upTo (byteLength front) (front ++ back) = some front := by
  induction front with
  | nil => simp [upTo]
  | cons c front inductionHypothesis =>
      have positive := c.utf8Size_pos
      rw [byteLength_cons, List.cons_append]
      obtain ⟨size, isSize⟩ : ∃ size, c.utf8Size + byteLength front = size + 1 :=
        Nat.exists_eq_succ_of_ne_zero (by omega)
      rw [isSize, upTo, if_pos (by omega), ← isSize, Nat.add_sub_cancel_left, inductionHypothesis]
      rfl

/-- A text falls apart at an offset in one way only. -/
theorem append_inj_of_byteLength
    {front back front' back' : List Char}
    (same : front ++ back = front' ++ back')
    (sameLength : byteLength front = byteLength front') :
    front = front' ∧ back = back' := by
  have frontAgain := upTo_byteLength_append front back
  rw [same, sameLength, upTo_byteLength_append] at frontAgain
  obtain rfl : front' = front := Option.some.inj frontAgain
  exact ⟨rfl, List.append_cancel_left same⟩

end Text

open Text

/-- A span lies on character boundaries of a text, cuts out some characters and is on the line
on which they end. -/
structure Span.Locates (span : Span) (text spelling : List Char) : Prop where
  slice : slice? span.start span.stop text = some spelling
  line : ∃ before, upTo span.stop text = some before ∧ span.line = 1 + before.count '\n'

theorem Cursor.origin_past (before : List Char) :
    origin.past before = ⟨byteLength before, 1 + before.count '\n'⟩ := by
  simp [origin, past]

/-- The span of some characters in the middle of a text. -/
theorem Span.locates_append
    (before middle after : List Char) :
    Span.Locates
      ⟨byteLength before, byteLength before + byteLength middle, 1 + (before ++ middle).count '\n'⟩
      (before ++ (middle ++ after)) middle where
  slice := by simp [slice?]
  line := by
    refine ⟨before ++ middle, ?_, rfl⟩
    rw [← List.append_assoc, ← byteLength_append]
    exact upTo_byteLength_append _ _

/-! ## Segments -/

/-- A range of byte offsets with the piece that fills it. -/
structure Segment where
  start : Nat
  stop : Nat
  piece : Piece
deriving DecidableEq, Repr

namespace Segment

/-- A segment sits in a text: characters fill the bytes before it, its piece fills the
segment, and the piece fits in front of what comes after it. -/
def Sits (text : List Char) (segment : Segment) : Prop :=
  ∃ before after, text = before ++ (segment.piece.text ++ after) ∧
    byteLength before = segment.start ∧
    byteLength (before ++ segment.piece.text) = segment.stop ∧
    segment.piece.Fits after

/-- Segments that are not empty fill the bytes from one offset to another without gap or
overlap. -/
inductive Consecutive : Nat → List Segment → Nat → Prop where
  | nil (offset : Nat) : Consecutive offset [] offset
  | cons (segment : Segment) {others : List Segment} {stop : Nat}
      (occupied : segment.start < segment.stop)
      (consecutive : Consecutive segment.stop others stop) :
      Consecutive segment.start (segment :: others) stop

/-- Segments divide all bytes of a text among them. -/
structure Partition (source : String) (segments : List Segment) : Prop where
  consecutive : Consecutive 0 segments source.utf8ByteSize
  sits : ∀ segment ∈ segments, segment.Sits source.toList

/-- The segments that consecutive pieces fill. -/
def ofPieces (offset : Nat) : List Piece → List Segment
  | [] => []
  | piece :: others =>
      let stop := offset + byteLength piece.text
      ⟨offset, stop, piece⟩ :: ofPieces stop others

/-- Pieces that fit in front of each other fill consecutive segments, each at its place in the text.
-/
theorem partition_ofPieces
    {rest : List Char}
    {all : List Piece}
    (tiled : Piece.Tiled rest all)
    (before : List Char) :
    Consecutive (byteLength before) (ofPieces (byteLength before) all)
        (byteLength (before ++ rest)) ∧
      ∀ segment ∈ ofPieces (byteLength before) all, segment.Sits (before ++ rest) := by
  induction tiled generalizing before with
  | nil =>
      rw [List.append_nil]
      exact ⟨.nil _, by simp [ofPieces]⟩
  | @cons piece after others fits tiled inductionHypothesis =>
      obtain ⟨consecutive, sits⟩ := inductionHypothesis (before ++ piece.text)
      rw [byteLength_append before piece.text, List.append_assoc] at consecutive sits
      have occupied := byteLength_pos fits.text_ne_nil
      constructor
      · exact .cons ⟨_, _, piece⟩ (Nat.lt_add_of_pos_right occupied) consecutive
      · intro segment member
        rcases List.mem_cons.1 member with rfl | later
        · exact ⟨before, after, rfl, rfl, byteLength_append _ _, fits⟩
        · exact sits segment later

/-- Segments that divide a text hold its pieces. -/
theorem eq_ofPieces
    {offset stop : Nat}
    {segments : List Segment}
    (consecutive : Consecutive offset segments stop)
    (before rest : List Char)
    (fromHere : byteLength before = offset)
    (toEnd : byteLength (before ++ rest) = stop)
    (sits : ∀ segment ∈ segments, segment.Sits (before ++ rest)) :
    segments = ofPieces offset (pieces rest) := by
  induction consecutive generalizing before rest with
  | nil offset =>
      have nothing : rest = [] := by
        by_contra nonempty
        have positive := byteLength_pos nonempty
        rw [byteLength_append] at toEnd
        omega
      simp [nothing, pieces, ofPieces]
  | cons segment occupied consecutive inductionHypothesis =>
      obtain ⟨front, after, split, startsHere, stopsHere, fits⟩ := sits segment (.head _)
      obtain ⟨rfl, rfl⟩ := append_inj_of_byteLength split (fromHere.trans startsHere.symm)
      rw [← List.append_assoc] at toEnd sits
      have later := inductionHypothesis _ _ stopsHere toEnd
        fun other member => sits other (.tail segment member)
      have first : pieces (segment.piece.text ++ after) = segment.piece :: pieces after :=
        Piece.tiled_iff.1 (.cons fits (Piece.tiled_pieces after))
      have stop : segment.start + byteLength segment.piece.text = segment.stop := by
        rw [← fromHere, ← byteLength_append, stopsHere]
      simp only [first, ofPieces, stop, ← later]

/-- A text is divided in one way only. -/
theorem Partition.eq_ofPieces
    {source : String}
    {segments : List Segment}
    (partition : Partition source segments) :
    segments = ofPieces 0 (pieces source.toList) :=
  Segment.eq_ofPieces partition.consecutive [] source.toList rfl (byteLength_toList source)
    partition.sits

/-- Whether a segment holds a token. -/
def isToken (segment : Segment) : Bool :=
  match segment.piece with
  | .symbol _ | .word _ | .number _ _ | .string _ => true
  | _ => false

/-- Whether a segment holds an error. -/
def isError (segment : Segment) : Bool :=
  match segment.piece with
  | .openString _ | .stray _ => true
  | _ => false

/-- The first offset and the one after the last: those of the segment, or, for a string, those
between its quotes. -/
def extent (segment : Segment) : Nat × Nat :=
  match segment.piece with
  | .string _ => (segment.start + 1, segment.stop - 1)
  | _ => (segment.start, segment.stop)

end Segment

/-! ## What a segment says -/

/-- The number that decimal digits spell, of which the last counts ones. -/
def Decimal.numeral (digits : List Char) : Nat :=
  Nat.ofDigits 10 (digits.reverse.map fun digit => digit.toNat - '0'.toNat)

/-- The double that some digits spell, perhaps with a point and further digits: their number,
without the point, over as many powers of ten as there are digits behind it. -/
def Decimal.parse? (spelling : List Char) : Option Float :=
  let whole := spelling.takeWhile Char.isDigit
  if whole = [] then
    none
  else
    match spelling.dropWhile Char.isDigit with
    | [] => some (Float.ofScientific (numeral whole) true 0)
    | '.' :: fraction =>
        if fraction ≠ [] ∧ fraction.all Char.isDigit then
          some (Float.ofScientific (numeral (whole ++ fraction)) true fraction.length)
        else
          none
    | _ => none

/-- Adding up digits from the front gives the number that they spell. -/
theorem Decimal.foldl_eq_numeral (digits : List Char) :
    digits.foldl (fun total digit => 10 * total + (digit.toNat - '0'.toNat)) 0 =
      numeral digits := by
  induction digits using List.reverseRecOn with
  | nil => rfl
  | append_singleton digits digit inductionHypothesis =>
      rw [List.foldl_concat, inductionHypothesis]
      simp [numeral, Nat.ofDigits_cons, Nat.add_comm]

/-- The scanner gives a number the double of its digits, divided by ten for each digit behind the
point. -/
theorem Decimal.read_eq
    (whole fraction : List Char) :
    read whole fraction =
      Float.ofScientific (numeral (whole ++ fraction)) true fraction.length := by
  unfold read
  dsimp only
  rw [foldl_eq_numeral]

/-- Digits without a point are parsed as the scanner reads them. -/
theorem Decimal.parse?_whole
    {whole : List Char}
    (nonempty : whole ≠ [])
    (digits : ∀ digit ∈ whole, digit.isDigit = true) :
    parse? whole = some (read whole []) := by
  have all : whole.takeWhile Char.isDigit = whole := List.takeWhile_eq_self_iff.2 digits
  have nothing : whole.dropWhile Char.isDigit = [] := List.dropWhile_eq_nil_iff.2 digits
  simp [parse?, all, nothing, nonempty, read_eq]

/-- Digits with a point are parsed as the scanner reads them. -/
theorem Decimal.parse?_fraction
    {whole fraction : List Char}
    (nonempty : whole ≠ [])
    (digits : ∀ digit ∈ whole, digit.isDigit = true)
    (more : fraction ≠ [])
    (moreDigits : ∀ digit ∈ fraction, digit.isDigit = true) :
    parse? (whole ++ '.' :: fraction) = some (read whole fraction) := by
  have point : Piece.NextFails Char.isDigit ('.' :: fraction) := by
    rintro _ ⟨⟩
    rfl
  have all : fraction.all Char.isDigit := by simpa using moreDigits
  simp [parse?, point.takeWhile_append digits, point.dropWhile_append digits, nonempty, more,
    all, read_eq]

namespace Piece

/-- All punctuation. -/
def punctuation : List Token.Kind :=
  .slash :: lone ++ joined ++ joinable

/-- The kind and the payload of the token that a piece with the given spelling stands for. -/
inductive Reads : Piece → List Char → Token.Kind → Option Token.Payload → Prop where
  | symbol {kind : Token.Kind} {spelling : List Char}
      (punctuates : kind ∈ punctuation) (spelled : kind.lexeme.toList = spelling) :
      Reads (.symbol kind) spelling kind none
  | keyword {kind : Token.Kind} {spelling : List Char}
      (reserved : kind ∈ Token.Kind.keywords) (spelled : kind.lexeme.toList = spelling) :
      Reads (.word spelling) spelling kind none
  | identifier {spelling : List Char}
      (free : ∀ kind ∈ Token.Kind.keywords, kind.lexeme.toList ≠ spelling) :
      Reads (.word spelling) spelling .identifier (some (.text (String.ofList spelling)))
  | number {whole spelling : List Char} {fraction : Option (List Char)} {value : Float}
      (parsed : Decimal.parse? spelling = some value) :
      Reads (.number whole fraction) spelling .number (some (.number value))
  | string {spelling : List Char} :
      Reads (.string spelling) spelling .string (some (.text (String.ofList spelling)))

/-- The cause of the error that a piece with the given spelling stands for. -/
inductive Faults : Piece → List Char → LexError.Cause → Prop where
  | stray (c : Char) : Faults (.stray c) [c] (.unexpected c)
  | openString (body : List Char) : Faults (.openString body) ('"' :: body) .unterminated

theorem Fits.mem_punctuation
    {kind : Token.Kind}
    {after : List Char}
    (fits : (Piece.symbol kind).Fits after) :
    kind ∈ punctuation := by
  cases fits with
  | slash => exact .head _
  | lone _ isLone => simp [punctuation, isLone]
  | joined _ isJoined => simp [punctuation, isJoined]
  | joinable isJoinable => simp [punctuation, isJoinable]

/-- No piece stands for the end of input. -/
theorem Reads.kind_ne_eof
    {piece : Piece}
    {spelling : List Char}
    {kind : Token.Kind}
    {payload : Option Token.Payload}
    (reads : piece.Reads spelling kind payload) :
    kind ≠ .eof := by
  cases reads with
  | symbol punctuates => exact ne_of_mem_of_not_mem punctuates (by decide)
  | keyword reserved => exact ne_of_mem_of_not_mem reserved (by decide)
  | _ => exact nofun

end Piece

namespace Segment

/-- A token stands for a segment of a text. -/
def EmitsToken (text : List Char) (segment : Segment) (token : Token) : Prop :=
  ∃ spelling, token.span.Locates text spelling ∧
    segment.extent = (token.span.start, token.span.stop) ∧
    segment.piece.Reads spelling token.kind token.payload

/-- An error stands for a segment of a text. -/
def EmitsError (text : List Char) (segment : Segment) (error : LexError) : Prop :=
  ∃ spelling, error.span.Locates text spelling ∧
    segment.extent = (error.span.start, error.span.stop) ∧
    segment.piece.Faults spelling error.cause

/-- What the scanner makes of one segment. -/
inductive Emits (text : List Char) (segment : Segment) : Option Lexeme → Prop where
  | nothing (noToken : segment.isToken = false) (noError : segment.isError = false) :
      Emits text segment none
  | token {token : Token} (isToken : segment.isToken = true) (noError : segment.isError = false)
      (emits : segment.EmitsToken text token) :
      Emits text segment (some (.token token))
  | error {error : LexError} (noToken : segment.isToken = false) (isError : segment.isError = true)
      (emits : segment.EmitsError text error) :
      Emits text segment (some (.error error))

/-- One step of the scanner. -/
theorem emits_lexeme?
    (before : List Char)
    {piece : Piece}
    {after : List Char}
    (fits : piece.Fits after) :
    Emits (before ++ (piece.text ++ after))
      ⟨byteLength before, byteLength before + byteLength piece.text, piece⟩
      (piece.lexeme? (Cursor.origin.past before) (Cursor.origin.past (before ++ piece.text))) := by
  have located := Span.locates_append before piece.text after
  rw [Cursor.origin_past, Cursor.origin_past, byteLength_append]
  cases piece with
  | blank c => exact .nothing rfl rfl
  | comment body => exact .nothing rfl rfl
  | symbol kind =>
      exact .token rfl rfl ⟨_, located, rfl, .symbol fits.mem_punctuation rfl⟩
  | word letters =>
      unfold Piece.lexeme?
      cases found : Token.Kind.keyword? (String.ofList letters) with
      | some kind =>
          have spelled : kind.lexeme = String.ofList letters := by simpa using List.find?_some found
          simp only [found]
          exact .token rfl rfl ⟨_, located, rfl,
            .keyword (List.mem_of_find?_eq_some found) (by simp [spelled])⟩
      | none =>
          have free : ∀ kind ∈ Token.Kind.keywords, kind.lexeme.toList ≠ letters := by
            rintro kind reserved rfl
            simpa using List.find?_eq_none.1 found kind reserved
          simp only [found]
          exact .token rfl rfl ⟨_, located, rfl, .identifier free⟩
  | number whole fraction =>
      refine .token rfl rfl ⟨_, located, rfl, .number ?_⟩
      cases fits with
      | integer nonempty digits => exact Decimal.parse?_whole nonempty digits
      | fraction nonempty digits more moreDigits =>
          exact Decimal.parse?_fraction nonempty digits more moreDigits
  | string body =>
      have quote : '"'.utf8Size = 1 := rfl
      -- the closing quote is one byte and no newline, so the line is that of the whole piece
      have inner := Span.locates_append (before ++ ['"']) body ('"' :: after)
      have sameText : before ++ ['"'] ++ (body ++ '"' :: after) =
          before ++ ((Piece.string body).text ++ after) := by
        simp [Piece.text]
      have sameStart : byteLength (before ++ ['"']) = byteLength before + 1 := by
        simp [quote]
      have sameStop : byteLength (before ++ ['"']) + byteLength body =
          byteLength before + byteLength (Piece.string body).text - 1 := by
        simp only [Piece.text, byteLength_append, byteLength_cons, byteLength_nil, quote]
        omega
      have sameLine : (before ++ ['"'] ++ body).count '\n' =
          (before ++ (Piece.string body).text).count '\n' := by
        simp [Piece.text]
      rw [sameText, sameLine, sameStop, sameStart] at inner
      exact .token rfl rfl ⟨body, inner, rfl, .string⟩
  | openString body => exact .error rfl rfl ⟨_, located, rfl, .openString body⟩
  | stray c => exact .error rfl rfl ⟨_, located, rfl, .stray c⟩

/-- The segments of a text give its tokens and errors, one each and in their order. -/
theorem emits_lexemes
    {rest : List Char}
    {all : List Piece}
    (tiled : Piece.Tiled rest all)
    (before : List Char) :
    List.Forall₂ (EmitsToken (before ++ rest))
        ((ofPieces (byteLength before) all).filter isToken)
        ((lexemes (Cursor.origin.past before) all).filterMap Lexeme.token?) ∧
      List.Forall₂ (EmitsError (before ++ rest))
        ((ofPieces (byteLength before) all).filter isError)
        ((lexemes (Cursor.origin.past before) all).filterMap Lexeme.error?) := by
  induction tiled generalizing before with
  | nil => exact ⟨.nil, .nil⟩
  | @cons piece after others fits tiled inductionHypothesis =>
      obtain ⟨tokens, errors⟩ := inductionHypothesis (before ++ piece.text)
      have step := emits_lexeme? before fits
      rw [byteLength_append before piece.text, List.append_assoc] at tokens errors
      rw [Cursor.past_append] at tokens errors step
      simp only [ofPieces, lexemes]
      generalize piece.lexeme? _ _ = emitted at step
      cases step with
      | nothing noToken noError => simpa [noToken, noError] using ⟨tokens, errors⟩
      | token isToken noError emits =>
          simpa [isToken, noError, Lexeme.token?, Lexeme.error?] using ⟨⟨emits, tokens⟩, errors⟩
      | error noToken isError emits =>
          simpa [noToken, isError, Lexeme.token?, Lexeme.error?] using ⟨tokens, emits, errors⟩

/-- No token of a segment marks the end of input. -/
theorem ne_eof_of_emits
    {text : List Char}
    {segments : List Segment}
    {tokens : List Token}
    (emitted : List.Forall₂ (EmitsToken text) segments tokens) :
    ∀ token ∈ tokens, token.kind ≠ .eof := by
  induction emitted with
  | nil => exact nofun
  | cons emits _ inductionHypothesis =>
      obtain ⟨spelling, _, _, reads⟩ := emits
      exact List.forall_mem_cons.2 ⟨reads.kind_ne_eof, inductionHypothesis⟩

end Segment

open Segment

/-- A scanned text is divided into consecutive segments in exactly one way.  Its tokens and
errors stand for the segments of tokens and errors, one each and in their order, and the mark
of the end, which no other token is, comes last and stands behind the last byte. -/
theorem scan_partitions (source : String) :
    ∃ segments tokens,
      Partition source segments ∧
        (∀ others, Partition source others → others = segments) ∧
        List.Forall₂ (EmitsToken source.toList) (segments.filter isToken) tokens ∧
        List.Forall₂ (EmitsError source.toList) (segments.filter isError) (scan source).errors ∧
        (∀ token ∈ tokens, token.kind ≠ .eof) ∧
        (scan source).tokens = tokens ++ [⟨.eof, none,
          source.utf8ByteSize, source.utf8ByteSize, 1 + source.toList.count '\n'⟩] := by
  have tiled := Piece.tiled_pieces source.toList
  obtain ⟨consecutive, sits⟩ := partition_ofPieces tiled []
  obtain ⟨tokens, errors⟩ := emits_lexemes tiled []
  rw [List.nil_append, byteLength_toList] at consecutive
  rw [List.nil_append, Cursor.past_nil] at tokens errors
  refine ⟨ofPieces 0 (pieces source.toList), _, ⟨consecutive, sits⟩,
    fun others partition => partition.eq_ofPieces, tokens, errors, ne_eof_of_emits tokens, ?_⟩
  simp [Scan.tokens, Scan.eof, scan, Cursor.origin_past, Cursor.spanTo, byteLength_toList]

end ScalarScript
