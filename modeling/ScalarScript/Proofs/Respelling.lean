import ScalarScript.Proofs.JoinedText

/-!
# Respelled texts

A token is known by its own characters: whatever stood around it, a blank behind it ends it, and
blanks and comments are all that may stand between it and the next token.  The lexemes of a text
that scans without errors can therefore be cut out of the text and spelled again with other
blanks and comments between them, and the scanner finds the same tokens.
-/

namespace ScalarScript

/-! ## Texts made of lexemes -/

/-- Blanks and comments, each comment with the newline that ends it. -/
inductive Gap : List Char → Prop where
  | nil : Gap []
  | blank {c : Char} {rest : List Char}
      (separating : Piece.separates c = true) (gap : Gap rest) :
      Gap (c :: rest)
  | comment {body rest : List Char} (oneLine : '\n' ∉ body) (gap : Gap rest) :
      Gap ('/' :: '/' :: (body ++ '\n' :: rest))

/-- Blanks and comments of which a blank comes first. -/
inductive Separator : List Char → Prop where
  | mk {c : Char} {rest : List Char}
      (separating : Piece.separates c = true) (gap : Gap rest) :
      Separator (c :: rest)

/-- A text holds some lexemes in their order, with a separator between each two and nothing
else. -/
inductive Spells : List (List Char) → List Char → Prop where
  | nil : Spells [] []
  | last (lexeme : List Char) : Spells [lexeme] lexeme
  | cons (lexeme : List Char) {next : List Char} {others : List (List Char)}
      {separator rest : List Char}
      (apart : Separator separator) (spells : Spells (next :: others) rest) :
      Spells (lexeme :: next :: others) (lexeme ++ (separator ++ rest))

/-- The characters of a token: those in its span and, for a string, the quotes around them. -/
def Token.spelling? (text : List Char) (token : Token) : Option (List Char) :=
  (Text.slice? token.span.start token.span.stop text).map fun inner =>
    if token.kind = .string then '"' :: inner ++ ['"'] else inner

namespace Piece

/-! ## Pieces that are tokens -/

/-- Whether a piece stands for a token. -/
def isToken (piece : Piece) : Bool :=
  piece.word?.isSome

theorem filterMap_word?_filter (all : List Piece) :
    (all.filter isToken).filterMap word? = all.filterMap word? := by
  rw [List.filterMap_filter]
  congr 1
  funext piece
  unfold isToken
  cases piece.word? <;> rfl

/-- A token fits in front of a blank and at the end of a text. -/
theorem Fits.parted
    {piece : Piece}
    {after : List Char}
    (fits : piece.Fits after)
    (isToken : piece.isToken = true)
    {rest : List Char}
    (parted : NextFails (fun c => !separates c) rest) :
    piece.Fits rest := by
  have ends : ∀ test : Char → Bool,
      ([' ', '\t', '\r', '\n'].all fun c => !test c) = true → NextFails test rest := by
    intro test fails c isNext
    have separating : separates c = true := by simpa using parted c isNext
    simp only [separates, Bool.or_eq_true, decide_eq_true_eq] at separating
    simp only [List.all_cons, List.all_nil, Bool.and_eq_true, Bool.not_eq_true'] at fails
    rcases separating with ((rfl | rfl) | rfl) | rfl
    · exact fails.1
    · exact fails.2.1
    · exact fails.2.2.1
    · exact fails.2.2.2.1
  cases fits with
  | lone _ isLone => exact .lone rest isLone
  | slash _ => exact .slash (ends _ rfl)
  | joined _ isJoined => exact .joined rest isJoined
  | joinable isJoinable _ => exact .joinable isJoinable (ends _ rfl)
  | word starts continues _ => exact .word starts continues (ends _ rfl)
  | integer nonempty digits _ _ =>
      refine .integer nonempty digits (ends _ rfl) ?_
      rintro c others rfl
      cases parted '.' rfl
  | fraction nonempty digits more moreDigits _ =>
      exact .fraction nonempty digits more moreDigits (ends _ rfl)
  | string _ quoted => exact .string rest quoted
  | blank | comment | openString | stray => cases isToken

/-! ## The pieces of a text made of lexemes -/

theorem isFaulty_of_isToken
    {piece : Piece}
    (isToken : piece.isToken = true) :
    piece.isFaulty = false := by
  cases piece with
  | openString | stray => cases isToken
  | _ => rfl

/-- A gap in front of a text is made of blanks and comments. -/
theorem Tiled.behind_gap
    {gap : List Char}
    (isGap : Gap gap)
    {text : List Char}
    {all : List Piece}
    (tiled : Tiled text all) :
    ∃ skipped, Tiled (gap ++ text) (skipped ++ all) ∧
      (∀ piece ∈ skipped, piece.word? = none) ∧ ∀ piece ∈ skipped, piece.isFaulty = false := by
  induction isGap with
  | nil => exact ⟨[], tiled, List.forall_mem_nil _, List.forall_mem_nil _⟩
  | @blank c rest separating _ inductionHypothesis =>
      obtain ⟨skipped, behind, noWord, sound⟩ := inductionHypothesis
      exact ⟨.blank c :: skipped, .cons (.blank _ separating) behind,
        List.forall_mem_cons.2 ⟨rfl, noWord⟩, List.forall_mem_cons.2 ⟨rfl, sound⟩⟩
  | @comment body rest oneLine _ inductionHypothesis =>
      obtain ⟨skipped, behind, noWord, sound⟩ := inductionHypothesis
      have ends : NextFails (· ≠ '\n') ('\n' :: (rest ++ text)) := by
        rintro _ ⟨⟩
        rfl
      have tiledComment := Tiled.cons (.comment oneLine ends) (.cons (.blank _ rfl) behind)
      refine ⟨.comment body :: .blank '\n' :: skipped, ?_,
        List.forall_mem_cons.2 ⟨rfl, List.forall_mem_cons.2 ⟨rfl, noWord⟩⟩,
        List.forall_mem_cons.2 ⟨rfl, List.forall_mem_cons.2 ⟨rfl, sound⟩⟩⟩
      simpa [Piece.text] using tiledComment

end Piece

theorem Separator.parted
    {separator : List Char}
    (apart : Separator separator)
    (rest : List Char) :
    Piece.NextFails (fun c => !Piece.separates c) (separator ++ rest) := by
  cases apart with
  | mk separating _ =>
      rintro _ ⟨⟩
      simp [separating]

theorem Separator.gap
    {separator : List Char}
    (apart : Separator separator) :
    Gap separator := by
  cases apart with
  | mk separating gap => exact .blank separating gap

/-- A text that holds the lexemes of some tokens is made of these tokens, in their order, and of
blanks and comments. -/
theorem Spells.tiled
    {words : List Piece}
    (tokens : ∀ piece ∈ words, piece.isToken = true ∧ ∃ after, piece.Fits after)
    {text : List Char}
    (spells : Spells (words.map Piece.text) text) :
    ∃ all, Piece.Tiled text all ∧ all.filterMap Piece.word? = words.filterMap Piece.word? ∧
      ∀ piece ∈ all, piece.isFaulty = false := by
  induction words generalizing text with
  | nil =>
      cases spells
      exact ⟨[], .nil, rfl, List.forall_mem_nil _⟩
  | cons piece words inductionHypothesis =>
      obtain ⟨⟨isToken, after, fits⟩, others⟩ := List.forall_mem_cons.1 tokens
      have sound := Piece.isFaulty_of_isToken isToken
      cases words with
      | nil =>
          cases spells
          have tiled : Piece.Tiled (piece.text ++ []) [piece] :=
            .cons (fits.parted isToken nofun) .nil
          rw [List.append_nil] at tiled
          exact ⟨[piece], tiled, rfl, List.forall_mem_singleton.2 sound⟩
      | cons next words =>
          cases spells with
          | @cons _ _ _ separator rest apart spells =>
              obtain ⟨all, tiled, sameWords, allSound⟩ := inductionHypothesis others spells
              obtain ⟨skipped, behind, noWord, skippedSound⟩ :=
                Piece.Tiled.behind_gap apart.gap tiled
              refine ⟨piece :: (skipped ++ all),
                .cons (fits.parted isToken (apart.parted rest)) behind, ?_,
                List.forall_mem_cons.2 ⟨sound, List.forall_mem_append.2 ⟨skippedSound, allSound⟩⟩⟩
              simp only [List.filterMap_cons, List.filterMap_append,
                List.filterMap_eq_nil_iff.2 noWord, sameWords, List.nil_append]

/-! ## The lexemes of a text -/

namespace Piece

/-- The span of a token cuts its characters out of the text. -/
theorem spelling?_lexeme
    (before : List Char)
    {piece : Piece}
    {after : List Char}
    (fits : piece.Fits after)
    {token : Token}
    (found : piece.lexeme? (Cursor.origin.past before)
      (Cursor.origin.past (before ++ piece.text)) = some (.token token)) :
    token.spelling? (before ++ (piece.text ++ after)) = some piece.text := by
  have emitted := Segment.emits_lexeme? before fits
  rw [found] at emitted
  obtain ⟨kind, payload, span⟩ := token
  cases emitted with
  | token isToken noError emits =>
      obtain ⟨spelling, located, extent, reads⟩ := emits
      have spells : (Token.mk kind payload span).spelling? (before ++ (piece.text ++ after)) =
          some (if kind = .string then '"' :: spelling ++ ['"'] else spelling) := by
        rw [Token.spelling?, located.slice, Option.map_some]
      rw [spells]
      cases reads with
      | symbol punctuates spelled =>
          have notString : kind ≠ .string := ne_of_mem_of_not_mem punctuates (by decide)
          rw [if_neg notString, ← spelled, text]
      | keyword reserved _ =>
          have notString : kind ≠ .string := ne_of_mem_of_not_mem reserved (by decide)
          rw [if_neg notString, text]
      | identifier _ => rfl
      | @number whole _ fraction _ _ =>
          -- what a number is read from is not told, so its range is used
          have cut := (Span.locates_append before (Piece.number whole fraction).text after).slice
          simp only [Segment.extent, Prod.mk.injEq] at extent
          rw [extent.2, extent.1] at cut
          exact located.slice.symm.trans cut
      | string => rfl

/-- The spans of the tokens of a text cut the characters of its pieces out of it. -/
theorem Tiled.spellings
    {rest : List Char}
    {all : List Piece}
    (tiled : Tiled rest all)
    (before : List Char) :
    ((lexemes (Cursor.origin.past before) all).filterMap Lexeme.token?).map
        (Token.spelling? (before ++ rest)) =
      ((all.filter isToken).map text).map some := by
  induction tiled generalizing before with
  | nil => rfl
  | @cons piece after others fits tiled inductionHypothesis =>
      have later := inductionHypothesis (before ++ piece.text)
      rw [List.append_assoc] at later
      have here := piece.unlocated_token? (Cursor.origin.past before)
        (Cursor.origin.past (before ++ piece.text))
      have step := @spelling?_lexeme before piece after fits
      rw [Cursor.past_append] at later here step
      rw [lexemes, List.filterMap_append, List.filter_cons, isToken, ← here]
      generalize piece.lexeme? _ _ = emitted at step
      cases emitted with
      | none => exact later
      | some lexeme =>
          cases lexeme with
          | token token => exact congrArg₂ List.cons (step rfl) later
          | error error => exact later

theorem Tiled.fits
    {rest : List Char}
    {all : List Piece}
    (tiled : Tiled rest all) :
    ∀ piece ∈ all, ∃ after, piece.Fits after := by
  induction tiled with
  | nil => exact List.forall_mem_nil _
  | cons fits _ inductionHypothesis =>
      exact List.forall_mem_cons.2 ⟨⟨_, fits⟩, inductionHypothesis⟩

end Piece

theorem words_eq_dropLast (found : Scan) : found.tokens.dropLast = found.words :=
  List.dropLast_concat

/-- The lexemes of a text, cut out of it by the spans of its tokens and spelled again with any
separators between them, scan without errors to the same tokens at other places.  The text itself
may have errors: they are left behind. -/
theorem scan_respelled (source : String) :
    ∃ spellings,
      (scan source).tokens.dropLast.map (Token.spelling? source.toList) = spellings.map some ∧
      ∀ text : String, Spells spellings text.toList →
        (scan text).errors = [] ∧
          (scan text).tokens.map Token.unlocated = (scan source).tokens.map Token.unlocated := by
  have tiled := Piece.tiled_pieces source.toList
  refine ⟨((pieces source.toList).filter Piece.isToken).map Piece.text, ?_, ?_⟩
  · rw [words_eq_dropLast]
    exact tiled.spellings []
  · intro text spells
    have tokens : ∀ piece ∈ (pieces source.toList).filter Piece.isToken,
        piece.isToken = true ∧ ∃ after, piece.Fits after := by
      intro piece member
      obtain ⟨inSource, isToken⟩ := List.mem_filter.1 member
      exact ⟨isToken, tiled.fits piece inSource⟩
    obtain ⟨all, tiledText, sameWords, sound⟩ := spells.tiled tokens
    obtain rfl := Piece.tiled_iff.1 tiledText
    refine ⟨(errors_lexemes_eq_nil_iff _ _).2 sound, ?_⟩
    have same : (scan text).words.map Token.unlocated =
        (scan source).words.map Token.unlocated := by
      simp only [Scan.words, scan, unlocated_words, sameWords, Piece.filterMap_word?_filter]
    simp only [Scan.tokens, List.map_append]
    exact congrArg (· ++ _) same

/-- A text with a keyword, an identifier, joined punctuation, a fraction, a slash and a string
that holds a character of two bytes, two slashes, an escaped quote and a newline. -/
def dense : String := "if a<=1.5/\"é//\\\"\n\""

/-- The same lexemes with other blanks and a comment between them. -/
def spaced : String := "if\ta // < \"\n<=\r1.5 /\n \"é//\\\"\n\""

theorem scan_respelled_dense :
    (scan dense).errors = [] ∧
      (scan dense).tokens.dropLast.map (Token.spelling? dense.toList) =
        [some ['i', 'f'], some ['a'], some ['<', '='], some ['1', '.', '5'], some ['/'],
          some ['"', 'é', '/', '/', '\\', '"', '\n', '"']] ∧
      (scan spaced).errors = [] ∧
      (scan spaced).tokens.map Token.unlocated = (scan dense).tokens.map Token.unlocated := by
  have clean : (scan dense).errors = [] := by decide +kernel
  have cut : (scan dense).tokens.dropLast.map (Token.spelling? dense.toList) =
      [['i', 'f'], ['a'], ['<', '='], ['1', '.', '5'], ['/'],
        ['"', 'é', '/', '/', '\\', '"', '\n', '"']].map some := by decide +kernel
  obtain ⟨spellings, spelled, respelled⟩ := scan_respelled dense
  obtain rfl := (List.map_inj_right fun _ _ => Option.some.inj).1 (spelled.symm.trans cut)
  have comment : Separator [' ', '/', '/', ' ', '<', ' ', '"', '\n'] :=
    .mk rfl (@Gap.comment [' ', '<', ' ', '"'] [] (by decide) .nil)
  have spells : Spells _ spaced.toList :=
    .cons ['i', 'f'] (.mk (c := '\t') rfl .nil) <|
      .cons ['a'] comment <|
      .cons ['<', '='] (.mk (c := '\r') rfl .nil) <|
      .cons ['1', '.', '5'] (.mk (c := ' ') rfl .nil) <|
      .cons ['/'] (.mk (c := '\n') rfl (.blank (c := ' ') rfl .nil)) <|
      .last ['"', 'é', '/', '/', '\\', '"', '\n', '"']
  exact ⟨clean, cut, respelled spaced spells⟩

end ScalarScript
