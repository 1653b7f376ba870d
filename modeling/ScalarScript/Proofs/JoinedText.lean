import ScalarScript.Proofs.Derivation
import ScalarScript.Proofs.KeepGoing
import ScalarScript.Proofs.Partition
import ScalarScript.Proofs.Printing

/-!
# Texts joined by newlines

No token goes on behind a newline, except a string that is open.  The tokens of texts that are
joined by newlines are therefore those of the texts, at other places, if the texts scan without
errors.  A program goes on behind its last token only with an operator or, when it ends with a
name, with a parenthesis; no program begins with an operator.  Programs none of which begins
with a parenthesis, except perhaps the first, are thus read from the joined texts as they are
read one by one, again at other places.
-/

namespace ScalarScript

/-! ## Pieces -/

namespace Piece

theorem NextFails.before_newline
    {test : Char → Bool}
    {after : List Char}
    (ends : NextFails test after)
    (newlineEnds : test '\n' = false)
    (back : List Char) :
    NextFails test (after ++ '\n' :: back) := by
  cases after with
  | nil =>
      rintro _ ⟨⟩
      exact newlineEnds
  | cons c after => exact ends

/-- A piece that fits in front of a text also fits when more lines follow, unless it is a string
that is open. -/
theorem Fits.before_newline
    {piece : Piece}
    {after : List Char}
    (fits : piece.Fits after)
    (closed : ∀ body, piece ≠ .openString body)
    (back : List Char) :
    piece.Fits (after ++ '\n' :: back) := by
  cases fits with
  | blank _ separating => exact .blank _ separating
  | comment oneLine ends => exact .comment oneLine (ends.before_newline rfl back)
  | lone _ isLone => exact .lone _ isLone
  | slash ends => exact .slash (ends.before_newline rfl back)
  | joined _ isJoined => exact .joined _ isJoined
  | joinable isJoinable ends => exact .joinable isJoinable (ends.before_newline rfl back)
  | word starts continues ends => exact .word starts continues (ends.before_newline rfl back)
  | integer nonempty digits ends noFraction =>
      refine .integer nonempty digits (ends.before_newline rfl back) ?_
      intro c rest same
      cases after with
      | nil => cases same
      | cons point after =>
          cases after with
          | nil =>
              cases same
              rfl
          | cons digit after =>
              cases same
              exact noFraction _ _ rfl
  | fraction nonempty digits more moreDigits ends =>
      exact .fraction nonempty digits more moreDigits (ends.before_newline rfl back)
  | string _ quoted => exact .string _ quoted
  | openString unclosed => exact absurd rfl (closed _)
  | stray _ noBlank noWord noDigit noSign => exact .stray _ noBlank noWord noDigit noSign

theorem Tiled.join
    {front back : List Char}
    {all others : List Piece}
    (tiledFront : Tiled front all)
    (closed : ∀ body, .openString body ∉ all)
    (tiledBack : Tiled back others) :
    Tiled (front ++ '\n' :: back) (all ++ .blank '\n' :: others) := by
  induction tiledFront with
  | nil => exact .cons (.blank back rfl) tiledBack
  | @cons piece after all fits _ inductionHypothesis =>
      have closedHere : ∀ body, piece ≠ .openString body := by
        rintro body rfl
        exact closed body (.head _)
      rw [List.append_assoc]
      exact .cons (fits.before_newline closedHere back)
        (inductionHypothesis fun body member => closed body (.tail _ member))

/-- Joining two texts joins their pieces. -/
theorem pieces_join
    {front : List Char}
    (closed : ∀ body, .openString body ∉ pieces front)
    (back : List Char) :
    pieces (front ++ '\n' :: back) = pieces front ++ .blank '\n' :: pieces back :=
  tiled_iff.1 ((tiled_pieces front).join closed (tiled_pieces back))

/-- Whether a piece is a lexical error. -/
def isFaulty : Piece → Bool
  | .openString _ | .stray _ => true
  | _ => false

end Piece

/-! ## Tokens -/

/-- The tokens of a text before the mark of the end. -/
def Scan.words (scan : Scan) : List Token :=
  scan.lexemes.filterMap Lexeme.token?

/-- What a piece stands for.  Whether it is a token, and which, does not depend on its place. -/
theorem Piece.lexeme?_cases (piece : Piece) :
    (piece.isFaulty = false ∧ ∀ start finish, piece.lexeme? start finish = none) ∨
      (piece.isFaulty = false ∧ ∃ word : Token, ∀ start finish, ∃ span,
        piece.lexeme? start finish = some (.token { word with span := span })) ∨
      (piece.isFaulty = true ∧ ∀ start finish, ∃ error,
        piece.lexeme? start finish = some (.error error)) := by
  cases piece with
  | blank | comment => exact .inl ⟨rfl, fun _ _ => rfl⟩
  | symbol kind => exact .inr (.inl ⟨rfl, ⟨kind, none, .zero⟩, fun _ _ => ⟨_, rfl⟩⟩)
  | word letters =>
      refine .inr (.inl ⟨rfl, ?_⟩)
      unfold lexeme?
      cases found : Token.Kind.keyword? (String.ofList letters) with
      | some kind =>
          exact ⟨⟨kind, none, .zero⟩, fun start finish =>
            ⟨start.spanTo finish, by simp only [found]⟩⟩
      | none =>
          exact ⟨⟨.identifier, some (.text (String.ofList letters)), .zero⟩, fun start finish =>
            ⟨start.spanTo finish, by simp only [found]⟩⟩
  | number whole fraction =>
      let value := Decimal.read whole (fraction.getD [])
      exact .inr (.inl ⟨rfl, ⟨.number, some (.number value), .zero⟩, fun _ _ => ⟨_, rfl⟩⟩)
  | string body =>
      exact .inr (.inl ⟨rfl, ⟨.string, some (.text (String.ofList body)), .zero⟩,
        fun _ _ => ⟨_, rfl⟩⟩)
  | openString | stray => exact .inr (.inr ⟨rfl, fun _ _ => ⟨_, rfl⟩⟩)

theorem lexemes_append
    (start : Cursor)
    (front back : List Piece) :
    lexemes start (front ++ back) =
      lexemes start front ++ lexemes (start.past (front.flatMap Piece.text)) back := by
  induction front generalizing start with
  | nil => simp [lexemes]
  | cons piece front inductionHypothesis => simp [lexemes, inductionHypothesis]

/-- The token that a piece stands for, without its place. -/
def Piece.word? (piece : Piece) : Option Token :=
  ((piece.lexeme? .origin .origin).bind Lexeme.token?).map Token.unlocated

theorem Piece.unlocated_token?
    (piece : Piece)
    (start finish : Cursor) :
    ((piece.lexeme? start finish).bind Lexeme.token?).map Token.unlocated = piece.word? := by
  unfold word?
  rcases piece.lexeme?_cases with ⟨_, nothing⟩ | ⟨_, word, token⟩ | ⟨_, faulty⟩
  · simp only [nothing]
  · obtain ⟨span, here⟩ := token start finish
    obtain ⟨otherSpan, there⟩ := token .origin .origin
    rw [here, there]
    rfl
  · obtain ⟨error, here⟩ := faulty start finish
    obtain ⟨otherError, there⟩ := faulty .origin .origin
    rw [here, there]
    rfl

/-- Wherever pieces stand, they are the same tokens at other places. -/
theorem unlocated_words
    (start : Cursor)
    (all : List Piece) :
    ((lexemes start all).filterMap Lexeme.token?).map Token.unlocated =
      all.filterMap Piece.word? := by
  induction all generalizing start with
  | nil => rfl
  | cons piece all inductionHypothesis =>
      rw [lexemes, List.filterMap_append, List.map_append, inductionHypothesis,
        List.filterMap_cons, ← piece.unlocated_token? start (start.past piece.text)]
      cases piece.lexeme? start (start.past piece.text) with
      | none => rfl
      | some lexeme => cases lexeme <;> rfl

theorem errors_lexemes_eq_nil_iff
    (start : Cursor)
    (all : List Piece) :
    (lexemes start all).filterMap Lexeme.error? = [] ↔
      ∀ piece ∈ all, piece.isFaulty = false := by
  induction all generalizing start with
  | nil => simp [lexemes]
  | cons piece all inductionHypothesis =>
      rw [lexemes, List.filterMap_append, List.append_eq_nil_iff, inductionHypothesis,
        List.forall_mem_cons]
      refine and_congr_left fun _ => ?_
      rcases piece.lexeme?_cases with ⟨sound, nothing⟩ | ⟨sound, word, token⟩ | ⟨faulty, errs⟩
      · simp [sound, nothing]
      · obtain ⟨span, here⟩ := token start (start.past piece.text)
        simp [sound, here, Lexeme.error?]
      · obtain ⟨error, here⟩ := errs start (start.past piece.text)
        simp [faulty, here, Lexeme.error?]

/-- Joining two texts without errors joins their tokens. -/
theorem scan_join
    {front back : String}
    (cleanFront : (scan front).errors = [])
    (cleanBack : (scan back).errors = []) :
    (scan (front ++ "\n" ++ back)).errors = [] ∧
      (scan (front ++ "\n" ++ back)).words.map Token.unlocated =
        ((scan front).words ++ (scan back).words).map Token.unlocated := by
  have soundFront := (errors_lexemes_eq_nil_iff _ _).1 cleanFront
  have soundBack := (errors_lexemes_eq_nil_iff _ _).1 cleanBack
  have closed : ∀ body, .openString body ∉ pieces front.toList := by
    intro body member
    cases soundFront _ member
  have joined : pieces (front ++ "\n" ++ back).toList =
      pieces front.toList ++ .blank '\n' :: pieces back.toList := by
    simpa using Piece.pieces_join closed back.toList
  constructor
  · refine (errors_lexemes_eq_nil_iff _ _).2 ?_
    rw [joined]
    intro piece member
    rcases List.mem_append.1 member with inFront | behind
    · exact soundFront piece inFront
    · rcases List.mem_cons.1 behind with rfl | inBack
      · rfl
      · exact soundBack piece inBack
  · simp only [Scan.words, scan, joined, List.map_append, unlocated_words, List.filterMap_append]
    rfl

/-- Joining texts without errors joins their tokens. -/
theorem scan_joined
    {contents : List String}
    (clean : ∀ content ∈ contents, (scan content).errors = []) :
    (scan ("\n".intercalate contents)).errors = [] ∧
      (scan ("\n".intercalate contents)).words.map Token.unlocated =
        (contents.flatMap fun content => (scan content).words).map Token.unlocated := by
  induction contents with
  | nil => simp [scan, Scan.words, Scan.errors, pieces, lexemes]
  | cons content contents inductionHypothesis =>
      cases contents with
      | nil => simpa using clean
      | cons next contents =>
          obtain ⟨cleanHere, cleanRest⟩ := List.forall_mem_cons.1 clean
          obtain ⟨noErrors, rest⟩ := inductionHypothesis cleanRest
          obtain ⟨noErrorsJoined, joined⟩ := scan_join cleanHere noErrors
          rw [String.intercalate_cons_cons]
          refine ⟨noErrorsJoined, ?_⟩
          rw [joined, List.flatMap_cons, List.map_append, List.map_append, rest]

/-! ## Programs -/

/-- Two tokens differ at most in their places. -/
def Token.Alike (token other : Token) : Prop :=
  token.unlocated = other.unlocated

namespace Token.Alike

variable {token other : Token}

theorem kind (alike : token.Alike other) : token.kind = other.kind :=
  (congrArg Token.kind alike : token.unlocated.kind = other.unlocated.kind)

theorem payload (alike : token.Alike other) : token.payload = other.payload :=
  (congrArg Token.payload alike : token.unlocated.payload = other.unlocated.payload)

theorem number? (alike : token.Alike other) : token.number? = other.number? := by
  simp only [Token.number?, alike.payload]

theorem name? (alike : token.Alike other) : token.name? = other.name? := by
  simp only [Token.name?, Token.text?, alike.kind, alike.payload]

end Token.Alike

/-- Two lists of tokens differ at most in places. -/
abbrev AlikeAll : List Token → List Token → Prop :=
  List.Forall₂ Token.Alike

theorem alikeAll_iff
    {tokens others : List Token} :
    AlikeAll tokens others ↔ tokens.map Token.unlocated = others.map Token.unlocated := by
  rw [← List.forall₂_eq_eq_eq, List.forall₂_map_left_iff, List.forall₂_map_right_iff]
  rfl

/-- Two expressions differ at most in places. -/
def Expr.Alike (expr other : Expr) : Prop :=
  expr.unlocated = other.unlocated

theorem Expr.unlocatedAll_of_alike
    {exprs others : List Expr}
    (alike : List.Forall₂ Expr.Alike exprs others) :
    Expr.unlocatedAll exprs = Expr.unlocatedAll others := by
  induction alike with
  | nil => rfl
  | cons same _ inductionHypothesis => rw [unlocatedAll, unlocatedAll, same, inductionHypothesis]

theorem Stmt.unlocated_eq_block
    {statement : Stmt}
    {block : Block}
    (same : statement.unlocated = (Stmt.block block).unlocated) :
    ∃ other, statement = .block other ∧ other.unlocated = block.unlocated := by
  cases statement with
  | block other =>
      simp only [unlocated, Stmt.block.injEq] at same
      exact ⟨other, rfl, same⟩
  | branch condition thenBlock elseIf elseBlock span =>
      cases elseIf <;> cases elseBlock <;> simp [unlocated] at same
  | _ => simp [unlocated] at same

theorem Stmt.unlocatedAll_append
    (front back : List Stmt) :
    Stmt.unlocatedAll (front ++ back) = Stmt.unlocatedAll front ++ Stmt.unlocatedAll back := by
  induction front with
  | nil => rfl
  | cons statement front inductionHypothesis =>
      rw [List.cons_append, unlocatedAll, inductionHypothesis, unlocatedAll, List.cons_append]

/-- Blocks that agree up to positions still do with one more statement in front. -/
theorem Block.unlocated_cons
    {statement other : Stmt}
    {statements others : List Stmt}
    {tail otherTail : Option Return}
    (sameStatement : statement.unlocated = other.unlocated)
    (sameBlock : (Block.mk statements tail).unlocated = (Block.mk others otherTail).unlocated) :
    (Block.mk (statement :: statements) tail).unlocated =
      (Block.mk (other :: others) otherTail).unlocated := by
  simp only [Block.unlocated, Block.mk.injEq] at sameBlock
  simp only [Block.unlocated, Stmt.unlocatedAll, sameStatement, sameBlock]

namespace Grammar

theorem unlocated_topLevel
    {expr other : Expr}
    (same : expr.Alike other) :
    (topLevel expr).unlocated = (topLevel other).unlocated := by
  simp only [topLevel, Stmt.unlocated, Stmt.expression.injEq]
  exact ⟨rfl, same⟩

theorem noParen_append
    {tokens others : List Token}
    (alike : AlikeAll others tokens)
    (avoids : noParen tokens)
    {suffix : List Token}
    (suffixAvoids : noParen suffix) :
    noParen (others ++ suffix) := by
  cases alike with
  | nil => exact suffixAvoids
  | cons same _ =>
      simp only [noParen, List.cons_append, nextAvoids_cons, same.kind] at avoids ⊢
      exact avoids

section Suffix

variable {suffix : List Token} (suffixAvoids : noParen suffix)
include suffixAvoids

/-- A phrase is derived as well from tokens at other places, and with more tokens behind what it
leaves. -/
theorem Derives.relocate
    {phrase : Phrase}
    {tokens rest others : List Token}
    {trees : List Expr}
    (derives : Derives noParen phrase tokens trees rest)
    (alike : AlikeAll others tokens) :
    ∃ otherTrees otherRest, List.Forall₂ Expr.Alike otherTrees trees ∧ AlikeAll otherRest rest ∧
      Derives noParen phrase (others ++ suffix) otherTrees (otherRest ++ suffix) := by
  induction derives generalizing others with
  | number isNumber =>
      rcases alike with _ | ⟨sameToken, sameRest⟩
      refine ⟨_, _, .cons ?_ .nil, sameRest, .number (sameToken.kind.trans isNumber)⟩
      simp only [Expr.Alike, Expr.unlocated, sameToken.number?]
  | name isName follows =>
      rcases alike with _ | ⟨sameToken, sameRest⟩
      refine ⟨_, _, .cons ?_ .nil, sameRest,
        .name (sameToken.name?.trans isName) (noParen_append sameRest follows suffixAvoids)⟩
      simp only [Expr.Alike, Expr.unlocated]
  | callEmpty isName opens closes =>
      rcases alike with _ | ⟨sameToken, _ | ⟨sameOpening, _ | ⟨sameClosing, sameRest⟩⟩⟩
      refine ⟨_, _, .cons ?_ .nil, sameRest, .callEmpty (sameToken.name?.trans isName)
        (sameOpening.kind.trans opens) (sameClosing.kind.trans closes)⟩
      simp only [Expr.Alike, Expr.unlocated]
  | call isName opens _ closes inductionHypothesis =>
      rcases alike with _ | ⟨sameToken, _ | ⟨sameOpening, sameMore⟩⟩
      obtain ⟨args, _, sameArgs, _ | ⟨sameClosing, sameRest⟩, derives⟩ :=
        inductionHypothesis sameMore
      refine ⟨_, _, .cons ?_ .nil, sameRest, .call (sameToken.name?.trans isName)
        (sameOpening.kind.trans opens) derives (sameClosing.kind.trans closes)⟩
      simp only [Expr.Alike, Expr.unlocated, Expr.unlocatedAll_of_alike sameArgs]
  | group opens _ closes inductionHypothesis =>
      rcases alike with _ | ⟨sameOpening, sameMore⟩
      obtain ⟨_, _, _ | ⟨sameInner, ⟨⟩⟩, _ | ⟨sameClosing, sameRest⟩, derives⟩ :=
        inductionHypothesis sameMore
      exact ⟨_, _, .cons sameInner .nil, sameRest,
        .group (sameOpening.kind.trans opens) derives (sameClosing.kind.trans closes)⟩
  | ascend isNext _ inductionHypothesis =>
      obtain ⟨_, _, _ | ⟨sameExpr, ⟨⟩⟩, sameRest, derives⟩ := inductionHypothesis alike
      exact ⟨_, _, .cons sameExpr .nil, sameRest, .ascend isNext derives⟩
  | joined isNext member _ _ leftHypothesis rightHypothesis =>
      obtain ⟨_, _, _ | ⟨sameLeft, ⟨⟩⟩, _ | ⟨sameOp, sameMiddle⟩, derivesLeft⟩ :=
        leftHypothesis alike
      obtain ⟨_, _, _ | ⟨sameRight, ⟨⟩⟩, sameRest, derivesRight⟩ := rightHypothesis sameMiddle
      refine ⟨_, _, .cons ?_ .nil, sameRest,
        .joined isNext (sameOp.kind ▸ member) derivesLeft derivesRight⟩
      simp only [Expr.Alike] at sameLeft sameRight
      simp only [Expr.Alike, Expr.unlocated, sameOp.kind, sameLeft, sameRight]
  | last _ inductionHypothesis =>
      obtain ⟨_, _, _ | ⟨sameExpr, ⟨⟩⟩, sameRest, derives⟩ := inductionHypothesis alike
      exact ⟨_, _, .cons sameExpr .nil, sameRest, .last derives⟩
  | more _ isComma _ inductionHypothesis othersHypothesis =>
      obtain ⟨_, _, _ | ⟨sameExpr, ⟨⟩⟩, _ | ⟨sameComma, sameMiddle⟩, derives⟩ :=
        inductionHypothesis alike
      obtain ⟨_, _, sameArgs, sameRest, derivesOthers⟩ := othersHypothesis sameMiddle
      exact ⟨_, _, .cons sameExpr sameArgs, sameRest,
        .more derives (sameComma.kind.trans isComma) derivesOthers⟩

theorem DerivesExpr.relocate
    {tokens rest others : List Token}
    {expr : Expr}
    (derives : DerivesExpr noParen tokens expr rest)
    (alike : AlikeAll others tokens) :
    ∃ other otherRest, other.Alike expr ∧ AlikeAll otherRest rest ∧
      DerivesExpr noParen (others ++ suffix) other (otherRest ++ suffix) := by
  obtain ⟨_, _, _ | ⟨sameExpr, ⟨⟩⟩, sameRest, derivesOther⟩ :=
    Derives.relocate suffixAvoids derives alike
  exact ⟨_, _, sameExpr, sameRest, derivesOther⟩

omit suffixAvoids in
theorem DerivesNames.relocate
    {tokens rest others : List Token}
    {names : List String}
    (derives : DerivesNames tokens names rest)
    (alike : AlikeAll others tokens) :
    ∃ otherRest, AlikeAll otherRest rest ∧
      DerivesNames (others ++ suffix) names (otherRest ++ suffix) := by
  induction derives generalizing others with
  | last rest isName =>
      rcases alike with _ | ⟨sameToken, sameRest⟩
      exact ⟨_, sameRest, .last _ (sameToken.name?.trans isName)⟩
  | more isName isComma _ inductionHypothesis =>
      rcases alike with _ | ⟨sameToken, _ | ⟨sameComma, sameMiddle⟩⟩
      obtain ⟨_, sameRest, derives⟩ := inductionHypothesis sameMiddle
      exact ⟨_, sameRest,
        .more (sameToken.name?.trans isName) (sameComma.kind.trans isComma) derives⟩

omit suffixAvoids in
theorem DerivesPrototype.relocate
    {tokens rest others : List Token}
    {proto : Prototype}
    (derives : DerivesPrototype tokens proto rest)
    (alike : AlikeAll others tokens) :
    ∃ other otherRest, other.unlocated = proto.unlocated ∧ AlikeAll otherRest rest ∧
      DerivesPrototype (others ++ suffix) other (otherRest ++ suffix) := by
  cases derives with
  | empty isName allowed _ opens closes noParams =>
      obtain _ | @⟨token, _, _, _, sameToken, _ | ⟨sameOpening, _ | ⟨sameClosing, sameRest⟩⟩⟩ :=
        alike
      exact ⟨{ proto with span := token.span }, _, rfl, sameRest,
        .empty (sameToken.name?.trans isName) allowed rfl (sameOpening.kind.trans opens)
          (sameClosing.kind.trans closes) noParams⟩
  | some isName allowed _ opens params closes =>
      obtain _ | @⟨token, _, _, _, sameToken, _ | ⟨sameOpening, sameMore⟩⟩ := alike
      obtain ⟨_, _ | ⟨sameClosing, sameRest⟩, derives⟩ := params.relocate sameMore
      exact ⟨{ proto with span := token.span }, _, rfl, sameRest,
        .some (sameToken.name?.trans isName) allowed rfl (sameOpening.kind.trans opens)
          derives (sameClosing.kind.trans closes)⟩

/-- Two parts differ at most in places. -/
inductive Part.Alike : Part → Part → Prop where
  | block : Alike .block .block
  | branch (keyword other : Token) : Alike (.branch keyword) (.branch other)
  | tail {condition otherCondition : Expr} {arm otherArm : Block} (span other : Span)
      (sameCondition : condition.Alike otherCondition)
      (sameArm : arm.unlocated = otherArm.unlocated) :
      Alike (.tail condition arm span) (.tail otherCondition otherArm other)

/-- A part is derived as well from tokens at other places, and with more tokens behind what it
leaves. -/
theorem DerivesPart.relocate
    {part other : Part}
    {tokens rest others : List Token}
    {statement : Stmt}
    (derives : DerivesPart noParen part tokens statement rest)
    (samePart : other.Alike part)
    (alike : AlikeAll others tokens) :
    ∃ otherStatement otherRest, otherStatement.unlocated = statement.unlocated ∧
      AlikeAll otherRest rest ∧
      DerivesPart noParen other (others ++ suffix) otherStatement (otherRest ++ suffix) := by
  induction derives generalizing other others with
  | empty rest =>
      cases samePart
      exact ⟨_, _, rfl, alike, .empty _⟩
  | returnNothing rest isReturn =>
      cases samePart
      obtain _ | ⟨sameToken, sameRest⟩ := alike
      refine ⟨_, _, ?_, sameRest, .returnNothing _ (sameToken.kind.trans isReturn)⟩
      simp only [Stmt.unlocated, Block.unlocated, Return.unlocated, Option.map_some]
  | returnValue isReturn value =>
      cases samePart
      obtain _ | ⟨sameToken, sameMore⟩ := alike
      obtain ⟨_, _, sameExpr, sameRest, derivesValue⟩ :=
        DerivesExpr.relocate suffixAvoids value sameMore
      refine ⟨_, _, ?_, sameRest, .returnValue (sameToken.kind.trans isReturn) derivesValue⟩
      simp only [Expr.Alike] at sameExpr
      simp only [Stmt.unlocated, Block.unlocated, Return.unlocated, Option.map_some, sameExpr]
  | conditional isIf _ _ branchHypothesis othersHypothesis =>
      cases samePart
      obtain _ | @⟨keyword, _, _, _, sameToken, sameMore⟩ := alike
      obtain ⟨_, _, sameBranch, sameMiddle, derivesBranch⟩ :=
        branchHypothesis (.branch keyword _) sameMore
      obtain ⟨_, _, sameOthers, sameRest, derivesOthers⟩ := othersHypothesis .block sameMiddle
      obtain ⟨⟨_, _⟩, rfl, sameBlock⟩ := Stmt.unlocated_eq_block sameOthers
      refine ⟨_, _, ?_, sameRest,
        .conditional (sameToken.kind.trans isIf) derivesBranch derivesOthers⟩
      simp only [Stmt.unlocated, Block.unlocated_cons sameBranch sameBlock]
  | expression derives _ othersHypothesis =>
      cases samePart
      obtain ⟨_, _, sameExpr, sameMiddle, derivesExpr⟩ :=
        DerivesExpr.relocate suffixAvoids derives alike
      obtain ⟨_, _, sameOthers, sameRest, derivesOthers⟩ := othersHypothesis .block sameMiddle
      obtain ⟨⟨_, _⟩, rfl, sameBlock⟩ := Stmt.unlocated_eq_block sameOthers
      refine ⟨_, _, ?_, sameRest, .expression derivesExpr derivesOthers⟩
      simp only [Stmt.unlocated, Block.unlocated_cons (unlocated_topLevel sameExpr) sameBlock]
  | branch decides isThen _ _ armHypothesis tailHypothesis =>
      cases samePart
      obtain ⟨_, _, sameCondition, _ | ⟨sameThen, sameMore⟩, derivesCondition⟩ :=
        DerivesExpr.relocate suffixAvoids decides alike
      obtain ⟨_, _, sameBlock, sameMiddle, derivesArm⟩ := armHypothesis .block sameMore
      obtain ⟨_, rfl, sameArm⟩ := Stmt.unlocated_eq_block sameBlock
      obtain ⟨_, _, sameStatement, sameRest, derivesTail⟩ :=
        tailHypothesis (.tail _ _ sameCondition sameArm) sameMiddle
      exact ⟨_, _, sameStatement, sameRest,
        .branch derivesCondition (sameThen.kind.trans isThen) derivesArm derivesTail⟩
  | elif isElif _ branchHypothesis =>
      obtain _ | _ | ⟨_, _, sameCondition, sameArm⟩ := samePart
      obtain _ | @⟨keyword, _, _, _, sameKeyword, sameMore⟩ := alike
      obtain ⟨_, _, sameOther, sameRest, derivesOther⟩ :=
        branchHypothesis (.branch keyword _) sameMore
      refine ⟨_, _, ?_, sameRest, .elif (sameKeyword.kind.trans isElif) derivesOther⟩
      simp only [Expr.Alike] at sameCondition
      simp only [Stmt.unlocated, sameCondition, sameArm, sameOther]
  | otherwise isElse _ isEnd blockHypothesis =>
      obtain _ | _ | ⟨_, _, sameCondition, sameArm⟩ := samePart
      obtain _ | ⟨sameKeyword, sameMore⟩ := alike
      obtain ⟨_, _, sameBlock, _ | ⟨sameClosing, sameRest⟩, derivesOther⟩ :=
        blockHypothesis .block sameMore
      obtain ⟨_, rfl, sameOther⟩ := Stmt.unlocated_eq_block sameBlock
      refine ⟨_, _, ?_, sameRest, .otherwise (sameKeyword.kind.trans isElse) derivesOther
        (sameClosing.kind.trans isEnd)⟩
      simp only [Expr.Alike] at sameCondition
      simp only [Stmt.unlocated, sameCondition, sameArm, sameOther]
  | done rest isEnd =>
      obtain _ | _ | ⟨_, _, sameCondition, sameArm⟩ := samePart
      obtain _ | ⟨sameClosing, sameRest⟩ := alike
      refine ⟨_, _, ?_, sameRest, .done _ (sameClosing.kind.trans isEnd)⟩
      simp only [Expr.Alike] at sameCondition
      simp only [Stmt.unlocated, sameCondition, sameArm]

/-- A program goes on with the program behind it. -/
theorem DerivesProgram.join
    {tokens others : List Token}
    {statements more : List Stmt}
    (derives : DerivesProgram noParen tokens statements)
    (alike : AlikeAll others tokens)
    (derivesSuffix : DerivesProgram noParen suffix more) :
    ∃ otherStatements, Stmt.unlocatedAll otherStatements = Stmt.unlocatedAll statements ∧
      DerivesProgram noParen (others ++ suffix) (otherStatements ++ more) := by
  induction derives generalizing others with
  | nil =>
      cases alike
      exact ⟨[], rfl, derivesSuffix⟩
  | function isDef header body isEnd _ inductionHypothesis =>
      obtain _ | ⟨sameToken, sameMore⟩ := alike
      obtain ⟨_, _, sameProto, sameMiddle, derivesHeader⟩ := header.relocate sameMore
      obtain ⟨_, _, sameBody, _ | ⟨sameClosing, sameRest⟩, derivesBody⟩ :=
        DerivesPart.relocate suffixAvoids body .block sameMiddle
      obtain ⟨_, rfl, sameBlock⟩ := Stmt.unlocated_eq_block sameBody
      obtain ⟨_, sameOthers, derivesOthers⟩ := inductionHypothesis sameRest
      refine ⟨_ :: _, ?_, .function (sameToken.kind.trans isDef) derivesHeader derivesBody
        (sameClosing.kind.trans isEnd) derivesOthers⟩
      simp only [Stmt.unlocatedAll, Stmt.unlocated, sameProto, sameBlock, sameOthers]
  | prototype isExtern header _ inductionHypothesis =>
      obtain _ | ⟨sameToken, sameMore⟩ := alike
      obtain ⟨_, _, sameProto, sameRest, derivesHeader⟩ := header.relocate sameMore
      obtain ⟨_, sameOthers, derivesOthers⟩ := inductionHypothesis sameRest
      refine ⟨_ :: _, ?_,
        .prototype (sameToken.kind.trans isExtern) derivesHeader derivesOthers⟩
      simp only [Stmt.unlocatedAll, Stmt.unlocated, sameProto, sameOthers]
  | expression derives _ inductionHypothesis =>
      obtain ⟨_, _, sameExpr, sameRest, derivesExpr⟩ :=
        DerivesExpr.relocate suffixAvoids derives alike
      obtain ⟨_, sameOthers, derivesOthers⟩ := inductionHypothesis sameRest
      refine ⟨_ :: _, ?_, .expression derivesExpr derivesOthers⟩
      simp only [Stmt.unlocatedAll, unlocated_topLevel sameExpr, sameOthers]

end Suffix

theorem noParen_flatten
    {bodies : List (List Token)}
    (avoid : ∀ body ∈ bodies, noParen body) :
    noParen bodies.flatten := by
  induction bodies with
  | nil => exact nextAvoids_nil _
  | cons body bodies inductionHypothesis =>
      obtain ⟨avoidsHere, avoidRest⟩ := List.forall_mem_cons.1 avoid
      exact noParen_append (List.forall₂_same.2 fun _ _ => rfl) avoidsHere
        (inductionHypothesis avoidRest)

/-- Programs one after the other are one program, wherever their tokens are. -/
theorem derivesProgram_flatten
    {bodies : List (List Token)}
    {programs : List (List Stmt)}
    (derive : List.Forall₂ (DerivesProgram noParen) bodies programs)
    (avoid : ∀ body ∈ bodies.tail, noParen body)
    {tokens : List Token}
    (alike : AlikeAll tokens bodies.flatten) :
    ∃ statements, Stmt.unlocatedAll statements = Stmt.unlocatedAll programs.flatten ∧
      DerivesProgram noParen tokens statements := by
  induction derive generalizing tokens with
  | nil =>
      cases alike
      exact ⟨[], rfl, .nil⟩
  | @cons body program bodies programs derives _ inductionHypothesis =>
      have sameBody := List.forall₂_take_append _ _ _ alike
      have sameRest := List.forall₂_drop_append _ _ _ alike
      have restAvoids : noParen (tokens.drop body.length) := by
        simpa using noParen_append sameRest (noParen_flatten avoid) (nextAvoids_nil _)
      obtain ⟨others, sameOthers, derivesRest⟩ := inductionHypothesis
        (fun other member => avoid other (List.mem_of_mem_tail member)) sameRest
      obtain ⟨statements, same, joined⟩ := derives.join restAvoids sameBody derivesRest
      rw [List.take_append_drop] at joined
      refine ⟨_, ?_, joined⟩
      rw [List.flatten_cons, Stmt.unlocatedAll_append, Stmt.unlocatedAll_append, same, sameOthers]

end Grammar

/-! ## Scripts -/

open Grammar

/-- The mark of the end comes behind all words. -/
theorem takeWhile_tokens (content : String) :
    ((scan content).tokens.takeWhile fun token => token.kind ≠ .eof) = (scan content).words := by
  have emitted := (Segment.emits_lexemes (Piece.tiled_pieces content.toList) []).1
  have endless : Endless (scan content).words := Segment.ne_eof_of_emits emitted
  rw [Scan.tokens, List.takeWhile_append_of_pos]
  · simp [Scan.eof, Scan.words]
  · intro token member
    simpa using endless token member

namespace Script

theorem parse_iff_derives
    (script : Script)
    (statements : List Stmt) :
    script.parse.result = .ok statements ↔
      (scan script.content).errors = [] ∧
        DerivesProgram noParen (scan script.content).words statements := by
  rw [parse_eq_ok_iff, Parse.ofTokens, takeWhile_tokens, ofBody_iff]

/-- The texts of scripts, joined by newlines. -/
def joined (name : String) (scripts : List Script) : Script :=
  .ofSource name ("\n".intercalate (scripts.map Script.content))

/-- The first token of a script, if it has one, is no parenthesis. -/
def StartsApart (script : Script) : Prop :=
  ∀ token ∈ (scan script.content).tokens.head?, token.kind ≠ .leftParen

theorem StartsApart.noParen
    {script : Script}
    (apart : script.StartsApart) :
    noParen (scan script.content).words := by
  intro token isFirst
  refine apart token ?_
  obtain ⟨more, isWords⟩ := List.head?_eq_some_iff.1 isFirst
  rw [Scan.tokens, ← Scan.words, isWords]
  rfl

/-- Scripts that parse one by one parse when they are joined, as their programs one after the
other at other places. -/
theorem parse_joined
    (name : String)
    {scripts : List Script}
    {programs : List (List Stmt)}
    (parsed : List.Forall₂ (fun script statements => script.parse.result = .ok statements)
      scripts programs)
    (apart : ∀ script ∈ scripts.tail, script.StartsApart) :
    ∃ statements, (joined name scripts).parse.result = .ok statements ∧
      Stmt.unlocatedAll statements = Stmt.unlocatedAll programs.flatten := by
  have derive := parsed.imp fun script statements => (parse_iff_derives script statements).1
  obtain ⟨clean, derivePrograms⟩ := (List.forall₂_and_left _ _).1 derive
  let words (script : Script) : List Token := (scan script.content).words
  have avoid : ∀ body ∈ (scripts.map words).tail, noParen body := by
    rw [← List.map_tail]
    exact List.forall_mem_map.2 fun script member => (apart script member).noParen
  obtain ⟨noErrors, sameWords⟩ := scan_joined (List.forall_mem_map.2 clean)
  have alike : AlikeAll (scan (joined name scripts).content).words (scripts.map words).flatten := by
    rw [List.flatMap_map] at sameWords
    rw [alikeAll_iff, ← List.flatMap_def]
    exact sameWords
  obtain ⟨statements, same, derives⟩ :=
    derivesProgram_flatten (List.forall₂_map_left_iff.2 derivePrograms) avoid alike
  exact ⟨statements, (parse_iff_derives _ _).2 ⟨noErrors, derives⟩, same⟩

end Script
end ScalarScript
