import ScalarScript.Proofs.Partition
import ScalarScript.Report

/-!
# Places in a text

A place is a point between two characters of a text.  It is seen together with its line: what
comes before the line, the line up to the place and from there on, and what comes after the
line.  Scripts resolve an offset to the column of a place and a line number to the line of a
place; a span has a place where it starts and one where it stops.
-/

namespace ScalarScript
namespace Text

/-- A point between two characters of a text, with its line. -/
structure Place (text : List Char) where
  /-- The text before the line. -/
  earlier : List Char
  /-- The line up to the point. -/
  head : List Char
  /-- The line from the point on, without the newline that ends it. -/
  tail : List Char
  /-- The text after the line, from the newline on. -/
  later : List Char
  whole : (earlier ++ head) ++ (tail ++ later) = text
  oneLine : '\n' ∉ head ++ tail
  starts : ∀ c ∈ earlier.getLast?, c = '\n'
  ends : ∀ c ∈ later.head?, c = '\n'

namespace Place

variable {text : List Char}

/-- The text up to the point. -/
def before (place : Place text) : List Char :=
  place.earlier ++ place.head

/-- The number of bytes up to the point. -/
def offset (place : Place text) : Nat :=
  byteLength place.before

/-- The number of the line, one for the first. -/
def number (place : Place text) : Nat :=
  1 + place.before.count '\n'

/-- The number of the next byte in its line, one for the first. -/
def column (place : Place text) : Nat :=
  1 + byteLength place.head

/-- The line. -/
def line (place : Place text) : List Char :=
  place.head ++ place.tail

/-- The line without its ending, which is a newline or a carriage return and a newline. -/
def Shows (place : Place text) (shown : String) : Prop :=
  shown.toList = place.line ∨ place.later ≠ [] ∧ shown.toList ++ ['\r'] = place.line

/-- The place between two parts of a text. -/
def between (front back : List Char) : Place (front ++ back) where
  earlier := (front.reverse.dropWhile (· ≠ '\n')).reverse
  head := lastLine front
  tail := back.takeWhile (· ≠ '\n')
  later := back.dropWhile (· ≠ '\n')
  whole := by
    rw [lastLine, ← List.reverse_append, List.takeWhile_append_dropWhile, List.reverse_reverse,
      List.takeWhile_append_dropWhile]
  oneLine := by
    rw [List.mem_append, lastLine, List.mem_reverse]
    rintro (inHead | inTail)
    · simpa using List.mem_takeWhile_imp inHead
    · simpa using List.mem_takeWhile_imp inTail
  starts := by
    intro c last
    rw [List.getLast?_reverse] at last
    simpa using Piece.nextFails_dropWhile (· ≠ '\n') _ c last
  ends := by
    intro c first
    simpa using Piece.nextFails_dropWhile (· ≠ '\n') back c first

theorem exists_of_append
    {front back : List Char}
    (split : text = front ++ back) :
    ∃ place : Place text, place.before = front := by
  subst split
  refine ⟨between front back, ?_⟩
  change (front.reverse.dropWhile (· ≠ '\n')).reverse ++ lastLine front = front
  rw [lastLine, ← List.reverse_append, List.takeWhile_append_dropWhile, List.reverse_reverse]

/-- A place is known from its offset. -/
theorem before_eq_of_offset_eq
    {place other : Place text}
    (same : place.offset = other.offset) :
    place.before = other.before :=
  (append_inj_of_byteLength (place.whole.trans other.whole.symm) same).1

/-- The line of a place begins behind the last newline. -/
theorem lastLine_before (place : Place text) : lastLine place.before = place.head := by
  have noNewline : ∀ c ∈ place.head.reverse, decide (c ≠ '\n') = true := by
    intro c member
    have inLine : c ∈ place.head ++ place.tail :=
      List.mem_append_left _ (List.mem_reverse.1 member)
    exact decide_eq_true fun newline => place.oneLine (newline ▸ inLine)
  have stops : Piece.NextFails (· ≠ '\n') place.earlier.reverse := by
    intro c first
    rw [List.head?_reverse] at first
    simpa using place.starts c first
  rw [lastLine, before, List.reverse_append, stops.takeWhile_append noNewline, List.reverse_reverse]

theorem offset_le (place : Place text) : place.offset ≤ byteLength text := by
  have whole := congrArg byteLength place.whole
  rw [byteLength_append] at whole
  unfold offset before
  omega

theorem column_le (place : Place text) : place.column ≤ byteLength text + 1 := by
  have inside := place.offset_le
  unfold offset before at inside
  rw [byteLength_append] at inside
  unfold column
  omega

/-- A place of a string is a position between two of its characters. -/
theorem isValid_offset
    {source : String}
    (place : Place source.toList) :
    String.Pos.Raw.IsValid source ⟨place.offset⟩ := by
  rw [String.Pos.Raw.isValid_iff_exists_append]
  refine ⟨.ofList place.before, .ofList (place.tail ++ place.later), ?_, ?_⟩
  · apply String.toList_injective
    rw [String.toList_append, String.toList_ofList, String.toList_ofList]
    exact place.whole.symm
  · ext
    have size := byteLength_toList (.ofList place.before)
    rw [String.toList_ofList] at size
    exact size

end Place

/-! ## Lines by their numbers -/

theorem linesFrom_append
    {front : List Char}
    (noNewline : '\n' ∉ front)
    (current back : List Char) :
    linesFrom current (front ++ back) = linesFrom (front.reverse ++ current) back := by
  induction front generalizing current with
  | nil => rfl
  | cons c front inductionHypothesis =>
      have different : c ≠ '\n' := fun same => noNewline (same ▸ .head _)
      have others : '\n' ∉ front := fun member => noNewline (.tail _ member)
      rw [List.cons_append, linesFrom, if_neg different, inductionHypothesis others,
        List.reverse_cons, List.append_assoc, List.singleton_append]

/-- Every newline ends a line, and what comes after it does not depend on what came before. -/
theorem linesFrom_newline (current front : List Char) :
    ∃ lines : List (List Char), lines.length = 1 + front.count '\n' ∧
      ∀ back, linesFrom current (front ++ '\n' :: back) = lines ++ linesFrom [] back := by
  induction front generalizing current with
  | nil => exact ⟨[withoutReturn current.reverse], rfl, fun back => rfl⟩
  | cons c front inductionHypothesis =>
      by_cases newline : c = '\n'
      · subst newline
        obtain ⟨lines, length, others⟩ := inductionHypothesis []
        refine ⟨withoutReturn current.reverse :: lines, ?_, ?_⟩
        · rw [List.length_cons, length, List.count_cons_self]
          omega
        · intro back
          rw [List.cons_append, linesFrom, if_pos rfl, others, List.cons_append]
      · obtain ⟨lines, length, others⟩ := inductionHypothesis (c :: current)
        refine ⟨lines, ?_, ?_⟩
        · rw [length, List.count_cons_of_ne newline]
        · intro back
          rw [List.cons_append, linesFrom, if_neg newline, others]

/-- A line without the carriage return before its newline is the line or lacks just that. -/
theorem withoutReturn_cases (line : List Char) :
    withoutReturn line = line ∨ withoutReturn line ++ ['\r'] = line := by
  unfold withoutReturn
  split
  · rename_i rest reversed
    right
    rw [← List.reverse_reverse line, reversed, List.reverse_cons]
  · exact .inl rfl

namespace Place

variable {text : List Char}

theorem count_before (place : Place text) :
    place.before.count '\n' = place.earlier.count '\n' := by
  have nothing : place.head.count '\n' = 0 :=
    List.count_eq_zero.2 fun member => place.oneLine (List.mem_append_left _ member)
  rw [before, List.count_append, nothing, Nat.add_zero]

/-- Behind the lines that newlines have ended comes the line of the place. -/
theorem lines_getElem? (place : Place text) :
    (lines text)[place.before.count '\n']? = (linesFrom place.line.reverse place.later)[0]? := by
  have text_eq : text = place.earlier ++ (place.line ++ place.later) := by
    simp [← place.whole, line]
  have oneLine : '\n' ∉ place.line := place.oneLine
  have fromHere : linesFrom [] (place.line ++ place.later) =
      linesFrom place.line.reverse place.later := by
    rw [linesFrom_append oneLine, List.append_nil]
  rw [count_before, lines, congrArg (linesFrom []) text_eq]
  rcases List.eq_nil_or_concat' place.earlier with first | ⟨front, c, ended⟩
  · simp only [first, List.nil_append, fromHere, List.count_nil]
  · obtain rfl : c = '\n' := place.starts c (by simp [ended])
    obtain ⟨former, length, others⟩ := linesFrom_newline [] front
    have count : place.earlier.count '\n' = former.length := by
      rw [ended, length, List.count_append, List.count_singleton_self, Nat.add_comm]
    rw [count, ended, List.append_assoc, List.singleton_append, others, fromHere,
      List.getElem?_append_right (Nat.le_refl _), Nat.sub_self]

end Place
end Text

/-! ## Resolving a span -/

namespace Script

open Text

/-- The line with the number of a place is the line of the place.  There is none only behind
the newline at the end of a text. -/
theorem line?_number
    (script : Script)
    (place : Place script.content.toList) :
    (∀ shown, script.line? place.number = some shown → place.Shows shown) ∧
      (script.line? place.number = none → place.line = [] ∧ place.later = []) := by
  have atIndex : script.line? place.number =
      (linesFrom place.line.reverse place.later)[0]?.map String.ofList := by
    rw [← place.lines_getElem?, Place.number, Nat.add_comm]
    rfl
  rw [atIndex]
  cases after : place.later with
  | nil =>
      by_cases empty : place.line = []
      · simp [empty, linesFrom]
      · have shown : (linesFrom place.line.reverse [])[0]? = some place.line := by
          simp [linesFrom, empty]
        rw [shown]
        refine ⟨?_, nofun⟩
        rintro _ ⟨⟩
        exact .inl (String.toList_ofList ..)
  | cons c rest =>
      obtain rfl : c = '\n' := place.ends c (by simp [after])
      have shown : (linesFrom place.line.reverse ('\n' :: rest))[0]? =
          some (withoutReturn place.line) := by
        simp [linesFrom]
      rw [shown]
      refine ⟨?_, nofun⟩
      rintro _ ⟨⟩
      have nonempty : place.later ≠ [] := by simp [after]
      rw [Place.Shows, String.toList_ofList]
      exact (withoutReturn_cases place.line).imp_right fun lacks => ⟨nonempty, lacks⟩

/-- A span that starts at a place is resolved to the column of the place. -/
theorem locate?_place
    (script : Script)
    (place : Place script.content.toList)
    {span : Span}
    (startsHere : span.start = place.offset) :
    script.locate? span = some ⟨script.name, span.line, place.column⟩ := by
  have inside : min span.start (byteLength script.content.toList) = byteLength place.before := by
    rw [startsHere]
    exact Nat.min_eq_left place.offset_le
  have filled : upTo (byteLength place.before) script.content.toList = some place.before := by
    rw [← congrArg (upTo (byteLength place.before)) place.whole]
    exact upTo_byteLength_append place.before _
  simp only [locate?, inside, filled, Option.map_some, place.lastLine_before]
  rw [Place.column, Nat.add_comm]

end Script

namespace Text

theorem upTo_eq_some
    {offset : Nat}
    {text front : List Char}
    (filled : upTo offset text = some front) :
    byteLength front = offset ∧ ∃ back, text = front ++ back := by
  fun_induction upTo offset text generalizing front with
  | case1 text =>
      cases filled
      exact ⟨rfl, text, rfl⟩
  | case2 => cases filled
  | case3 offset c text fits inductionHypothesis =>
      obtain ⟨rest, restFilled, rfl⟩ := Option.map_eq_some_iff.1 filled
      obtain ⟨length, back, rfl⟩ := inductionHypothesis restFilled
      refine ⟨?_, back, rfl⟩
      rw [byteLength_cons, length]
      omega
  | case4 => cases filled

end Text

open Text in
/-- A span that cuts some characters out of a text starts and stops at places of the text, and
its line is the one on which it stops. -/
theorem Span.Locates.places
    {span : Span}
    {text spelling : List Char}
    (locates : span.Locates text spelling) :
    ∃ start stop : Place text, start.offset = span.start ∧ stop.offset = span.stop ∧
      stop.before = start.before ++ spelling ∧ span.line = stop.number := by
  obtain ⟨slice, before, filled, line⟩ := locates
  unfold slice? at slice
  split at slice
  · rename_i ordered
    obtain ⟨front, frontFilled, middleFilled⟩ := Option.bind_eq_some_iff.1 slice
    obtain ⟨frontLength, rest, rfl⟩ := upTo_eq_some frontFilled
    rw [List.drop_left] at middleFilled
    obtain ⟨length, back, rfl⟩ := upTo_eq_some middleFilled
    have wholeLength : byteLength (front ++ spelling) = span.stop := by
      rw [byteLength_append, frontLength, length]
      omega
    have again := upTo_byteLength_append (front ++ spelling) back
    rw [List.append_assoc, wholeLength, filled] at again
    obtain rfl : before = front ++ spelling := Option.some.inj again
    obtain ⟨start, startsHere⟩ := Place.exists_of_append (rfl : _ = front ++ (spelling ++ back))
    obtain ⟨stop, stopsHere⟩ := Place.exists_of_append (List.append_assoc front spelling back).symm
    refine ⟨start, stop, ?_, ?_, ?_, ?_⟩
    · rw [Place.offset, startsHere, frontLength]
    · rw [Place.offset, stopsHere, wholeLength]
    · rw [startsHere, stopsHere]
    · rw [Place.number, stopsHere, line]
  · cases slice

end ScalarScript
