import ScalarScript.Proofs.Layers
import ScalarScript.Proofs.ReaderSteps

/-!
# Climbing precedences

An expression can be read in one pass, without a list of its operands: read an operand, and then, as
long as an operator comes that binds at least as tightly as a given level, join it to the operand on
its left.  Its right operand is read in the same way, at a higher level, when an operator follows
that binds more tightly.  Climbing reads the operands in the order in which they stand, as
`Expr.readLinks` does, and groups them into the tree that `Chain.tree` finds with its stack.
-/

namespace ScalarScript

/-- The kind is that of an operator that binds at least as tightly as `level`. -/
def Token.Kind.reaches (level : Nat) (kind : Token.Kind) : Bool :=
  kind.precedence?.any (level ≤ ·)

namespace Expr

/-- Behind a right operand there is no more than behind its first operand. -/
theorem length_le_of_read
    {bound : Nat}
    (operand : Parsed Expr bound)
    (right : Parsed Expr (operand.rest.length + 1)) :
    right.rest.length + 1 ≤ bound + 1 + 1 := by
  have first := operand.fewer
  have second := right.fewer
  omega

/-- Reads operators that bind at least as tightly as `level`, with their right operands, and joins
them to what stands on their left. -/
def climb (final : Token) (level : Nat) (left : Expr) (tokens : List Token) :
    Except ParseError (Parsed Expr (tokens.length + 1)) :=
  match tokens with
  | [] => .ok ⟨left, [], Nat.lt_succ_self _⟩
  | op :: rest =>
      if op.kind.reaches level then
        match readPrimary final rest with
        | .error error => .error error
        | .ok operand =>
            have := operand.fewer
            let tighter := Chain.binding op + 1
            -- the operand belongs to an operator behind it that binds more tightly
            let inner : Except ParseError (Parsed Expr (operand.rest.length + 1)) :=
              if operand.rest.head?.any (·.kind.reaches tighter) then
                climb final tighter operand.value operand.rest
              else
                .ok ⟨operand.value, operand.rest, Nat.lt_succ_self _⟩
            match inner with
            | .error error => .error error
            | .ok right =>
                have := right.fewer
                match climb final level (Chain.join op left right.value) right.rest with
                | .error error => .error error
                | .ok whole => .ok (whole.widen (length_le_of_read operand right))
      else
        .ok ⟨left, op :: rest, Nat.lt_succ_self _⟩
termination_by tokens.length
decreasing_by
  all_goals simp only [List.length_cons]
  all_goals omega

/-- Reads an expression by climbing from the lowest level. -/
def climbExpr (final : Token) (tokens : List Token) :
    Except ParseError (Parsed Expr tokens.length) :=
  match readPrimary final tokens with
  | .error error => .error error
  | .ok first =>
      match climb final 0 first.value first.rest with
      | .error error => .error error
      | .ok whole => .ok (whole.widen first.fewer)

end Expr

namespace Reading

open Token.Kind (reaches)

/-- Climbs from what stands on the left. -/
def climbing (level : Nat) (left : Expr) : Reading Expr :=
  fun final tokens => (Expr.climb final level left tokens).map Parsed.pair

/-- Reads what belongs to the right operand of an operator besides its first operand. -/
def tightening (op : Token) (operand : Expr) : Reading Expr :=
  choose (nextIs (reaches (Chain.binding op + 1)))
    (climbing (Chain.binding op + 1) operand)
    (done operand)

section Steps

attribute [local simp] choose andThen accept takeIf done tightening Except.map Parsed.pair
  Parsed.widen

/-- The loop step by step. -/
theorem climbing_eq (level : Nat) (left : Expr) :
    climbing level left =
      choose (nextIs (reaches level))
        ((takeIf (reaches level) .expression).andThen fun op =>
          primary.andThen fun operand =>
            (tightening op operand).andThen fun right => climbing level (Chain.join op left right))
        (done left) := by
  funext final tokens
  cases tokens with
  | nil => simp [climbing, Expr.climb]
  | cons op rest =>
      rw [climbing, Expr.climb]
      by_cases passes : op.kind.reaches level = true
      · cases operand : Expr.readPrimary final rest with
        | error error => simp [passes, operand, primary]
        | ok read =>
            have next : nextIs (reaches (Chain.binding op + 1)) (lookahead final read.rest) =
                read.rest.head?.any (·.kind.reaches (Chain.binding op + 1)) := by
              cases read.rest <;> simp
            by_cases tighter : read.rest.head?.any (·.kind.reaches (Chain.binding op + 1)) = true
            · cases inner : Expr.climb final (Chain.binding op + 1) read.value read.rest with
              | error error => simp [passes, operand, primary, next, tighter, climbing, inner]
              | ok right =>
                  cases whole : Expr.climb final level (Chain.join op left right.value)
                      right.rest with
                  | error error =>
                      simp [passes, operand, primary, next, tighter, climbing, inner, whole]
                  | ok made =>
                      simp [passes, operand, primary, next, tighter, climbing, inner, whole]
            · cases whole : Expr.climb final level (Chain.join op left read.value) read.rest with
              | error error => simp [passes, operand, primary, next, tighter, climbing, whole]
              | ok made => simp [passes, operand, primary, next, tighter, climbing, whole]
      · simp [passes]

end Steps

/-- Climbing stops at once where no operator comes that binds tightly enough. -/
theorem climbing_of_avoids
    {level : Nat}
    {tokens : List Token}
    (avoids : NextAvoids (reaches level · = true) tokens)
    (left : Expr)
    (final : Token) :
    climbing level left final tokens = .ok (left, tokens) := by
  rw [climbing_eq, choose, nextIs_eq_false_iff.2 avoids]
  rfl

/-- Looking for a tighter operator first changes nothing: climbing stops at once without one. -/
theorem tightening_eq_climbing (op : Token) (operand : Expr) :
    tightening op operand = climbing (Chain.binding op + 1) operand := by
  funext final tokens
  unfold tightening choose
  cases next : nextIs (reaches (Chain.binding op + 1)) (lookahead final tokens) with
  | true => rfl
  | false => exact (climbing_of_avoids (nextIs_eq_false_iff.1 next) operand final).symm

/-- An operator that binds tightly enough is joined to its right operand, and climbing goes on. -/
theorem climbing_cons
    {level : Nat}
    {op : Token}
    (passes : op.kind.reaches level = true)
    (left : Expr)
    (final : Token)
    (rest : List Token) :
    climbing level left final (op :: rest) =
      (primary.andThen fun operand =>
        (climbing (Chain.binding op + 1) operand).andThen fun right =>
          climbing level (Chain.join op left right)) final rest := by
  rw [climbing_eq]
  simp [choose, takeIf, accept, andThen, passes, tightening_eq_climbing]

/-- Climbing leaves no more tokens than it was given. -/
theorem climbing_length
    {level : Nat}
    {left operand : Expr}
    {final : Token}
    {tokens rest : List Token}
    (read : climbing level left final tokens = .ok (operand, rest)) :
    rest.length ≤ tokens.length := by
  unfold climbing at read
  cases result : Expr.climb final level left tokens with
  | error error => simp [result, Except.map] at read
  | ok parsed =>
      simp only [result, Except.map, Except.ok.injEq] at read
      cases read
      exact Nat.le_of_lt_succ parsed.fewer

/-! ## What climbing reads and groups -/

/-- Links that were read in front of others. -/
def inFront (front : List (Token × Expr)) :
    Except ParseError (List (Token × Expr) × List Token) →
      Except ParseError (List (Token × Expr) × List Token) :=
  Except.map fun read => (front ++ read.1, read.2)

/-- The links fail with the operand behind their first operator. -/
theorem links_cons_of_failed
    {op final : Token}
    (joins : op.kind.precedence?.isSome = true)
    {rest : List Token}
    {error : ParseError}
    (failed : primary final rest = .error error) :
    links final (op :: rest) = .error error := by
  rw [links_eq]
  simp [choose, takeIf, accept, andThen, joins, failed]

/-- The first link is read in front of the others. -/
theorem links_cons_of_read
    {op final : Token}
    (joins : op.kind.precedence?.isSome = true)
    {rest after : List Token}
    {operand : Expr}
    (read : primary final rest = .ok (operand, after)) :
    links final (op :: rest) = inFront [(op, operand)] (links final after) := by
  have steps := congrFun (congrFun links_eq final) (op :: rest)
  rw [steps]
  simp only [choose, nextIs_cons, joins, if_true, takeIf, accept, List.head?_cons,
    Option.bind_some, List.tail_cons, andThen, read]
  cases links final after <;> rfl

/-- An operator that reaches a level binds at least as tightly. -/
theorem precedence?_of_reaches
    {level : Nat}
    {op : Token}
    (passes : op.kind.reaches level = true) :
    op.kind.precedence?.isSome = true ∧ level ≤ Chain.binding op := by
  unfold reaches at passes
  unfold Chain.binding
  cases precedence : op.kind.precedence? with
  | none => simp [precedence] at passes
  | some strength => simpa [precedence] using passes

/-- An operator that does not reach a level binds less tightly. -/
theorem binding_lt_of_not_reaches
    {level : Nat}
    (positive : 0 < level)
    {op : Token}
    (stops : ¬op.kind.reaches level = true) :
    Chain.binding op < level := by
  unfold reaches at stops
  unfold Chain.binding
  cases precedence : op.kind.precedence? with
  | none => simpa using positive
  | some strength => simpa [precedence] using stops

/-- Climbing from `left` takes some links off the front of the tokens and groups them with `left`
into an operand, on any stack of operators that bind less than `level`. -/
structure Climbs
    (final : Token)
    (level : Nat)
    (left : Expr)
    (tokens : List Token)
    (operand : Expr)
    (rest : List Token)
    (taken : List (Token × Expr)) : Prop where
  reads : links final tokens = inFront taken (links final rest)
  starts : ∀ link ∈ taken.head?, tokens.head? = some link.1
  stops : NextAvoids (reaches level · = true) rest
  unread : taken = [] → rest = tokens
  groups : ∀ waiting others,
    (∀ pair ∈ waiting.head?, Chain.binding pair.2 < level) →
    (∀ link ∈ others.head?, rest.head? = some link.1) →
      Chain.group waiting left (taken ++ others) = Chain.group waiting operand others

namespace Climbs

variable {final : Token} {level : Nat} {left : Expr} {tokens : List Token}

/-- Where no operator comes that binds tightly enough, nothing is taken. -/
theorem refl
    (final : Token)
    (left : Expr)
    (stops : NextAvoids (reaches level · = true) tokens) :
    Climbs final level left tokens left tokens [] where
  reads := by
    unfold inFront
    cases links final tokens <;> rfl
  starts := nofun
  stops := stops
  unread := fun _ => rfl
  groups := fun _ _ _ _ => rfl

/-- An operator with its right operand, and then what climbing goes on with. -/
theorem cons
    {op : Token}
    (passes : op.kind.reaches level = true)
    {more after middle rest : List Token}
    {first right operand : Expr}
    {inner outer : List (Token × Expr)}
    (read : primary final more = .ok (first, after))
    (innerClimbs : Climbs final (Chain.binding op + 1) first after right middle inner)
    (outerClimbs : Climbs final level (Chain.join op left right) middle operand rest outer) :
    Climbs final level left (op :: more) operand rest ((op, first) :: (inner ++ outer)) where
  reads := by
    rw [links_cons_of_read (precedence?_of_reaches passes).1 read, innerClimbs.reads,
      outerClimbs.reads]
    unfold inFront
    cases links final rest <;> simp [Except.map]
  starts := by
    rintro _ ⟨⟩
    rfl
  stops := outerClimbs.stops
  unread := nofun
  groups := by
    intro waiting others looser follows
    have binds := (precedence?_of_reaches passes).2
    -- whatever comes behind the right operand begins with the token that stopped the inner climb
    have next : ∀ link ∈ (outer ++ others).head?, middle.head? = some link.1 := by
      cases outer with
      | nil =>
          rw [← outerClimbs.unread rfl]
          exact follows
      | cons link outer => exact outerClimbs.starts
    have looserNext : ∀ link ∈ (outer ++ others).head?,
        Chain.binding link.1 ≤ Chain.binding op := by
      intro link isLink
      have stops := innerClimbs.stops link.1 (next link isLink)
      exact Nat.le_of_lt_succ (binding_lt_of_not_reaches (Nat.succ_pos _) stops)
    have waits : ∀ pair ∈ waiting.head?, Chain.binding pair.2 < Chain.binding op :=
      fun pair isPair => Nat.lt_of_lt_of_le (looser pair isPair) binds
    calc Chain.group waiting left ((op, first) :: (inner ++ outer) ++ others)
        = Chain.group ((left, op) :: waiting) first (inner ++ (outer ++ others)) := by
          rw [List.cons_append, List.append_assoc]
          simp only [Chain.group, Layered.settle_of_lt waits]
      _ = Chain.group ((left, op) :: waiting) right (outer ++ others) := by
          refine innerClimbs.groups _ _ ?_ next
          rintro _ ⟨⟩
          exact Nat.lt_succ_self _
      _ = Chain.group waiting (Chain.join op left right) (outer ++ others) :=
          Layered.group_join left right waiting looserNext
      _ = Chain.group waiting operand others := outerClimbs.groups waiting others looser follows

end Climbs

/-- Climbing and the reading of links fail in the same way, or climbing takes the first links. -/
theorem climbing_climbs
    (final : Token)
    (level : Nat)
    (left : Expr)
    (tokens : List Token) :
    (∃ error, climbing level left final tokens = .error error ∧
      links final tokens = .error error) ∨
      ∃ operand rest taken, climbing level left final tokens = .ok (operand, rest) ∧
        Climbs final level left tokens operand rest taken := by
  induction bound : tokens.length using Nat.strongRecOn generalizing level left tokens with
  | _ bound smaller =>
      subst bound
      by_cases avoids : NextAvoids (reaches level · = true) tokens
      · exact .inr ⟨left, tokens, [], climbing_of_avoids avoids left final, .refl final left avoids⟩
      · obtain ⟨op, more, rfl, passes⟩ : ∃ op more, tokens = op :: more ∧
            op.kind.reaches level = true := by
          cases tokens with
          | nil => exact absurd (nextAvoids_nil _) avoids
          | cons op more => exact ⟨op, more, rfl, by simpa using avoids⟩
        have joins := (precedence?_of_reaches passes).1
        rw [climbing_cons passes]
        cases read : primary final more with
        | error error =>
            exact .inl ⟨error, by simp [andThen, read], links_cons_of_failed joins read⟩
        | ok pair =>
            obtain ⟨first, after⟩ := pair
            have shorter := primary_eats final more first after read
            simp only [andThen, read]
            rw [links_cons_of_read joins read]
            rcases smaller after.length (Nat.lt_succ_of_lt shorter) (Chain.binding op + 1) first
              after rfl with ⟨error, failed, linksFailed⟩ | ⟨right, middle, taken, climbed, inner⟩
            · exact .inl ⟨error, by simp [failed], by simp [linksFailed, inFront, Except.map]⟩
            · simp only [climbed]
              have shorterStill := climbing_length climbed
              have less : middle.length < (op :: more).length := by
                simp only [List.length_cons]
                omega
              rcases smaller middle.length less level (Chain.join op left right) middle rfl with
                ⟨error, failed, linksFailed⟩ | ⟨operand, rest, others, goesOn, outer⟩
              · refine .inl ⟨error, failed, ?_⟩
                rw [inner.reads, linksFailed]
                rfl
              · exact .inr ⟨operand, rest, _, goesOn, .cons passes read inner outer⟩

/-- Climbing from the lowest level takes all links and gives the tree of the chain. -/
theorem climbing_zero
    (left : Expr)
    (final : Token)
    (tokens : List Token) :
    climbing 0 left final tokens =
      (links.andThen fun others => done (Chain.tree ⟨left, others⟩)) final tokens := by
  rcases climbing_climbs final 0 left tokens with ⟨error, failed, linksFailed⟩ |
    ⟨operand, rest, taken, climbed, climbs⟩
  · simp [failed, andThen, linksFailed]
  · have noOperator : NextAvoids (·.precedence?.isSome = true) rest := by
      intro next isNext joins
      refine climbs.stops next isNext ?_
      obtain ⟨strength, isStrength⟩ := Option.isSome_iff_exists.1 joins
      simp [reaches, isStrength]
    have nothing : links final rest = .ok ([], rest) := by
      rw [links_eq, choose, nextIs_eq_false_iff.2 noOperator]
      rfl
    have grouped : Chain.group [] left (taken ++ []) = operand := climbs.groups [] [] nofun nofun
    rw [List.append_nil] at grouped
    simp [climbed, andThen, climbs.reads, nothing, inFront, Except.map, done, Chain.tree, grouped]

end Reading

/-- A result of a reader is determined by the value read and the tokens left. -/
theorem Parsed.map_pair_injective
    {α : Type}
    {bound : Nat}
    {one other : Except ParseError (Parsed α bound)}
    (same : one.map Parsed.pair = other.map Parsed.pair) :
    one = other := by
  cases one with
  | error error =>
      cases other with
      | error _ => simpa [Except.map] using same
      | ok _ => simp [Except.map] at same
  | ok read =>
      cases other with
      | error _ => simp [Except.map] at same
      | ok _ =>
          obtain ⟨value, rest, fewer⟩ := read
          simp only [Except.map, Parsed.pair, Except.ok.injEq, Prod.mk.injEq] at same
          obtain ⟨rfl, rfl⟩ := same
          rfl

namespace Expr

open Reading

/-- **Climbing reads the same expressions.**  It fails where reading operands into a chain fails,
for the same reason, and otherwise leaves the same tokens and gives the tree of the chain. -/
theorem climbExpr_eq_readExpr (final : Token) (tokens : List Token) :
    climbExpr final tokens = readExpr final tokens := by
  refine Parsed.map_pair_injective ?_
  change _ = expression final tokens
  rw [expression_eq]
  unfold climbExpr
  cases first : readPrimary final tokens with
  | error error => simp [andThen, primary, first, Except.map]
  | ok read =>
      have whole := climbing_zero read.value final read.rest
      unfold climbing at whole
      simp only [andThen, primary, first, Except.map, Parsed.pair] at whole ⊢
      rw [← whole]
      cases climb final 0 read.value read.rest <;> rfl

end Expr
end ScalarScript
