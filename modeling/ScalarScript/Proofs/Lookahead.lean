import ScalarScript.Proofs.Reading

/-!
# One token of look-ahead

No step of a reading sees more than the tokens taken so far and the one that comes next.  A reading
is therefore the same on all lists that agree up to there, and where it is stuck, what was taken can
still be completed to a phrase.
-/

namespace ScalarScript

/-- What comes next is the same in front of any tokens that are put before. -/
theorem lookahead_append
    {final other : Token}
    {rest others : List Token}
    (same : lookahead other others = lookahead final rest)
    (front : List Token) :
    lookahead other (front ++ others) = lookahead final (front ++ rest) := by
  cases front with
  | nil => exact same
  | cons token more => rfl

theorem head?_eq_of_lookahead
    {final other : Token}
    {rest others : List Token}
    (same : lookahead other others = lookahead final rest) :
    others.head? = rest.head? := by
  cases rest <;> cases others <;> simp_all [lookahead, nextToken]

/-! ## Phrases -/

/-- Tokens that begin with a phrase, and what the phrase leaves. -/
abbrev Forms := List Token → List Token → Prop

namespace Forms

/-- The phrase without tokens. -/
def nothing : Forms :=
  fun tokens rest => tokens = rest

/-- One phrase and then another. -/
def andThen (first second : Forms) : Forms :=
  fun tokens rest => ∃ middle, first tokens middle ∧ second middle rest

/-- One phrase or another. -/
def either (first second : Forms) : Forms :=
  fun tokens rest => first tokens rest ∨ second tokens rest

/-- A token whose kind passes a test. -/
def passing (test : Token.Kind → Bool) : Forms :=
  fun tokens rest => ∃ token, test token.kind = true ∧ tokens = token :: rest

/-- A token of a kind. -/
def ofKind (kind : Token.Kind) : Forms :=
  fun tokens rest => ∃ token, token.kind = kind ∧ tokens = token :: rest

/-- A name. -/
def named : Forms :=
  fun tokens rest => ∃ token name, token.name? = some name ∧ tokens = token :: rest

/-- Some tokens are such a phrase, whatever follows. -/
class Starts (forms : Forms) : Prop where
  starts : ∃ more, ∀ rest, forms (more ++ rest) rest

instance : Starts nothing :=
  ⟨[], fun _ => rfl⟩

instance (kind : Token.Kind) : Starts (passing (· = kind)) :=
  ⟨[⟨kind, none, .zero⟩], fun _ => ⟨_, by simp, rfl⟩⟩

instance (kind : Token.Kind) : Starts (ofKind kind) :=
  ⟨[⟨kind, none, .zero⟩], fun _ => ⟨_, rfl, rfl⟩⟩

instance : Starts named :=
  ⟨[⟨.identifier, some (.text ""), .zero⟩], fun _ => ⟨_, "", rfl, rfl⟩⟩

instance {first second : Forms} [firstStarts : Starts first] [secondStarts : Starts second] :
    Starts (first.andThen second) := by
  obtain ⟨front, isFirst⟩ := firstStarts
  obtain ⟨back, isSecond⟩ := secondStarts
  refine ⟨front ++ back, fun rest => ⟨back ++ rest, ?_, isSecond rest⟩⟩
  rw [List.append_assoc]
  exact isFirst (back ++ rest)

instance {first second : Forms} [firstStarts : Starts first] : Starts (first.either second) := by
  obtain ⟨front, isFirst⟩ := firstStarts
  exact ⟨front, fun rest => .inl (isFirst rest)⟩

end Forms

/-! ## Predictive readings -/

/-- What a reading gives for tokens depends on what it took and on the token that comes next.  What
it took is a phrase; if it is stuck, then this can be completed to one. -/
structure Reading.PredictiveAt
    {α : Type}
    (reading : Reading α)
    (forms : Forms)
    (final : Token)
    (tokens : List Token) : Prop where
  read : ∀ value rest, reading final tokens = .ok (value, rest) →
    ∃ front, tokens = front ++ rest ∧ (∀ others, forms (front ++ others) others) ∧
      ∀ other others, lookahead other others = lookahead final rest →
        reading other (front ++ others) = .ok (value, others)
  stuck : ∀ what found, reading final tokens = .error (.expected what found) →
    ∃ front back, tokens = front ++ back ∧ nextToken final back = found ∧
      (∃ more, ∀ others, forms (front ++ (more ++ others)) others) ∧
      ∀ other others, lookahead other others = lookahead final back →
        reading other (front ++ others) = .error (.expected what found)

namespace Reading

variable {α β : Type}

/-- A reading is predictive on lists of at most `bound` tokens. -/
def Predictive (reading : Reading α) (forms : Forms) (final : Token) (bound : Nat) : Prop :=
  ∀ tokens, tokens.length ≤ bound → PredictiveAt reading forms final tokens

variable {forms : Forms} {final : Token} {bound : Nat}

/-- It is enough that another reading agrees wherever the same token comes next. -/
theorem PredictiveAt.congr
    {tokens : List Token}
    {reading other : Reading α}
    (predictive : PredictiveAt reading forms final tokens)
    (agrees : ∀ final' tokens', lookahead final' tokens' = lookahead final tokens →
      other final' tokens' = reading final' tokens') :
    PredictiveAt other forms final tokens where
  read := by
    intro value rest read
    rw [agrees final tokens rfl] at read
    obtain ⟨front, rfl, isPhrase, again⟩ := predictive.read value rest read
    refine ⟨front, rfl, isPhrase, fun final' others same => ?_⟩
    rw [agrees final' _ (lookahead_append same front)]
    exact again final' others same
  stuck := by
    intro what found stuck
    rw [agrees final tokens rfl] at stuck
    obtain ⟨front, back, rfl, isFound, completes, again⟩ := predictive.stuck what found stuck
    refine ⟨front, back, rfl, isFound, completes, fun final' others same => ?_⟩
    rw [agrees final' _ (lookahead_append same front)]
    exact again final' others same

/-- A reading that is predictive for some phrases is so for more phrases. -/
theorem Predictive.mono
    {reading : Reading α}
    {others : Forms}
    (predictive : Predictive reading forms final bound)
    (implies : ∀ tokens rest, forms tokens rest → others tokens rest) :
    Predictive reading others final bound := by
  intro tokens within
  constructor
  · intro value rest read
    obtain ⟨front, isTokens, isPhrase, again⟩ := (predictive tokens within).read value rest read
    exact ⟨front, isTokens, fun others => implies _ _ (isPhrase others), again⟩
  · intro what found stuck
    obtain ⟨front, back, isTokens, isFound, ⟨more, completes⟩, again⟩ :=
      (predictive tokens within).stuck what found stuck
    exact ⟨front, back, isTokens, isFound, ⟨more, fun others => implies _ _ (completes others)⟩,
      again⟩

theorem predictive_done (value : α) : Predictive (done value) .nothing final bound := by
  intro tokens _
  constructor
  · rintro _ _ ⟨⟩
    exact ⟨[], rfl, fun _ => rfl, fun other others _ => rfl⟩
  · rintro _ _ ⟨⟩

/-- A failure that expects no token is never stuck. -/
theorem predictive_fail
    {error : ParseError}
    (noExpectation : ∀ what found, error ≠ .expected what found) :
    Predictive (fail error : Reading α) forms final bound := by
  intro tokens _
  constructor
  · rintro _ _ ⟨⟩
  · rintro what found ⟨⟩
    exact absurd rfl (noExpectation what found)

/-- A reading that is stuck at once has taken nothing, which every phrase starts with. -/
theorem predictive_miss [starts : forms.Starts] (what : Expectation) :
    Predictive (miss what : Reading α) forms final bound := by
  intro tokens _
  constructor
  · rintro _ _ ⟨⟩
  · rintro _ _ ⟨⟩
    refine ⟨[], tokens, rfl, rfl, starts.starts, fun other others same => ?_⟩
    have sameNext : nextToken other others = nextToken final tokens := congrArg Prod.snd same
    simp only [miss, List.nil_append, sameNext]

/-- Taking a token is predictive for the phrases of one token. -/
theorem predictive_accept
    {accepted : Token → Option α}
    [starts : forms.Starts]
    (what : Expectation)
    (forms_cons : ∀ token value, accepted token = some value →
      ∀ others, forms (token :: others) others) :
    Predictive (accept accepted what) forms final bound := by
  intro tokens _
  cases isAccepted : tokens.head?.bind accepted with
  | none =>
      -- nothing is taken, here and wherever the same token comes next
      apply (predictive_miss what tokens (Nat.le_refl tokens.length)).congr
      intro final' tokens' same
      simp only [accept, head?_eq_of_lookahead same, isAccepted]
  | some made =>
      obtain ⟨token, isHead, makes⟩ := Option.bind_eq_some_iff.1 isAccepted
      obtain ⟨more, rfl⟩ := List.head?_eq_some_iff.1 isHead
      constructor
      · intro value rest read
        simp only [accept, isAccepted] at read
        cases read
        refine ⟨[token], rfl, forms_cons token made makes, fun other others _ => ?_⟩
        simp [accept, makes]
      · intro what' found stuck
        simp [accept, makes] at stuck

/-- A choice by what comes next is predictive for the phrases of both sides. -/
theorem Predictive.choose
    {test : Bool × Token → Bool}
    {yes no : Reading α}
    {others : Forms}
    (onYes : Predictive yes forms final bound)
    (onNo : Predictive no others final bound) :
    Predictive (choose test yes no) (forms.either others) final bound := by
  intro tokens within
  by_cases holds : test (lookahead final tokens) = true
  · apply (onYes.mono (fun _ _ => .inl) tokens within).congr
    intro final' tokens' same
    rw [Reading.choose, same, if_pos holds]
  · apply (onNo.mono (fun _ _ => .inr) tokens within).congr
    intro final' tokens' same
    rw [Reading.choose, same, if_neg holds]

/-- Readings one after another are predictive for phrases one after another; stuck in the first, its
phrase is completed and followed by one of the second. -/
theorem PredictiveAt.andThen
    {tokens : List Token}
    {reading : Reading α}
    {next : α → Reading β}
    {others : Forms}
    [starts : others.Starts]
    (first : PredictiveAt reading forms final tokens)
    (second : ∀ value rest, reading final tokens = .ok (value, rest) →
      PredictiveAt (next value) others final rest) :
    PredictiveAt (reading.andThen next) (forms.andThen others) final tokens where
  read := by
    intro value rest read
    cases isFirst : reading final tokens with
    | error error => simp [Reading.andThen, isFirst] at read
    | ok pair =>
        obtain ⟨made, middle⟩ := pair
        simp only [Reading.andThen, isFirst] at read
        obtain ⟨front, rfl, isPhrase, again⟩ := first.read made middle isFirst
        obtain ⟨back, rfl, isPhrase', again'⟩ := (second made _ isFirst).read value rest read
        refine ⟨front ++ back, by simp, fun others => ⟨back ++ others, ?_, isPhrase' others⟩,
          fun other others same => ?_⟩
        · rw [List.append_assoc]
          exact isPhrase (back ++ others)
        · rw [List.append_assoc, Reading.andThen, again other _ (lookahead_append same back)]
          exact again' other others same
  stuck := by
    intro what found stuck
    cases isFirst : reading final tokens with
    | error error =>
        -- the first phrase is completed, and the second is added to it
        simp only [Reading.andThen, isFirst] at stuck
        cases stuck
        obtain ⟨front, back, rfl, isFound, ⟨more, completes⟩, again⟩ :=
          first.stuck what found isFirst
        obtain ⟨more', completes'⟩ := starts.starts
        refine ⟨front, back, rfl, isFound,
          ⟨more ++ more', fun others => ⟨more' ++ others, ?_, completes' others⟩⟩,
          fun other others same => ?_⟩
        · rw [List.append_assoc]
          exact completes (more' ++ others)
        · rw [Reading.andThen, again other others same]
    | ok pair =>
        obtain ⟨made, middle⟩ := pair
        simp only [Reading.andThen, isFirst] at stuck
        obtain ⟨front, rfl, isPhrase, again⟩ := first.read made middle isFirst
        obtain ⟨front', back, rfl, isFound, ⟨more, completes⟩, again'⟩ :=
          (second made _ isFirst).stuck what found stuck
        refine ⟨front ++ front', back, by simp, isFound,
          ⟨more, fun others => ⟨front' ++ (more ++ others), ?_, completes others⟩⟩,
          fun other others same => ?_⟩
        · rw [List.append_assoc]
          exact isPhrase (front' ++ (more ++ others))
        · rw [List.append_assoc, Reading.andThen, again other _ (lookahead_append same front')]
          exact again' other others same

/-- After a reading that takes something, fewer tokens are left. -/
theorem Predictive.andThen
    {reading : Reading α}
    {next : α → Reading β}
    {others : Forms}
    [starts : others.Starts]
    (first : Predictive reading forms final bound)
    (eats : reading.Eats)
    (second : ∀ value, ∀ smaller < bound, Predictive (next value) others final smaller) :
    Predictive (reading.andThen next) (forms.andThen others) final bound := by
  intro tokens within
  apply (first tokens within).andThen
  intro value rest read
  have shorter := eats final tokens value rest read
  exact second value rest.length (by omega) rest (Nat.le_refl _)

/-- A reading that may take nothing is followed by one for as many tokens. -/
theorem Predictive.andStill
    {reading : Reading α}
    {next : α → Reading β}
    {others : Forms}
    [starts : others.Starts]
    (first : Predictive reading forms final bound)
    (second : ∀ value, Predictive (next value) others final bound) :
    Predictive (reading.andThen next) (forms.andThen others) final bound := by
  intro tokens within
  apply (first tokens within).andThen
  intro value rest read
  obtain ⟨front, rfl, _⟩ := (first tokens within).read value rest read
  rw [List.length_append] at within
  exact second value rest (by omega)

/-! ## Tokens -/

theorem predictive_takeIf
    {final : Token}
    {bound : Nat}
    (test : Token.Kind → Bool)
    [starts : (Forms.passing test).Starts]
    (what : Expectation) :
    Predictive (takeIf test what) (.passing test) final bound := by
  apply predictive_accept
  intro token value accepted others
  split at accepted
  · rename_i passes
    exact ⟨token, passes, rfl⟩
  · cases accepted

/-- Taking a token of a kind is predictive for that kind. -/
theorem predictive_ofKind
    {final : Token}
    {bound : Nat}
    (kind : Token.Kind)
    (what : Expectation) :
    Predictive (ofKind kind what) (.ofKind kind) final bound := by
  apply (predictive_takeIf _ what).mono
  rintro tokens rest ⟨token, isKind, rfl⟩
  exact ⟨token, by simpa using isKind, rfl⟩

/-- Taking a name is predictive for names. -/
theorem predictive_named
    {final : Token}
    {bound : Nat}
    (what : Expectation) :
    Predictive (named what) .named final bound := by
  apply predictive_accept
  intro token value isName others
  obtain ⟨name, carries, _⟩ := Option.map_eq_some_iff.1 isName
  exact ⟨token, name, carries, rfl⟩

end Reading
end ScalarScript
