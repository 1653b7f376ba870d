import ScalarScript.Tree.Parse

/-!
# Readings

A reading makes something of the tokens in front of it, or fails.  All readers of the parser are put
together from the few readings of this module: take a token, look at the one that comes next, read
one thing and then another.  What is true of readers is proved for these, with one lemma for each;
here it is when a reading succeeds.
-/

namespace ScalarScript

/-- What is read from tokens that are followed by a mark of the end of input, and what is left. -/
abbrev Reading (α : Type) := Token → List Token → Except ParseError (α × List Token)

/-- Whether the tokens have run out, and the token that comes next. -/
def lookahead (final : Token) (tokens : List Token) : Bool × Token :=
  (tokens.isEmpty, nextToken final tokens)

/-- The next token, if there is one, does not satisfy a condition. -/
def NextAvoids (avoided : Token.Kind → Prop) (tokens : List Token) : Prop :=
  ∀ next ∈ tokens.head?, ¬avoided next.kind

@[simp] theorem nextAvoids_nil (avoided : Token.Kind → Prop) : NextAvoids avoided [] := by
  simp [NextAvoids]

@[simp] theorem nextAvoids_cons
    (avoided : Token.Kind → Prop)
    (token : Token)
    (tokens : List Token) :
    NextAvoids avoided (token :: tokens) ↔ ¬avoided token.kind := by
  simp [NextAvoids]

/-- A name is the text of an identifier. -/
theorem Token.name?_eq_some_iff
    {token : Token}
    {name : String} :
    token.name? = some name ↔ token.kind = .identifier ∧ token.text? = some name := by
  simp [Token.name?]

namespace Reading

variable {α β : Type}

/-- Takes nothing. -/
def done (value : α) : Reading α :=
  fun _ tokens => .ok (value, tokens)

/-- Fails whatever comes next. -/
def fail (error : ParseError) : Reading α :=
  fun _ _ => .error error

/-- Fails because something else comes next. -/
def miss (what : Expectation) : Reading α :=
  fun final tokens => .error (.expected what (nextToken final tokens))

/-- Takes one token, if there is one that `accepted` makes something of. -/
def accept (accepted : Token → Option α) (what : Expectation) : Reading α :=
  fun final tokens =>
    match tokens.head?.bind accepted with
    | none => miss what final tokens
    | some value => .ok (value, tokens.tail)

/-- Goes on with what was read. -/
def andThen (reading : Reading α) (next : α → Reading β) : Reading β :=
  fun final tokens =>
    match reading final tokens with
    | .error error => .error error
    | .ok (value, rest) => next value final rest

/-- Decides how to go on by what comes next. -/
def choose (test : Bool × Token → Bool) (yes no : Reading α) : Reading α :=
  fun final tokens =>
    if test (lookahead final tokens) = true then yes final tokens else no final tokens

/-- The end of a reading that was decided already. -/
def ofResult : Except ParseError α → Reading α
  | .error error => fail error
  | .ok value => done value

/-- A token comes next whose kind passes a test. -/
def nextIs (test : Token.Kind → Bool) : Bool × Token → Bool :=
  fun look => !look.1 && test look.2.kind

/-- A token of a kind comes next. -/
def comes (kind : Token.Kind) : Bool × Token → Bool :=
  nextIs (· = kind)

/-- Takes a token whose kind passes a test. -/
def takeIf (test : Token.Kind → Bool) (what : Expectation) : Reading Token :=
  accept (fun token => if test token.kind then some token else none) what

/-- Takes a token of a kind. -/
def ofKind (kind : Token.Kind) (what : Expectation) : Reading Token :=
  takeIf (· = kind) what

/-- Takes a name. -/
def named (what : Expectation) : Reading (Token × String) :=
  accept (fun token => token.name?.map (token, ·)) what

/-- A reading takes at least one token. -/
def Eats (reading : Reading α) : Prop :=
  ∀ final tokens value rest, reading final tokens = .ok (value, rest) →
    rest.length < tokens.length

/-! ## Success -/

section

variable {final : Token} {tokens rest : List Token} {value : α}

/-- Giving a value takes no tokens. -/
@[simp] theorem done_eq_ok_iff {result : α} :
    done value final tokens = .ok (result, rest) ↔ value = result ∧ tokens = rest := by
  simp [done]

@[simp] theorem fail_ne_ok (error : ParseError) :
    (fail error : Reading α) final tokens ≠ .ok (value, rest) := by
  simp [fail]

@[simp] theorem miss_ne_ok (what : Expectation) :
    (miss what : Reading α) final tokens ≠ .ok (value, rest) := by
  simp [miss]

/-- Exactly one token is taken, and it is accepted. -/
theorem accept_eq_ok_iff {accepted : Token → Option α} {what : Expectation} :
    accept accepted what final tokens = .ok (value, rest) ↔
      ∃ token, tokens = token :: rest ∧ accepted token = some value := by
  cases tokens with
  | nil => simp [accept]
  | cons token more =>
      cases isAccepted : accepted token with
      | none =>
          simp only [accept, List.head?_cons, Option.bind_some, isAccepted, miss_ne_ok, false_iff]
          rintro ⟨_, ⟨⟩, makes⟩
          simp [isAccepted] at makes
      | some made =>
          simp only [accept, List.head?_cons, Option.bind_some, isAccepted, List.tail_cons,
            Except.ok.injEq, Prod.mk.injEq]
          constructor
          · rintro ⟨rfl, rfl⟩
            exact ⟨token, rfl, isAccepted⟩
          · rintro ⟨_, ⟨⟩, makes⟩
            exact ⟨Option.some.inj (isAccepted.symm.trans makes), rfl⟩

/-- Two readings succeed one after the other if both do. -/
@[simp] theorem andThen_eq_ok_iff
    {reading : Reading α}
    {next : α → Reading β}
    {result : β} :
    reading.andThen next final tokens = .ok (result, rest) ↔
      ∃ made middle, reading final tokens = .ok (made, middle) ∧
        next made final middle = .ok (result, rest) := by
  unfold andThen
  rcases reading final tokens with error | ⟨made, middle⟩
  · simp
  · simp only [Except.ok.injEq, Prod.mk.injEq]
    constructor
    · exact fun goesOn => ⟨made, middle, ⟨rfl, rfl⟩, goesOn⟩
    · rintro ⟨_, _, ⟨rfl, rfl⟩, goesOn⟩
      exact goesOn

/-- The test of what comes next decides which reading has to succeed. -/
@[simp] theorem choose_eq_ok_iff
    {test : Bool × Token → Bool}
    {yes no : Reading α} :
    choose test yes no final tokens = .ok (value, rest) ↔
      test (lookahead final tokens) = true ∧ yes final tokens = .ok (value, rest) ∨
        test (lookahead final tokens) = false ∧ no final tokens = .ok (value, rest) := by
  unfold choose
  cases test (lookahead final tokens) <;> simp

/-- A check takes no tokens. -/
@[simp] theorem ofResult_eq_ok_iff {result : Except ParseError α} :
    ofResult result final tokens = .ok (value, rest) ↔ result = .ok value ∧ tokens = rest := by
  cases result with
  | error error => simp [ofResult]
  | ok made => simp [ofResult]

/-- The token taken passes the test. -/
@[simp] theorem takeIf_eq_ok_iff
    {test : Token.Kind → Bool}
    {what : Expectation}
    {token : Token} :
    takeIf test what final tokens = .ok (token, rest) ↔
      tokens = token :: rest ∧ test token.kind = true := by
  rw [takeIf, accept_eq_ok_iff]
  constructor
  · rintro ⟨other, rfl, accepted⟩
    split at accepted
    · rename_i passes
      cases accepted
      exact ⟨rfl, passes⟩
    · cases accepted
  · rintro ⟨rfl, passes⟩
    exact ⟨token, rfl, if_pos passes⟩

/-- The token taken has the kind asked for. -/
@[simp] theorem ofKind_eq_ok_iff {kind : Token.Kind} {what : Expectation} {token : Token} :
    ofKind kind what final tokens = .ok (token, rest) ↔
      tokens = token :: rest ∧ token.kind = kind := by
  rw [ofKind, takeIf_eq_ok_iff, decide_eq_true_iff]

/-- The token taken is a name. -/
@[simp] theorem named_eq_ok_iff {what : Expectation} {callee : Token × String} :
    named what final tokens = .ok (callee, rest) ↔
      tokens = callee.1 :: rest ∧ callee.1.name? = some callee.2 := by
  obtain ⟨token, name⟩ := callee
  rw [named, accept_eq_ok_iff]
  constructor
  · rintro ⟨other, rfl, accepted⟩
    obtain ⟨carried, carries, same⟩ := Option.map_eq_some_iff.1 accepted
    cases same
    exact ⟨rfl, carries⟩
  · rintro ⟨rfl, carries⟩
    exact ⟨token, rfl, Option.map_eq_some_iff.2 ⟨name, carries, rfl⟩⟩

end

/-- Whatever takes a token leaves fewer. -/
theorem accept_eats (accepted : Token → Option α) (what : Expectation) :
    (accept accepted what).Eats := by
  intro final tokens value rest read
  obtain ⟨token, rfl, _⟩ := accept_eq_ok_iff.1 read
  exact Nat.lt_succ_self rest.length

/-! ## What comes next -/

@[simp] theorem nextIs_nil (test : Token.Kind → Bool) (final : Token) :
    nextIs test (lookahead final []) = false := rfl

@[simp] theorem nextIs_cons
    (test : Token.Kind → Bool)
    (final token : Token)
    (rest : List Token) :
    nextIs test (lookahead final (token :: rest)) = test token.kind := rfl

/-- A test of the next token fails at the end and in front of tokens that fail it. -/
theorem nextIs_eq_false_iff {test : Token.Kind → Bool} {final : Token} {tokens : List Token} :
    nextIs test (lookahead final tokens) = false ↔ NextAvoids (test · = true) tokens := by
  cases tokens with
  | nil => simp
  | cons token rest => simp

@[simp] theorem comes_nil (kind : Token.Kind) (final : Token) :
    comes kind (lookahead final []) = false := rfl

@[simp] theorem comes_cons (kind : Token.Kind) (final token : Token) (rest : List Token) :
    comes kind (lookahead final (token :: rest)) = decide (token.kind = kind) := rfl

/-- A kind does not come at the end and in front of tokens of other kinds. -/
theorem comes_eq_false_iff {kind : Token.Kind} {final : Token} {tokens : List Token} :
    comes kind (lookahead final tokens) = false ↔ NextAvoids (· = kind) tokens := by
  rw [comes, nextIs_eq_false_iff]
  simp [NextAvoids]

end Reading
end ScalarScript
