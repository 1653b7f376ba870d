import Mathlib.Data.List.TakeWhile
import ScalarScript.Proofs.Grammatical

/-!
# Printing programs

A program is printed as tokens in the form that the grammar asks for.  Every expression
statement and every operand of a binary operator is put in parentheses, so that neither
precedence nor the juxtaposition of two statements can join what the tree keeps apart.
Printed tokens have no place in a text; reading them back gives the program with all spans
forgotten.
-/

namespace ScalarScript

namespace Token

/-- A token that carries nothing. -/
def word (kind : Kind) : Token :=
  ⟨kind, none, .zero⟩

/-- The token of a name. -/
def ofName (name : String) : Token :=
  ⟨.identifier, some (.text name), .zero⟩

/-- The token of a number. -/
def ofNumber (value : Float) : Token :=
  ⟨.number, some (.number value), .zero⟩

/-- Tokens between parentheses. -/
def parenthesized (tokens : List Token) : List Token :=
  word .leftParen :: (tokens ++ [word .rightParen])

end Token

open Token (word ofName ofNumber parenthesized)

/-! ## The printer -/

mutual

/-- The tokens of an expression. -/
def Expr.print : Expr → List Token
  | .num value _ => [ofNumber value]
  | .var name _ => [ofName name]
  | .binary op left right _ =>
      parenthesized left.print ++ word op :: parenthesized right.print
  | .call callee [] _ => ofName callee :: parenthesized []
  | .call callee (arg :: args) _ =>
      ofName callee :: parenthesized (arg.print ++ Expr.printOthers args)

/-- The tokens of further arguments, each after a comma. -/
def Expr.printOthers : List Expr → List Token
  | [] => []
  | arg :: args => word .comma :: (arg.print ++ Expr.printOthers args)

end

/-- The tokens of parameters, with commas between them. -/
def Prototype.printParams : List String → List Token
  | [] => []
  | [param] => [ofName param]
  | param :: params => ofName param :: word .comma :: Prototype.printParams params

/-- The tokens of a prototype. -/
def Prototype.print (proto : Prototype) : List Token :=
  ofName proto.name :: parenthesized (Prototype.printParams proto.params)

/-- The tokens of a return. -/
def Return.print (value : Return) : List Token :=
  match value.value with
  | some expr => word .kwReturn :: expr.print
  | none => [word .kwReturn]

/-- The keyword with which a statement begins, if it has one. -/
def Stmt.opening : Stmt → List Token
  | .prototype _ => [word .kwExtern]
  | .function _ _ => [word .kwDef]
  | .branch .. => [word .kwIf]
  | .block _ | .ret _ | .expression _ _ => []

mutual

/-- The tokens of a statement after its keyword.  A conditional closes with one `end`,
which belongs to the last of its `elif` arms. -/
def Stmt.printRest : Stmt → List Token
  | .prototype proto => proto.print
  | .function proto body => proto.print ++ (body.print ++ [word .kwEnd])
  | .block body => body.print
  | .ret value => value.print
  | .expression _ body => parenthesized body.print
  | .branch condition thenBlock (some elseIf) _ _ =>
      condition.print ++ word .kwThen ::
        (thenBlock.print ++ word .kwElif :: elseIf.printRest)
  | .branch condition thenBlock none (some elseBlock) _ =>
      condition.print ++ word .kwThen ::
        (thenBlock.print ++ word .kwElse :: (elseBlock.print ++ [word .kwEnd]))
  | .branch condition thenBlock none none _ =>
      condition.print ++ word .kwThen :: (thenBlock.print ++ [word .kwEnd])

/-- The tokens of a block. -/
def Block.print : Block → List Token
  | .mk statements tail =>
      Stmt.printAll statements ++
        match tail with
        | some value => value.print
        | none => []

/-- The tokens of statements one after the other. -/
def Stmt.printAll : List Stmt → List Token
  | [] => []
  | statement :: statements =>
      statement.opening ++ (statement.printRest ++ Stmt.printAll statements)

end

/-! ## Forgetting spans -/

/-- The token without its span. -/
def Token.unlocated (token : Token) : Token :=
  { token with span := .zero }

mutual

/-- The expression without spans. -/
def Expr.unlocated : Expr → Expr
  | .num value _ => .num value .zero
  | .var name _ => .var name .zero
  | .binary op left right _ => .binary op left.unlocated right.unlocated .zero
  | .call callee args _ => .call callee (Expr.unlocatedAll args) .zero

/-- The expressions without spans. -/
def Expr.unlocatedAll : List Expr → List Expr
  | [] => []
  | arg :: args => arg.unlocated :: Expr.unlocatedAll args

end

/-- The prototype without its span. -/
def Prototype.unlocated (proto : Prototype) : Prototype :=
  { proto with span := .zero }

/-- The return without spans. -/
def Return.unlocated (value : Return) : Return :=
  ⟨value.value.map Expr.unlocated, .zero⟩

mutual

/-- The statement without spans. -/
def Stmt.unlocated : Stmt → Stmt
  | .prototype proto => .prototype proto.unlocated
  | .function proto body => .function proto.unlocated body.unlocated
  | .block body => .block body.unlocated
  | .ret value => .ret value.unlocated
  | .expression proto body => .expression proto.unlocated body.unlocated
  | .branch condition thenBlock none none _ =>
      .branch condition.unlocated thenBlock.unlocated none none .zero
  | .branch condition thenBlock none (some elseBlock) _ =>
      .branch condition.unlocated thenBlock.unlocated none (some elseBlock.unlocated) .zero
  | .branch condition thenBlock (some elseIf) none _ =>
      .branch condition.unlocated thenBlock.unlocated (some elseIf.unlocated) none .zero
  | .branch condition thenBlock (some elseIf) (some elseBlock) _ =>
      .branch condition.unlocated thenBlock.unlocated (some elseIf.unlocated)
        (some elseBlock.unlocated) .zero

/-- The block without spans. -/
def Block.unlocated : Block → Block
  | .mk statements tail => .mk (Stmt.unlocatedAll statements) (tail.map Return.unlocated)

/-- The statements without spans. -/
def Stmt.unlocatedAll : List Stmt → List Stmt
  | [] => []
  | statement :: statements => statement.unlocated :: Stmt.unlocatedAll statements

end

/-! ## Reading printed expressions -/

/-- The next token neither opens arguments nor joins two operands. -/
def Delimited (tokens : List Token) : Prop :=
  NextAvoids (fun kind => kind = .leftParen ∨ kind.precedence?.isSome = true) tokens

theorem delimited_word
    {kind : Token.Kind}
    (notParen : kind ≠ .leftParen)
    (joinsNot : kind.precedence? = none)
    (tokens : List Token) :
    Delimited (word kind :: tokens) := by
  simp [Delimited, word, notParen, joinsNot]

theorem Delimited.joinsNot
    {tokens : List Token}
    (delimited : Delimited tokens) :
    NextAvoids (·.precedence?.isSome = true) tokens :=
  fun next isNext joins => delimited next isNext (Or.inr joins)

/-- No token both closes a block and continues an expression. -/
theorem closing_delimited
    {closing : Closing}
    {close : Token.Kind}
    (closes : closing.closes close = true)
    (tokens : List Token) :
    Delimited (word close :: tokens) := by
  rcases closes_cases closes with rfl | rfl | rfl
  · exact delimited_word (by decide) rfl tokens
  · exact delimited_word (by decide) rfl tokens
  · exact delimited_word (by decide) rfl tokens

namespace Expr

/-- An expression begins with a number, a name or a parenthesis. -/
theorem print_cons (expr : Expr) :
    ∃ token more, expr.print = token :: more ∧
      (token.kind = .number ∨ token.kind = .identifier ∨ token.kind = .leftParen) := by
  cases expr with
  | num value span => exact ⟨_, _, by rw [print], by simp [ofNumber]⟩
  | var name span => exact ⟨_, _, by rw [print], by simp [ofName]⟩
  | binary op left right span => exact ⟨_, _, by rw [print]; rfl, by simp [word]⟩
  | call callee args span =>
      cases args with
      | nil => exact ⟨_, _, by rw [print], by simp [ofName]⟩
      | cons arg args => exact ⟨_, _, by rw [print], by simp [ofName]⟩

/-- A primary that no operator follows is an expression. -/
theorem readExpr_of_readPrimary
    {final : Token}
    {tokens rest : List Token}
    {expr : Expr}
    (primary : Yields (readPrimary final tokens) expr rest)
    (joinsNot : NextAvoids (·.precedence?.isSome = true) rest) :
    Yields (readExpr final tokens) expr rest := by
  rw [readExpr_yields_iff]
  exact ⟨expr, [], rest, primary, (readLinks_yields_iff ..).2 (.stop joinsNot), rfl⟩

/-- Parentheses make a primary of anything that is read up to the closing one. -/
theorem readPrimary_parenthesized
    {final : Token}
    {tokens rest : List Token}
    {expr : Expr}
    (inner : Yields (readExpr final (tokens ++ word .rightParen :: rest)) expr
      (word .rightParen :: rest)) :
    Yields (readPrimary final (parenthesized tokens ++ rest)) expr rest := by
  rw [readPrimary_yields_iff]
  have group : PrimaryRead final
      (word .leftParen :: (tokens ++ word .rightParen :: rest)) expr rest :=
    .group rfl inner rfl
  simpa [parenthesized] using group

/-- Two primaries around an operator are read as one expression. -/
theorem readExpr_of_operands
    {final op : Token}
    {tokens middle rest : List Token}
    {left right : Expr}
    (leftRead : Yields (readPrimary final tokens) left (op :: middle))
    (joins : op.kind.precedence?.isSome = true)
    (rightRead : Yields (readPrimary final middle) right rest)
    (joinsNot : NextAvoids (·.precedence?.isSome = true) rest) :
    Yields (readExpr final tokens) (.binary op.kind left right op.span) rest := by
  rw [readExpr_yields_iff]
  have stop := (readLinks_yields_iff final rest rest []).2 (.stop joinsNot)
  have links := (readLinks_yields_iff final (op :: middle) rest [(op, right)]).2
    (.link joins rightRead stop)
  refine ⟨left, _, _, leftRead, links, ?_⟩
  simp [Chain.tree, Chain.group, Chain.settle, Chain.join]

/-- Arguments that can each be read up to a delimiter are read one after the other. -/
theorem readMoreArguments_print
    (final : Token)
    (arg : Expr)
    (args : List Expr)
    (readable : ∀ other ∈ arg :: args, ∀ rest, Delimited rest →
      Yields (readExpr final (other.print ++ rest)) other.unlocated rest)
    (rest : List Token) :
    Yields (readMoreArguments final (arg.print ++ (printOthers args ++ word .rightParen :: rest)))
      (arg.unlocated :: unlocatedAll args) rest := by
  rw [readMoreArguments_yields_iff]
  induction args generalizing arg with
  | nil =>
      rw [printOthers, unlocatedAll, List.nil_append]
      have argRead := readable arg (by simp) (word .rightParen :: rest)
        (delimited_word (by decide) rfl rest)
      exact .last argRead rfl
  | cons next args inductionHypothesis =>
      rw [printOthers, unlocatedAll, List.cons_append, List.append_assoc]
      have argRead := readable arg (by simp)
        (word .comma :: (next.print ++ (printOthers args ++ word .rightParen :: rest)))
        (delimited_word (by decide) rfl _)
      have othersRead := inductionHypothesis next
        fun other member => readable other (List.mem_cons_of_mem _ member)
      exact .more argRead rfl ((readMoreArguments_yields_iff ..).2 othersRead)

/-- A printed expression is read back, whatever follows that does not continue it. -/
theorem readExpr_print
    (final : Token)
    {expr : Expr}
    (grammatical : expr.Grammatical)
    {rest : List Token}
    (delimited : Delimited rest) :
    Yields (readExpr final (expr.print ++ rest)) expr.unlocated rest := by
  induction grammatical generalizing rest with
  | num value span =>
      rw [print, unlocated]
      refine readExpr_of_readPrimary ?_ delimited.joinsNot
      exact (readPrimary_yields_iff ..).2 (.number rfl)
  | var name span =>
      rw [print, unlocated]
      refine readExpr_of_readPrimary ?_ delimited.joinsNot
      refine (readPrimary_yields_iff ..).2 (.name rfl rfl ?_)
      exact fun next isNext isParen => delimited next isNext (Or.inl isParen)
  | @binary op left right span joins _ _ leftHypothesis rightHypothesis =>
      rw [print, unlocated, List.append_assoc, List.cons_append]
      have closed (tokens : List Token) : Delimited (word .rightParen :: tokens) :=
        delimited_word (by decide) rfl tokens
      have leftRead := readPrimary_parenthesized
        (leftHypothesis (closed (word op :: (parenthesized right.print ++ rest))))
      have rightRead := readPrimary_parenthesized (rightHypothesis (closed rest))
      exact readExpr_of_operands leftRead joins rightRead delimited.joinsNot
  | @call callee args span _ argsHypothesis =>
      refine readExpr_of_readPrimary ?_ delimited.joinsNot
      rw [readPrimary_yields_iff, unlocated]
      cases args with
      | nil =>
          rw [print, unlocatedAll]
          exact .call rfl rfl rfl ((readArguments_yields_iff ..).2 (.none rfl))
      | cons arg args =>
          have argsRead := readMoreArguments_print final arg args
            (fun other member rest delimited => argsHypothesis other member delimited) rest
          obtain ⟨token, more, begins, kind⟩ := arg.print_cons
          have notClosed : NextAvoids (· = .rightParen)
              (arg.print ++ (printOthers args ++ word .rightParen :: rest)) := by
            rw [begins]
            rcases kind with kind | kind | kind
            · simp [kind]
            · simp [kind]
            · simp [kind]
          have read : PrimaryRead final
              (ofName callee :: word .leftParen ::
                (arg.print ++ (printOthers args ++ word .rightParen :: rest)))
              (.call callee (arg.unlocated :: unlocatedAll args) .zero) rest :=
            .call rfl rfl rfl ((readArguments_yields_iff ..).2 (.some notClosed argsRead))
          simpa [print, unlocatedAll, parenthesized] using read

/-- A printed expression in parentheses is read back unless an operator follows. -/
theorem readExpr_print_parenthesized
    (final : Token)
    {expr : Expr}
    (grammatical : expr.Grammatical)
    {rest : List Token}
    (joinsNot : NextAvoids (·.precedence?.isSome = true) rest) :
    Yields (readExpr final (parenthesized expr.print ++ rest)) expr.unlocated rest :=
  readExpr_of_readPrimary
    (readPrimary_parenthesized
      (readExpr_print final grammatical (delimited_word (by decide) rfl rest)))
    joinsNot

end Expr

/-! ## Reading printed prototypes -/

namespace Prototype

theorem printParams_cons_cons
    (param next : String)
    (params : List String) :
    printParams (param :: next :: params) =
      ofName param :: word .comma :: printParams (next :: params) := rfl

theorem readParams_print
    (final : Token)
    (param : String)
    (params : List String)
    (rest : List Token) :
    Yields (readParams final (printParams (param :: params) ++ word .rightParen :: rest))
      ((param :: params).map fun name => (name, .zero)) rest := by
  rw [readParams_yields_iff]
  induction params generalizing param with
  | nil => exact .last rfl rfl
  | cons next params inductionHypothesis =>
      rw [printParams_cons_cons]
      exact .more rfl rfl ((readParams_yields_iff ..).2 (inductionHypothesis next))

theorem readParamList_print
    (final : Token)
    (params : List String)
    (rest : List Token) :
    Yields (readParamList final (printParams params ++ word .rightParen :: rest))
      (params.map fun name => (name, .zero)) rest := by
  rw [readParamList_yields_iff]
  cases params with
  | nil => exact .none rfl
  | cons param params =>
      refine .some ?_ (readParams_print final param params rest)
      cases params with
      | nil => simp [printParams, ofName]
      | cons next params => simp [printParams_cons_cons, ofName]

/-- A printed prototype is read back unless it has the name kept for expressions. -/
theorem read_print
    (final : Token)
    {proto : Prototype}
    (allowed : proto.name ≠ anonymousName)
    (rest : List Token) :
    Yields (read final (proto.print ++ rest)) proto.unlocated rest := by
  rw [read_yields_iff]
  refine ⟨ofName proto.name, word .leftParen, printParams proto.params ++ word .rightParen :: rest,
    proto.params.map fun name => (name, .zero), ?_, rfl, allowed, rfl,
    readParamList_print final proto.params rest, ?_, rfl⟩
  · simp [print, parenthesized]
  · simp [unlocated, Function.comp_def]

end Prototype

/-! ## Reading printed blocks -/

theorem Return.read_print
    (final : Token)
    {closing : Closing}
    {value : Return}
    (grammatical : value.Grammatical)
    {close : Token.Kind}
    (closes : closing.closes close = true)
    (rest : List Token) :
    ∃ more, value.print ++ word close :: rest = word .kwReturn :: more ∧
      Yields (Return.read final closing (word .kwReturn) more) value.unlocated
        (word close :: rest) := by
  obtain ⟨expr, span⟩ := value
  cases expr with
  | none =>
      refine ⟨word close :: rest, rfl, ?_⟩
      rw [Return.read_yields_iff]
      exact Or.inl ⟨closes, rfl, rfl⟩
  | some expr =>
      refine ⟨expr.print ++ word close :: rest, rfl, ?_⟩
      rw [Return.read_yields_iff]
      have exprRead := Expr.readExpr_print final (grammatical expr rfl)
        (closing_delimited closes rest)
      refine Or.inr ⟨?_, expr.unlocated, exprRead, rfl⟩
      obtain ⟨token, more, printed, begins⟩ := expr.print_cons
      rw [printed]
      exact not_closes_of_begins closing begins

/-- A printed statement is read back in front of a block that is read back, and after its
keyword if it is a conditional. -/
structure Stmt.ReadsBack (final : Token) (statement : Stmt) : Prop where
  inBlock : ∀ closing middle block rest,
    NextAvoids (·.precedence?.isSome = true) middle →
    Yields (Block.read final closing middle) block rest →
    Yields (Block.read final closing (statement.opening ++ (statement.printRest ++ middle)))
      (.cons statement.unlocated block) rest
  afterKeyword : ∀ condition thenBlock elseIf elseBlock span,
    statement = .branch condition thenBlock elseIf elseBlock span →
    ∀ keyword rest, Yields (Block.readBranch final (word keyword) (statement.printRest ++ rest))
      statement.unlocated rest

/-- It is enough to read a conditional back after its keyword. -/
theorem Stmt.ReadsBack.ofBranch
    {final : Token}
    {condition : Expr}
    {thenBlock : Block}
    {elseIf : Option Stmt}
    {elseBlock : Option Block}
    {span : Span}
    (afterKeyword : ∀ keyword rest, Yields (Block.readBranch final (word keyword)
      (Stmt.printRest (.branch condition thenBlock elseIf elseBlock span) ++ rest))
      (Stmt.unlocated (.branch condition thenBlock elseIf elseBlock span)) rest) :
    (Stmt.branch condition thenBlock elseIf elseBlock span).ReadsBack final where
  inBlock := by
    intro closing middle block rest _ blockRead
    exact (Block.read_yields_iff ..).2 (.branch rfl (afterKeyword .kwIf middle) blockRead)
  afterKeyword := fun _ _ _ _ _ _ => afterKeyword

/-- A statement of a block does not begin with an operator. -/
theorem Stmt.Inner.print_joinsNot
    {statement : Stmt}
    (inner : statement.Inner)
    (tokens : List Token) :
    NextAvoids (·.precedence?.isSome = true)
      (statement.opening ++ (statement.printRest ++ tokens)) := by
  cases inner with
  | expression => simp [Stmt.opening, Stmt.printRest, parenthesized, word, Token.Kind.precedence?]
  | done => simp [Stmt.opening, word, Token.Kind.precedence?]
  | otherwise => simp [Stmt.opening, word, Token.Kind.precedence?]
  | elif => simp [Stmt.opening, word, Token.Kind.precedence?]

/-- A printed block is read back up to its closing token. -/
theorem Block.read_print
    (final : Token)
    {closing : Closing}
    {statements : List Stmt}
    {tail : Option Return}
    (inner : ∀ statement ∈ statements, statement.Inner)
    (readsBack : ∀ statement ∈ statements, statement.ReadsBack final)
    (tailGrammatical : ∀ value ∈ tail, value.Grammatical)
    {close : Token.Kind}
    (closes : closing.closes close = true)
    (rest : List Token) :
    Yields (Block.read final closing (Block.print (.mk statements tail) ++ word close :: rest))
      (Block.unlocated (.mk statements tail)) (word close :: rest) := by
  induction statements with
  | nil =>
      rw [Block.read_yields_iff]
      cases tail with
      | none =>
          have notReturn : close ≠ .kwReturn := by
            rcases closes_cases closes with rfl | rfl | rfl <;> decide
          exact .close notReturn closes
      | some value =>
          obtain ⟨more, printed, valueRead⟩ :=
            Return.read_print final (tailGrammatical value rfl) closes rest
          have read := BlockRead.ret rfl valueRead
          rw [← printed] at read
          simpa [Block.print, Stmt.printAll, Block.unlocated, Stmt.unlocatedAll] using read
  | cons statement statements inductionHypothesis =>
      have othersRead := inductionHypothesis
        (fun other member => inner other (List.mem_cons_of_mem _ member))
        fun other member => readsBack other (List.mem_cons_of_mem _ member)
      have joinsNot : NextAvoids (·.precedence?.isSome = true)
          (Block.print (.mk statements tail) ++ word close :: rest) := by
        cases statements with
        | nil =>
            cases tail with
            | none => exact (closing_delimited closes rest).joinsNot
            | some value =>
                obtain ⟨more, printed, _⟩ :=
                  Return.read_print final (tailGrammatical value rfl) closes rest
                simp only [Block.print, Stmt.printAll, List.nil_append, printed]
                simp [word, Token.Kind.precedence?]
        | cons next others =>
            have nextInner := inner next (by simp)
            simpa [Block.print, Stmt.printAll, List.append_assoc] using
              nextInner.print_joinsNot _
      have printed : Block.print (.mk (statement :: statements) tail) ++ word close :: rest =
          statement.opening ++ (statement.printRest ++
            (Block.print (.mk statements tail) ++ word close :: rest)) := by
        simp [Block.print, Stmt.printAll]
      rw [printed]
      exact (readsBack statement List.mem_cons_self).inBlock closing _ _ _ joinsNot othersRead

/-- The prototype of an expression is lost in print and made anew when it is read. -/
theorem Prototype.IsAnonymous.unlocated_eq
    {proto : Prototype}
    (anonymous : proto.IsAnonymous)
    (body : Expr) :
    proto.unlocated = .anonymous body.unlocated.span := by
  have noSpan : body.unlocated.span = .zero := by
    cases body <;> simp [Expr.unlocated, Expr.span]
  obtain ⟨name, params, span, distinct⟩ := proto
  obtain ⟨rfl, rfl⟩ := anonymous
  rw [noSpan]
  rfl

/-- Every statement of a block is read back. -/
theorem Stmt.Inner.readsBack
    (final : Token)
    {statement : Stmt}
    (inner : statement.Inner) :
    statement.ReadsBack final := by
  have thenDelimited (tokens : List Token) : Delimited (word .kwThen :: tokens) :=
    delimited_word (by decide) rfl tokens
  induction inner with
  | @expression proto body anonymous grammatical =>
      refine ⟨?_, fun _ _ _ _ _ isBranch => by cases isBranch⟩
      intro closing middle block rest joinsNot blockRead
      rw [Block.read_yields_iff, Stmt.unlocated, anonymous.unlocated_eq body]
      exact .expression (by simp [word]) (not_closes_of_begins closing (by simp [word]))
        (by simp [word]) (Expr.readExpr_print_parenthesized final grammatical joinsNot) blockRead
  | @done condition statements tail span conditionGrammatical inner tailGrammatical readsBack =>
      apply Stmt.ReadsBack.ofBranch
      intro keyword rest
      have armRead := Block.read_print final inner readsBack tailGrammatical
        (show Closing.arm.closes .kwEnd = true from rfl) rest
      have conditionRead := Expr.readExpr_print final conditionGrammatical
        (thenDelimited (Block.print (.mk statements tail) ++ word .kwEnd :: rest))
      have printed : Stmt.printRest (.branch condition (.mk statements tail) none none span) ++
          rest = condition.print ++ word .kwThen ::
            (Block.print (.mk statements tail) ++ word .kwEnd :: rest) := by
        simp [Stmt.printRest]
      rw [Block.readBranch_yields_iff, printed, Stmt.unlocated]
      exact .done conditionRead rfl armRead rfl
  | @otherwise condition statements others tail otherTail span conditionGrammatical inner
      tailGrammatical otherInner otherGrammatical readsBack otherReadsBack =>
      apply Stmt.ReadsBack.ofBranch
      intro keyword rest
      have otherRead := Block.read_print final otherInner otherReadsBack otherGrammatical
        (show Closing.body.closes .kwEnd = true from rfl) rest
      have armRead := Block.read_print final inner readsBack tailGrammatical
        (show Closing.arm.closes .kwElse = true from rfl)
        (Block.print (.mk others otherTail) ++ word .kwEnd :: rest)
      have conditionRead := Expr.readExpr_print final conditionGrammatical
        (thenDelimited (Block.print (.mk statements tail) ++ word .kwElse ::
          (Block.print (.mk others otherTail) ++ word .kwEnd :: rest)))
      have printed : Stmt.printRest (.branch condition (.mk statements tail) none
          (some (.mk others otherTail)) span) ++ rest = condition.print ++ word .kwThen ::
            (Block.print (.mk statements tail) ++ word .kwElse ::
              (Block.print (.mk others otherTail) ++ word .kwEnd :: rest)) := by
        simp [Stmt.printRest]
      rw [Block.readBranch_yields_iff, printed, Stmt.unlocated]
      exact .otherwise conditionRead rfl armRead rfl otherRead rfl
  | @elif condition otherCondition statements tail otherBlock otherElif otherElse otherSpan span
      conditionGrammatical inner tailGrammatical _ readsBack otherReadsBack =>
      apply Stmt.ReadsBack.ofBranch
      intro keyword rest
      have otherRead := otherReadsBack.afterKeyword _ _ _ _ _ rfl .kwElif rest
      generalize Stmt.branch otherCondition otherBlock otherElif otherElse otherSpan = other
        at otherRead
      have armRead := Block.read_print final inner readsBack tailGrammatical
        (show Closing.arm.closes .kwElif = true from rfl) (other.printRest ++ rest)
      have conditionRead := Expr.readExpr_print final conditionGrammatical
        (thenDelimited (Block.print (.mk statements tail) ++ word .kwElif ::
          (other.printRest ++ rest)))
      have printed : Stmt.printRest (.branch condition (.mk statements tail) (some other) none
          span) ++ rest = condition.print ++ word .kwThen ::
            (Block.print (.mk statements tail) ++ word .kwElif :: (other.printRest ++ rest)) := by
        simp [Stmt.printRest]
      rw [Block.readBranch_yields_iff, printed, Stmt.unlocated]
      exact .elif conditionRead rfl armRead rfl otherRead

/-! ## Reading printed programs -/

/-- A printed top-level statement is read back unless an operator follows. -/
theorem Stmt.Outer.read_print
    (final : Token)
    {statement : Stmt}
    (outer : statement.Outer)
    {rest : List Token}
    (joinsNot : NextAvoids (·.precedence?.isSome = true) rest) :
    Yields (Stmt.read final (statement.opening ++ (statement.printRest ++ rest)))
      statement.unlocated rest := by
  rw [Stmt.read_yields_iff]
  cases outer with
  | prototype allowed => exact .prototype rfl (Prototype.read_print final allowed rest)
  | @function proto body allowed grammatical =>
      obtain ⟨statements, tail⟩ := body
      have bodyRead := Block.read_print final grammatical.1
        (fun statement member => (grammatical.1 statement member).readsBack final) grammatical.2
        (show Closing.body.closes .kwEnd = true from rfl) rest
      have protoRead := Prototype.read_print final allowed
        (Block.print (.mk statements tail) ++ word .kwEnd :: rest)
      have printed : Stmt.opening (.function proto (.mk statements tail)) ++
          (Stmt.printRest (.function proto (.mk statements tail)) ++ rest) =
            word .kwDef :: (proto.print ++
              (Block.print (.mk statements tail) ++ word .kwEnd :: rest)) := by
        simp [Stmt.opening, Stmt.printRest]
      rw [printed, Stmt.unlocated]
      exact .function rfl protoRead bodyRead rfl
  | @expression proto body anonymous grammatical =>
      rw [Stmt.unlocated, anonymous.unlocated_eq body]
      exact .expression (by simp [Stmt.opening, Stmt.printRest, parenthesized, word])
        (Expr.readExpr_print_parenthesized final grammatical joinsNot)

/-- A printed top-level statement begins with a token, which is no operator. -/
theorem Stmt.Outer.print_cons
    {statement : Stmt}
    (outer : statement.Outer) :
    ∃ token more, statement.opening ++ statement.printRest = token :: more ∧
      token.kind.precedence? = none := by
  cases outer with
  | prototype => exact ⟨_, _, rfl, rfl⟩
  | function => exact ⟨_, _, rfl, rfl⟩
  | expression => exact ⟨_, _, rfl, rfl⟩

theorem Stmt.printAll_joinsNot
    {statements : List Stmt}
    (outer : ∀ statement ∈ statements, statement.Outer) :
    NextAvoids (·.precedence?.isSome = true) (Stmt.printAll statements) := by
  cases statements with
  | nil => simp [Stmt.printAll]
  | cons statement statements =>
      obtain ⟨token, more, printed, joinsNot⟩ := (outer statement List.mem_cons_self).print_cons
      rw [Stmt.printAll, ← List.append_assoc, printed]
      simp [joinsNot]

theorem Parse.ofBody_print
    (final : Token)
    {statements : List Stmt}
    (outer : ∀ statement ∈ statements, statement.Outer) :
    Parse.ProgramRead final (Stmt.printAll statements) (Stmt.unlocatedAll statements) := by
  induction statements with
  | nil => exact .nil
  | cons statement statements inductionHypothesis =>
      have others := fun other member => outer other (List.mem_cons_of_mem statement member)
      have here := outer statement List.mem_cons_self
      have read := here.read_print final (Stmt.printAll_joinsNot others)
      obtain ⟨token, more, printed, _⟩ := here.print_cons
      rw [← List.append_assoc, printed, List.cons_append] at read
      rw [Stmt.printAll, ← List.append_assoc, printed, List.cons_append, Stmt.unlocatedAll]
      exact .cons read (inductionHypothesis others)

/-! ## No mark of the end is printed -/

/-- None of the tokens marks the end of input. -/
def Endless (tokens : List Token) : Prop :=
  ∀ token ∈ tokens, token.kind ≠ .eof

@[simp] theorem endless_nil : Endless [] := by
  simp [Endless]

@[simp] theorem endless_cons
    (token : Token)
    (tokens : List Token) :
    Endless (token :: tokens) ↔ token.kind ≠ .eof ∧ Endless tokens :=
  List.forall_mem_cons

@[simp] theorem endless_append
    (front back : List Token) :
    Endless (front ++ back) ↔ Endless front ∧ Endless back :=
  List.forall_mem_append

theorem endless_parenthesized
    {tokens : List Token}
    (endless : Endless tokens) :
    Endless (parenthesized tokens) := by
  simp [parenthesized, word, endless]

theorem Expr.printOthers_endless
    {args : List Expr}
    (endless : ∀ arg ∈ args, Endless arg.print) :
    Endless (Expr.printOthers args) := by
  induction args with
  | nil => simp [Expr.printOthers]
  | cons arg args inductionHypothesis =>
      have others := inductionHypothesis
        fun other member => endless other (List.mem_cons_of_mem arg member)
      simp [Expr.printOthers, word, endless arg List.mem_cons_self, others]

theorem Expr.Grammatical.print_endless
    {expr : Expr}
    (grammatical : expr.Grammatical) :
    Endless expr.print := by
  induction grammatical with
  | num value span => simp [Expr.print, ofNumber]
  | var name span => simp [Expr.print, ofName]
  | @binary op left right span joins _ _ leftHypothesis rightHypothesis =>
      have notEnd : op ≠ .eof := by
        rintro rfl
        simp [Token.Kind.precedence?] at joins
      simp [Expr.print, word, notEnd, endless_parenthesized leftHypothesis,
        endless_parenthesized rightHypothesis]
  | @call callee args span _ argsHypothesis =>
      cases args with
      | nil => simp [Expr.print, ofName, endless_parenthesized]
      | cons arg args =>
          have others := Expr.printOthers_endless
            fun other member => argsHypothesis other (List.mem_cons_of_mem arg member)
          have all : Endless (arg.print ++ Expr.printOthers args) := by
            simp [argsHypothesis arg List.mem_cons_self, others]
          simp [Expr.print, ofName, endless_parenthesized all]

theorem Prototype.print_endless (proto : Prototype) : Endless proto.print := by
  have params (names : List String) : Endless (Prototype.printParams names) := by
    induction names with
    | nil => simp [Prototype.printParams]
    | cons name names inductionHypothesis =>
        cases names with
        | nil => simp [Prototype.printParams, ofName]
        | cons next names =>
            simp [Prototype.printParams_cons_cons, ofName, word, inductionHypothesis]
  simp [Prototype.print, ofName, endless_parenthesized (params proto.params)]

theorem Block.print_endless
    {statements : List Stmt}
    {tail : Option Return}
    (endless : ∀ statement ∈ statements, Endless (statement.opening ++ statement.printRest))
    (tailGrammatical : ∀ value ∈ tail, value.Grammatical) :
    Endless (Block.print (.mk statements tail)) := by
  have tailEndless : Endless (Block.print (.mk [] tail)) := by
    cases tail with
    | none => simp [Block.print, Stmt.printAll]
    | some value =>
        obtain ⟨expr, span⟩ := value
        cases expr with
        | none => simp [Block.print, Stmt.printAll, Return.print, word]
        | some expr =>
            have exprEndless := (tailGrammatical _ rfl expr rfl).print_endless
            simp [Block.print, Stmt.printAll, Return.print, word, exprEndless]
  have allEndless : Endless (Stmt.printAll statements) := by
    induction statements with
    | nil => simp [Stmt.printAll]
    | cons statement statements inductionHypothesis =>
        have here := endless statement List.mem_cons_self
        have others := inductionHypothesis
          fun other member => endless other (List.mem_cons_of_mem statement member)
        simp only [endless_append] at here
        simp [Stmt.printAll, here, others]
  simp only [Block.print, Stmt.printAll, List.nil_append] at tailEndless
  simp [Block.print, allEndless, tailEndless]

theorem Stmt.Inner.print_endless
    {statement : Stmt}
    (inner : statement.Inner) :
    Endless (statement.opening ++ statement.printRest) := by
  induction inner with
  | expression _ grammatical =>
      simp [Stmt.opening, Stmt.printRest, endless_parenthesized grammatical.print_endless]
  | done span conditionGrammatical _ tailGrammatical inductionHypothesis =>
      have block := Block.print_endless inductionHypothesis tailGrammatical
      simp [Stmt.opening, Stmt.printRest, word, conditionGrammatical.print_endless, block]
  | otherwise span conditionGrammatical _ tailGrammatical _ otherGrammatical
      inductionHypothesis otherHypothesis =>
      have block := Block.print_endless inductionHypothesis tailGrammatical
      have other := Block.print_endless otherHypothesis otherGrammatical
      simp [Stmt.opening, Stmt.printRest, word, conditionGrammatical.print_endless, block, other]
  | elif span conditionGrammatical _ tailGrammatical _ inductionHypothesis otherHypothesis =>
      have block := Block.print_endless inductionHypothesis tailGrammatical
      simp only [endless_append] at otherHypothesis
      simp [Stmt.opening, Stmt.printRest, word, conditionGrammatical.print_endless, block,
        otherHypothesis.2]

theorem Stmt.Outer.print_endless
    {statement : Stmt}
    (outer : statement.Outer) :
    Endless (statement.opening ++ statement.printRest) := by
  cases outer with
  | prototype => simp [Stmt.opening, Stmt.printRest, word, Prototype.print_endless]
  | @function proto body _ grammatical =>
      obtain ⟨statements, tail⟩ := body
      have block : Endless (Block.print (.mk statements tail)) := Block.print_endless
        (fun statement member => (grammatical.1 statement member).print_endless) grammatical.2
      simp [Stmt.opening, Stmt.printRest, word, Prototype.print_endless, block]
  | expression _ grammatical =>
      simp [Stmt.opening, Stmt.printRest, endless_parenthesized grammatical.print_endless]

/-! ## The round trip -/

/-- Printing a program and reading the tokens gives the program back, without its
spans. -/
theorem parse_printed_program
    (statements : List Stmt)
    (outer : ∀ statement ∈ statements, statement.Outer) :
    (Parse.ofTokens (Stmt.printAll statements)).result =
      .ok (Stmt.unlocatedAll statements) := by
  have endless : Endless (Stmt.printAll statements) := by
    have block := Block.print_endless
      (fun statement member => (outer statement member).print_endless)
      (show ∀ value ∈ (none : Option Return), value.Grammatical by simp)
    simpa [Block.print] using block
  have whole : (Stmt.printAll statements).takeWhile (fun token => token.kind ≠ .eof) =
      Stmt.printAll statements := by
    rw [List.takeWhile_eq_self_iff]
    intro token member
    simpa using endless token member
  rw [Parse.ofTokens, whole, Parse.ofBody_eq_ok_iff]
  exact Parse.ofBody_print _ outer

/-- A program with a name in front of a parenthesis, an empty return in front of an `elif`
and an `else` without statements. -/
def juxtaposed : List Stmt :=
  let x : Expr := .var "x" .zero
  let inner (body : Expr) : Stmt := .expression (.anonymous .zero) body
  let otherwise : Stmt :=
    .branch x (.mk [inner x] (some ⟨some x, .zero⟩)) none (some (.mk [] none)) .zero
  let chain : Stmt :=
    .branch (.binary .lesser x (.num 1 .zero) .zero) (.mk [] (some ⟨none, .zero⟩))
      (some otherwise) none .zero
  [.prototype ⟨"g", ["a", "b"], .zero, by decide⟩,
    .function ⟨"f", ["x"], .zero, by decide⟩
      (.mk [inner x, inner (.call "g" [.num 1 .zero, x] .zero), chain] (some ⟨none, .zero⟩)),
    inner (.call "f" [.num 2 .zero] .zero)]

theorem juxtaposed_outer : ∀ statement ∈ juxtaposed, statement.Outer := by
  have comparison : (Expr.binary .lesser (.var "x" .zero) (.num 1 .zero) .zero).Grammatical :=
    .binary _ rfl (.var _ _) (.num _ _)
  simp only [juxtaposed, List.mem_cons, List.not_mem_nil, or_false, forall_eq_or_imp, forall_eq]
  refine ⟨.prototype (by decide), .function (by decide) ⟨?_, ?_⟩, ?_⟩
  · simp only [Block.statements, List.mem_cons, List.not_mem_nil, or_false, forall_eq_or_imp,
      forall_eq]
    refine ⟨.expression ⟨rfl, rfl⟩ (.var _ _), .expression ⟨rfl, rfl⟩ (.call _ _ ?_), ?_⟩
    · simp only [List.mem_cons, List.not_mem_nil, or_false, forall_eq_or_imp, forall_eq]
      exact ⟨.num _ _, .var _ _⟩
    · refine .elif _ comparison (by simp) ?_ (.otherwise _ (.var _ _) ?_ ?_ (by simp) (by simp))
      · simp [Return.Grammatical]
      · simpa using Stmt.Inner.expression ⟨rfl, rfl⟩ (.var _ _)
      · simpa [Return.Grammatical] using Expr.Grammatical.var "x" .zero
  · simp [Block.tail, Return.Grammatical]
  · exact .expression ⟨rfl, rfl⟩ (.call _ _ (by simpa using .num _ _))

theorem parse_printed_juxtaposed :
    (∀ statement ∈ juxtaposed, statement.Outer) ∧
      (Parse.ofTokens (Stmt.printAll juxtaposed)).result =
        .ok (Stmt.unlocatedAll juxtaposed) :=
  ⟨juxtaposed_outer, parse_printed_program juxtaposed juxtaposed_outer⟩

end ScalarScript
