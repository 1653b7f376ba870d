import ScalarScript.Tree.Chain
import ScalarScript.Tree.ParseError

/-!
# Parsing

The parser reads statements from a list of tokens, one token of look-ahead deciding what
comes next.  Each reader returns what it read and the tokens that are left, with the bound
that makes the recursion end.  `final` is the mark of the end of input; it is what is
found when the tokens run out.
-/

namespace ScalarScript

/-- Something read from tokens, and the tokens left, of which there are fewer than
`bound`. -/
structure Parsed (α : Type) (bound : Nat) where
  value : α
  rest : List Token
  fewer : rest.length < bound

namespace Parsed

/-- The same with a larger bound. -/
def widen
    {α : Type}
    {small large : Nat}
    (parsed : Parsed α small)
    (le : small ≤ large) : Parsed α large :=
  ⟨parsed.value, parsed.rest, Nat.lt_of_lt_of_le parsed.fewer le⟩

/-- The value read and the tokens left. -/
def pair {α : Type} {bound : Nat} (parsed : Parsed α bound) : α × List Token :=
  (parsed.value, parsed.rest)

end Parsed

/-- The token that comes next, the mark of the end of input if none does. -/
def nextToken (final : Token) : List Token → Token
  | [] => final
  | token :: _ => token

/-- The error that something else than the next token was expected. -/
def unexpected
    {α : Type}
    (final : Token)
    (what : Expectation)
    (tokens : List Token) : Except ParseError α :=
  .error (.expected what (nextToken final tokens))

/-- The name that an identifier carries. -/
def Token.name? (token : Token) : Option String :=
  if token.kind = .identifier then token.text? else none

/-- Takes one token of the given kind. -/
def take
    (final : Token)
    (kind : Token.Kind)
    (what : Expectation)
    (tokens : List Token) : Except ParseError (Parsed Token tokens.length) :=
  match tokens with
  | [] => unexpected final what []
  | token :: rest =>
      if token.kind = kind then
        .ok ⟨token, rest, by simp⟩
      else
        unexpected final what (token :: rest)

namespace Expr

mutual

/-- Reads a number, a variable, a call or an expression in parentheses. -/
def readPrimary (final : Token) (tokens : List Token) :
    Except ParseError (Parsed Expr tokens.length) :=
  match tokens with
  | [] => unexpected final .expression []
  | token :: rest =>
      match token.kind with
      | .number => .ok ⟨.num (token.number?.getD 0) token.span, rest, by simp⟩
      | .identifier =>
          match token.text?, rest with
          | none, rest => unexpected final .identifier (token :: rest)
          | some name, [] => .ok ⟨.var name token.span, [], by simp⟩
          | some name, next :: more =>
              if next.kind = .leftParen then
                match readArguments final more with
                | .error error => .error error
                | .ok args =>
                    .ok ⟨.call name args.value token.span, args.rest, by
                      have := args.fewer
                      simp only [List.length_cons]
                      omega⟩
              else
                .ok ⟨.var name token.span, next :: more, by simp⟩
      | .leftParen =>
          match readExpr final rest with
          | .error error => .error error
          | .ok inner =>
              match take final .rightParen .closingParen inner.rest with
              | .error error => .error error
              | .ok closed =>
                  .ok ⟨inner.value, closed.rest, by
                    have := inner.fewer
                    have := closed.fewer
                    simp only [List.length_cons]
                    omega⟩
      | _ => unexpected final .expression (token :: rest)
termination_by 3 * tokens.length

/-- Reads operators and their right operands, as many as follow. -/
def readLinks (final : Token) (tokens : List Token) :
    Except ParseError (Parsed (List (Token × Expr)) (tokens.length + 1)) :=
  match tokens with
  | [] => .ok ⟨[], [], by simp⟩
  | op :: rest =>
      if op.kind.precedence?.isSome then
        match readPrimary final rest with
        | .error error => .error error
        | .ok operand =>
            have := operand.fewer
            match readLinks final operand.rest with
            | .error error => .error error
            | .ok links =>
                .ok ⟨(op, operand.value) :: links.value, links.rest, by
                  have := links.fewer
                  simp only [List.length_cons]
                  omega⟩
      else
        .ok ⟨[], op :: rest, by simp⟩
termination_by 3 * tokens.length

/-- Reads an expression. -/
def readExpr (final : Token) (tokens : List Token) :
    Except ParseError (Parsed Expr tokens.length) :=
  match readPrimary final tokens with
  | .error error => .error error
  | .ok first =>
      have := first.fewer
      match readLinks final first.rest with
      | .error error => .error error
      | .ok links =>
          .ok ⟨Chain.tree ⟨first.value, links.value⟩, links.rest, by
            have := links.fewer
            omega⟩
termination_by 3 * tokens.length + 1

/-- Reads the arguments of a call after its opening parenthesis, and the closing one. -/
def readArguments (final : Token) (tokens : List Token) :
    Except ParseError (Parsed (List Expr) tokens.length) :=
  match tokens with
  | [] => readMoreArguments final []
  | token :: rest =>
      if token.kind = .rightParen then
        .ok ⟨[], rest, by simp⟩
      else
        readMoreArguments final (token :: rest)
termination_by 3 * tokens.length + 3

/-- Reads at least one argument, and the closing parenthesis. -/
def readMoreArguments (final : Token) (tokens : List Token) :
    Except ParseError (Parsed (List Expr) tokens.length) :=
  match readExpr final tokens with
  | .error error => .error error
  | .ok argument =>
      match argument.rest, argument.fewer with
      | [], _ => unexpected final .argumentDelimiter []
      | delimiter :: more, fewer =>
          if delimiter.kind = .rightParen then
            .ok ⟨[argument.value], more, by
              simp only [List.length_cons] at fewer
              omega⟩
          else if delimiter.kind = .comma then
            match readMoreArguments final more with
            | .error error => .error error
            | .ok others =>
                .ok ⟨argument.value :: others.value, others.rest, by
                  have := others.fewer
                  simp only [List.length_cons] at fewer
                  omega⟩
          else
            unexpected final .argumentDelimiter (delimiter :: more)
termination_by 3 * tokens.length + 2
decreasing_by
  all_goals try simp only [List.length_cons] at fewer
  all_goals omega

end

end Expr

namespace Prototype

/-- Reads at least one parameter with its span, and the closing parenthesis. -/
def readParams (final : Token) (tokens : List Token) :
    Except ParseError (Parsed (List (String × Span)) tokens.length) :=
  match tokens with
  | [] => unexpected final .parameterName []
  | token :: rest =>
      match token.name?, rest with
      | none, rest => unexpected final .parameterName (token :: rest)
      | some _, [] => unexpected final .parameterDelimiter []
      | some name, delimiter :: more =>
          if delimiter.kind = .rightParen then
            .ok ⟨[(name, token.span)], more, by simp only [List.length_cons]; omega⟩
          else if delimiter.kind = .comma then
            match readParams final more with
            | .error error => .error error
            | .ok others =>
                .ok ⟨(name, token.span) :: others.value, others.rest, by
                  have := others.fewer
                  simp only [List.length_cons]
                  omega⟩
          else
            unexpected final .parameterDelimiter (delimiter :: more)
termination_by tokens.length

/-- Reads the parameters after the opening parenthesis, and the closing one. -/
def readParamList (final : Token) (tokens : List Token) :
    Except ParseError (Parsed (List (String × Span)) tokens.length) :=
  match tokens with
  | [] => readParams final []
  | token :: rest =>
      if token.kind = .rightParen then
        .ok ⟨[], rest, by simp⟩
      else
        readParams final (token :: rest)

/-- The prototype with the given parameters.  A repeated parameter is reported where it
stands last. -/
def ofLocated
    (name : String)
    (span : Span)
    (params : List (String × Span)) : Except ParseError Prototype :=
  match make name (params.map Prod.fst) span with
  | .ok proto => .ok proto
  | .error repeated =>
      let place := (params.reverse.find? fun param => param.1 = repeated).map Prod.snd
      .error (.duplicateParameter repeated name (place.getD span))

/-- Reads a prototype. -/
def read (final : Token) (tokens : List Token) :
    Except ParseError (Parsed Prototype tokens.length) :=
  match tokens with
  | [] => unexpected final .functionName []
  | token :: rest =>
      match token.name? with
      | none => unexpected final .functionName (token :: rest)
      | some name =>
          if name = anonymousName then
            .error (.reservedName name token.span)
          else
            match take final .leftParen .parameterList rest with
            | .error error => .error error
            | .ok paren =>
                match readParamList final paren.rest with
                | .error error => .error error
                | .ok params =>
                    match ofLocated name token.span params.value with
                    | .error error => .error error
                    | .ok proto =>
                        .ok ⟨proto, params.rest, by
                          have := paren.fewer
                          have := params.fewer
                          simp only [List.length_cons]
                          omega⟩

end Prototype

namespace Return

/-- Reads the value of a return, absent when the block closes right away. -/
def read (final : Token) (closing : Closing) (keyword : Token) (tokens : List Token) :
    Except ParseError (Parsed Return (tokens.length + 1)) :=
  if closing.closes (nextToken final tokens).kind then
    .ok ⟨⟨none, keyword.span⟩, tokens, by simp⟩
  else
    match Expr.readExpr final tokens with
    | .error error => .error error
    | .ok value =>
        .ok ⟨⟨some value.value, keyword.span⟩, value.rest, Nat.lt_succ_of_lt value.fewer⟩

end Return

namespace Block

mutual

/-- Reads statements up to the token that closes the block, which is left. -/
def read (final : Token) (closing : Closing) (tokens : List Token) :
    Except ParseError (Parsed Block (tokens.length + 1)) :=
  match tokens with
  | [] => unexpected final (.blockEnd closing) []
  | token :: rest =>
      if token.kind = .kwReturn then
        match Return.read final closing token rest with
        | .error error => .error error
        | .ok value =>
            .ok ⟨.mk [] (some value.value), value.rest, by
              have := value.fewer
              simp only [List.length_cons]
              omega⟩
      else if closing.closes token.kind then
        .ok ⟨.mk [] none, token :: rest, by simp⟩
      else if token.kind = .kwIf then
        match readBranch final token rest with
        | .error error => .error error
        | .ok statement =>
            have := statement.fewer
            match read final closing statement.rest with
            | .error error => .error error
            | .ok block =>
                .ok ⟨.cons statement.value block.value, block.rest, by
                  have := block.fewer
                  simp only [List.length_cons]
                  omega⟩
      else
        match Expr.readExpr final (token :: rest) with
        | .error error => .error error
        | .ok expr =>
            have := expr.fewer
            match read final closing expr.rest with
            | .error error => .error error
            | .ok block =>
                .ok ⟨.cons (.ofExpr expr.value) block.value, block.rest, by
                  have := block.fewer
                  omega⟩
termination_by tokens.length
decreasing_by
  all_goals simp only [List.length_cons] at *
  all_goals omega

/-- Reads a conditional after its first keyword, up to its `end`. -/
def readBranch (final : Token) (keyword : Token) (tokens : List Token) :
    Except ParseError (Parsed Stmt tokens.length) :=
  match Expr.readExpr final tokens with
  | .error error => .error error
  | .ok condition =>
      match take final .kwThen .thenKeyword condition.rest with
      | .error error => .error error
      | .ok opened =>
          have := condition.fewer
          have := opened.fewer
          match read final .arm opened.rest with
          | .error error => .error error
          | .ok arm =>
              match arm.rest, arm.fewer with
              | [], _ => unexpected final .ifEnd []
              | next :: more, fewer =>
                  if next.kind = .kwElif then
                    match readBranch final next more with
                    | .error error => .error error
                    | .ok other =>
                        .ok ⟨.branch condition.value arm.value (some other.value) none
                            keyword.span, other.rest, by
                          have := other.fewer
                          simp only [List.length_cons] at fewer
                          omega⟩
                  else if next.kind = .kwElse then
                    match read final .body more with
                    | .error error => .error error
                    | .ok other =>
                        match take final .kwEnd .elseEnd other.rest with
                        | .error error => .error error
                        | .ok closed =>
                            .ok ⟨.branch condition.value arm.value none (some other.value)
                                keyword.span, closed.rest, by
                              have := other.fewer
                              have := closed.fewer
                              simp only [List.length_cons] at fewer
                              omega⟩
                  else if next.kind = .kwEnd then
                    .ok ⟨.branch condition.value arm.value none none keyword.span, more, by
                      simp only [List.length_cons] at fewer
                      omega⟩
                  else
                    unexpected final .ifEnd (next :: more)
termination_by tokens.length
decreasing_by
  all_goals try simp only [List.length_cons] at fewer
  all_goals omega

end

end Block

namespace Stmt

/-- Reads a definition after its keyword. -/
def readFunction (final : Token) (tokens : List Token) :
    Except ParseError (Parsed Stmt tokens.length) :=
  match Prototype.read final tokens with
  | .error error => .error error
  | .ok proto =>
      match Block.read final .body proto.rest with
      | .error error => .error error
      | .ok body =>
          match take final .kwEnd .functionEnd body.rest with
          | .error error => .error error
          | .ok closed =>
              .ok ⟨.function proto.value body.value, closed.rest, by
                have := proto.fewer
                have := body.fewer
                have := closed.fewer
                omega⟩

/-- Reads a declaration after its keyword. -/
def readPrototype (final : Token) (tokens : List Token) :
    Except ParseError (Parsed Stmt tokens.length) :=
  match Prototype.read final tokens with
  | .error error => .error error
  | .ok proto => .ok ⟨.prototype proto.value, proto.rest, proto.fewer⟩

/-- Reads a top-level expression. -/
def readExpression (final : Token) (tokens : List Token) :
    Except ParseError (Parsed Stmt tokens.length) :=
  match Expr.readExpr final tokens with
  | .error error => .error error
  | .ok expr => .ok ⟨.ofExpr expr.value, expr.rest, expr.fewer⟩

/-- Reads a top-level statement. -/
def read (final : Token) (tokens : List Token) :
    Except ParseError (Parsed Stmt tokens.length) :=
  match tokens with
  | [] => readExpression final []
  | token :: rest =>
      if token.kind = .kwDef then
        match readFunction final rest with
        | .error error => .error error
        | .ok statement => .ok (statement.widen (by simp))
      else if token.kind = .kwExtern then
        match readPrototype final rest with
        | .error error => .error error
        | .ok statement => .ok (statement.widen (by simp))
      else
        readExpression final (token :: rest)

end Stmt

/-- The statements read from tokens, and the error that stopped the reading, if any. -/
structure Parse where
  statements : List Stmt
  error : Option ParseError

namespace Parse

/-- The statements, when all tokens could be read. -/
def result (parse : Parse) : Except ParseError (List Stmt) :=
  match parse.error with
  | some error => .error error
  | none => .ok parse.statements

/-- Reads statements until no token is left or one cannot be read. -/
def ofBody (final : Token) (tokens : List Token) : Parse :=
  match tokens with
  | [] => ⟨[], none⟩
  | token :: rest =>
      match Stmt.read final (token :: rest) with
      | .error error => ⟨[], some error⟩
      | .ok statement =>
          have := statement.fewer
          let others := ofBody final statement.rest
          ⟨statement.value :: others.statements, others.error⟩
termination_by tokens.length
decreasing_by
  exact this

/-- The mark of the end of input that closes tokens without one. -/
def endAfter (last : Option Token) : Token :=
  let span := (last.map Token.span).getD .zero
  ⟨.eof, none, ⟨span.stop, span.stop, max span.line 1⟩⟩

/-- The first mark of the end of input, added when there is none. -/
def finalOf (tokens : List Token) : Token :=
  (tokens.find? fun token => token.kind = .eof).getD (endAfter tokens.getLast?)

/-- Reads a program.  Nothing after the first mark of the end of input is looked at. -/
def ofTokens (tokens : List Token) : Parse :=
  ofBody (finalOf tokens) (tokens.takeWhile fun token => token.kind ≠ .eof)

end Parse
end ScalarScript
