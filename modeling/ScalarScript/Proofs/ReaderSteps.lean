import ScalarScript.Proofs.Reading

/-!
# The readers step by step

Each reader of the parser is written once more, as a sequence of steps that look at most one token
ahead.  This is the only place where the readers are unfolded: what is proved about them elsewhere
comes from the step forms, by a lemma for each kind of step.
-/

namespace ScalarScript

/-- No token both opens a conditional and closes a block. -/
theorem closes_kwIf (closing : Closing) : closing.closes .kwIf = false := by
  cases closing <;> rfl

namespace Reading

theorem take_nil (final : Token) (kind : Token.Kind) (what : Expectation) :
    take final kind what [] = .error (.expected what final) := rfl

theorem take_cons (final token : Token) (rest : List Token) (kind : Token.Kind)
    (what : Expectation) :
    take final kind what (token :: rest) =
      if token.kind = kind then .ok ⟨token, rest, Nat.lt_succ_self rest.length⟩
      else .error (.expected what token) := rfl

/-- Taking a token of a kind is a step of its own. -/
theorem ofKind_eq (kind : Token.Kind) (what : Expectation) :
    ofKind kind what = fun final tokens => (take final kind what tokens).map Parsed.pair := by
  funext final tokens
  cases tokens with
  | nil => rfl
  | cons token rest =>
      by_cases isKind : token.kind = kind
      · simp [ofKind, takeIf, accept, take, isKind, Except.map, Parsed.pair]
      · simp [ofKind, takeIf, accept, take, isKind, Except.map, unexpected, miss]

/-- Reads a primary expression. -/
def primary : Reading Expr :=
  fun final tokens => (Expr.readPrimary final tokens).map Parsed.pair

/-- Reads operators and operands. -/
def links : Reading (List (Token × Expr)) :=
  fun final tokens => (Expr.readLinks final tokens).map Parsed.pair

/-- Reads an expression. -/
def expression : Reading Expr :=
  fun final tokens => (Expr.readExpr final tokens).map Parsed.pair

/-- Reads arguments and the closing parenthesis. -/
def arguments : Reading (List Expr) :=
  fun final tokens => (Expr.readArguments final tokens).map Parsed.pair

/-- Reads at least one argument, and the closing parenthesis. -/
def moreArguments : Reading (List Expr) :=
  fun final tokens => (Expr.readMoreArguments final tokens).map Parsed.pair

section Steps

attribute [local simp] choose andThen accept takeIf named ofKind_eq take_nil take_cons unexpected
  miss done fail comes nextIs lookahead nextToken Except.map Parsed.pair

/-- An operand is a number, a name, a call or an expression between parentheses; what comes first
decides which. -/
theorem primary_eq :
    primary =
      choose (comes .number)
        ((ofKind .number .expression).andThen fun token =>
          done (.num (token.number?.getD 0) token.span))
        (choose (comes .identifier)
          ((named .identifier).andThen fun callee =>
            choose (comes .leftParen)
              ((ofKind .leftParen .expression).andThen fun _ =>
                arguments.andThen fun args => done (.call callee.2 args callee.1.span))
              (done (.var callee.2 callee.1.span)))
          ((ofKind .leftParen .expression).andThen fun _ =>
            expression.andThen fun inner =>
              (ofKind .rightParen .closingParen).andThen fun _ => done inner)) := by
  funext final tokens
  cases tokens with
  | nil => simp [primary, Expr.readPrimary]
  | cons token rest =>
      rw [primary, Expr.readPrimary]
      split
      · rename_i isNumber
        simp [isNumber]
      · rename_i isIdentifier
        cases carries : token.text? with
        | none => simp [isIdentifier, Token.name?, carries]
        | some name =>
            cases rest with
            | nil => simp [isIdentifier, Token.name?, carries]
            | cons next more =>
                by_cases isParen : next.kind = .leftParen
                · cases args : Expr.readArguments final more with
                  | error error =>
                      simp [isIdentifier, Token.name?, carries, isParen, arguments, args]
                  | ok read => simp [isIdentifier, Token.name?, carries, isParen, arguments, args]
                · simp [isIdentifier, Token.name?, carries, isParen]
      · rename_i isParen
        cases inner : Expr.readExpr final rest with
        | error error => simp [isParen, expression, inner]
        | ok read =>
            cases closed : take final .rightParen .closingParen read.rest with
            | error error => simp [isParen, expression, inner, closed]
            | ok closing => simp [isParen, expression, inner, closed]
      · simp_all

/-- Operators are read with their right operands as long as an operator comes. -/
theorem links_eq :
    links =
      choose (nextIs (·.precedence?.isSome))
        ((takeIf (·.precedence?.isSome) .expression).andThen fun op =>
          primary.andThen fun operand =>
            links.andThen fun others => done ((op, operand) :: others))
        (done []) := by
  funext final tokens
  cases tokens with
  | nil => simp [links, Expr.readLinks]
  | cons op rest =>
      rw [links, Expr.readLinks]
      by_cases joins : op.kind.precedence?.isSome = true
      · cases operand : Expr.readPrimary final rest with
        | error error => simp [joins, primary, operand]
        | ok read =>
            cases others : Expr.readLinks final read.rest with
            | error error => simp [joins, primary, operand, links, others]
            | ok more => simp [joins, primary, operand, links, others]
      · simp [joins]

/-- An expression is an operand with links, grouped by how tightly their operators bind. -/
theorem expression_eq :
    expression =
      primary.andThen fun first =>
        links.andThen fun others => done (Chain.tree ⟨first, others⟩) := by
  funext final tokens
  rw [expression, Expr.readExpr]
  cases first : Expr.readPrimary final tokens with
  | error error => simp [primary, first]
  | ok read =>
      cases others : Expr.readLinks final read.rest with
      | error error => simp [primary, links, first, others]
      | ok more => simp [primary, links, first, others]

/-- A closing parenthesis ends a list of arguments at once. -/
theorem arguments_eq :
    arguments =
      choose (comes .rightParen)
        ((ofKind .rightParen .argumentDelimiter).andThen fun _ => done [])
        moreArguments := by
  funext final tokens
  cases tokens with
  | nil => simp [arguments, moreArguments, Expr.readArguments]
  | cons token rest =>
      rw [arguments, Expr.readArguments]
      by_cases isParen : token.kind = .rightParen
      · simp [isParen]
      · simp [isParen, moreArguments]

/-- Behind an argument stands a closing parenthesis, or a comma and more arguments. -/
theorem moreArguments_eq :
    moreArguments =
      expression.andThen fun argument =>
        choose (comes .rightParen)
          ((ofKind .rightParen .argumentDelimiter).andThen fun _ => done [argument])
          ((ofKind .comma .argumentDelimiter).andThen fun _ =>
            moreArguments.andThen fun others => done (argument :: others)) := by
  funext final tokens
  rw [moreArguments, Expr.readMoreArguments]
  cases argument : Expr.readExpr final tokens with
  | error error => simp [expression, argument]
  | ok read =>
      obtain ⟨value, rest, fewer⟩ := read
      cases rest with
      | nil => simp [expression, argument]
      | cons delimiter more =>
          by_cases isClose : delimiter.kind = .rightParen
          · simp [expression, argument, isClose]
          · by_cases isComma : delimiter.kind = .comma
            · cases others : Expr.readMoreArguments final more with
              | error error => simp [expression, argument, isComma, moreArguments, others]
              | ok read => simp [expression, argument, isComma, moreArguments, others]
            · simp [expression, argument, isClose, isComma]

/-- Reads at least one parameter, and the closing parenthesis. -/
def params : Reading (List (String × Span)) :=
  fun final tokens => (Prototype.readParams final tokens).map Parsed.pair

/-- Reads parameters and the closing parenthesis. -/
def paramList : Reading (List (String × Span)) :=
  fun final tokens => (Prototype.readParamList final tokens).map Parsed.pair

/-- Reads a prototype. -/
def prototype : Reading Prototype :=
  fun final tokens => (Prototype.read final tokens).map Parsed.pair

/-- Behind a parameter stands a closing parenthesis, or a comma and more parameters. -/
theorem params_eq :
    params =
      (named .parameterName).andThen fun param =>
        choose (comes .rightParen)
          ((ofKind .rightParen .parameterDelimiter).andThen fun _ => done [(param.2, param.1.span)])
          ((ofKind .comma .parameterDelimiter).andThen fun _ =>
            params.andThen fun others => done ((param.2, param.1.span) :: others)) := by
  funext final tokens
  cases tokens with
  | nil => simp [params, Prototype.readParams]
  | cons token rest =>
      rw [params, Prototype.readParams]
      cases isName : token.name? with
      | none => simp [isName]
      | some name =>
          cases rest with
          | nil => simp [isName]
          | cons delimiter more =>
              by_cases isClose : delimiter.kind = .rightParen
              · simp [isName, isClose]
              · by_cases isComma : delimiter.kind = .comma
                · cases others : Prototype.readParams final more with
                  | error error => simp [isName, isComma, params, others]
                  | ok read => simp [isName, isComma, params, others]
                · simp [isName, isClose, isComma]

/-- A closing parenthesis ends a list of parameters at once. -/
theorem paramList_eq :
    paramList =
      choose (comes .rightParen)
        ((ofKind .rightParen .parameterDelimiter).andThen fun _ => done [])
        params := by
  funext final tokens
  cases tokens with
  | nil => simp [paramList, params, Prototype.readParamList]
  | cons token rest =>
      rw [paramList, Prototype.readParamList]
      by_cases isParen : token.kind = .rightParen
      · simp [isParen]
      · simp [isParen, params]

/-- A prototype is a name that is not reserved and a list of parameters, whose names are checked
once all have been read. -/
theorem prototype_eq :
    prototype =
      (named .functionName).andThen fun callee =>
        if callee.2 = Prototype.anonymousName then
          fail (.reservedName callee.2 callee.1.span)
        else
          (ofKind .leftParen .parameterList).andThen fun _ =>
            paramList.andThen fun params =>
              ofResult (Prototype.ofLocated callee.2 callee.1.span params) := by
  funext final tokens
  cases tokens with
  | nil => simp [prototype, Prototype.read]
  | cons token rest =>
      rw [prototype, Prototype.read]
      cases isName : token.name? with
      | none => simp [isName]
      | some name =>
          by_cases isReserved : name = Prototype.anonymousName
          · simp [isName, isReserved]
          · cases paren : take final .leftParen .parameterList rest with
            | error error => simp [isName, isReserved, paren]
            | ok opened =>
                cases list : Prototype.readParamList final opened.rest with
                | error error => simp [isName, isReserved, paren, paramList, list]
                | ok read =>
                    cases made : Prototype.ofLocated name token.span read.value with
                    | error error =>
                        simp [isName, isReserved, paren, paramList, list, made, ofResult]
                    | ok proto =>
                        simp [isName, isReserved, paren, paramList, list, made, ofResult]

/-- Reads the value of a return. -/
def returned (closing : Closing) (keyword : Token) : Reading Return :=
  fun final tokens => (Return.read final closing keyword tokens).map Parsed.pair

/-- Reads statements up to the token that closes the block. -/
def block (closing : Closing) : Reading Block :=
  fun final tokens => (Block.read final closing tokens).map Parsed.pair

/-- Reads a conditional after its first keyword. -/
def branch (keyword : Token) : Reading Stmt :=
  fun final tokens => (Block.readBranch final keyword tokens).map Parsed.pair

/-- Reads what follows the first arm of a conditional. -/
def tail (condition : Expr) (arm : Block) (span : Span) : Reading Stmt :=
  choose (comes .kwElif)
    ((ofKind .kwElif .ifEnd).andThen fun keyword =>
      (branch keyword).andThen fun other => done (.branch condition arm (some other) none span))
    (choose (comes .kwElse)
      ((ofKind .kwElse .ifEnd).andThen fun _ =>
        (block .body).andThen fun other =>
          (ofKind .kwEnd .elseEnd).andThen fun _ =>
            done (.branch condition arm none (some other) span))
      ((ofKind .kwEnd .ifEnd).andThen fun _ => done (.branch condition arm none none span)))

/-- Reads a top-level statement. -/
def statement : Reading Stmt :=
  fun final tokens => (Stmt.read final tokens).map Parsed.pair

/-- A return has a value unless the block closes right behind its keyword. -/
theorem returned_eq (closing : Closing) (keyword : Token) :
    returned closing keyword =
      choose (fun look => closing.closes look.2.kind)
        (done ⟨none, keyword.span⟩)
        (expression.andThen fun value => done ⟨some value, keyword.span⟩) := by
  funext final tokens
  rw [returned, Return.read]
  by_cases closes : closing.closes (nextToken final tokens).kind = true
  · simp [closes, -nextToken]
  · cases value : Expr.readExpr final tokens with
    | error error => simp [closes, expression, value, -nextToken]
    | ok read => simp [closes, expression, value, -nextToken]

/-- A block ends with a return or in front of what closes it; before that stand branches and
expressions. -/
theorem block_eq (closing : Closing) :
    block closing =
      choose (comes .kwReturn)
        ((ofKind .kwReturn (.blockEnd closing)).andThen fun keyword =>
          (returned closing keyword).andThen fun value => done (.mk [] (some value)))
        (choose (nextIs closing.closes)
          (done (.mk [] none))
          (choose (comes .kwIf)
            ((ofKind .kwIf (.blockEnd closing)).andThen fun keyword =>
              (branch keyword).andThen fun statement =>
                (block closing).andThen fun others => done (.cons statement others))
            (choose Prod.fst
              (miss (.blockEnd closing))
              (expression.andThen fun expr =>
                (block closing).andThen fun others => done (.cons (.ofExpr expr) others))))) := by
  funext final tokens
  cases tokens with
  | nil => simp [block, Block.read]
  | cons token rest =>
      rw [block, Block.read]
      by_cases isReturn : token.kind = .kwReturn
      · cases value : Return.read final closing token rest with
        | error error => simp [isReturn, returned, value]
        | ok read => simp [isReturn, returned, value]
      · by_cases closes : closing.closes token.kind = true
        · simp [isReturn, closes]
        · by_cases isIf : token.kind = .kwIf
          · cases first : Block.readBranch final token rest with
            | error error => simp [isIf, closes_kwIf, branch, first]
            | ok read =>
                cases others : Block.read final closing read.rest with
                | error error =>
                    simp [isIf, closes_kwIf, branch, first, block, others]
                | ok more =>
                    simp [isIf, closes_kwIf, branch, first, block, others]
          · cases first : Expr.readExpr final (token :: rest) with
            | error error => simp [isReturn, closes, isIf, expression, first]
            | ok read =>
                cases others : Block.read final closing read.rest with
                | error error =>
                    simp [isReturn, closes, isIf, expression, first, block, others]
                | ok more =>
                    simp [isReturn, closes, isIf, expression, first, block, others]

/-- A branch is a condition, its arm and what comes behind the arm. -/
theorem branch_eq (keyword : Token) :
    branch keyword =
      expression.andThen fun condition =>
        (ofKind .kwThen .thenKeyword).andThen fun _ =>
          (block .arm).andThen fun arm => tail condition arm keyword.span := by
  funext final tokens
  rw [branch, Block.readBranch]
  cases condition : Expr.readExpr final tokens with
  | error error => simp [expression, condition]
  | ok decides =>
      cases opened : take final .kwThen .thenKeyword decides.rest with
      | error error => simp [expression, condition, opened]
      | ok opening =>
          cases arm : Block.read final .arm opening.rest with
          | error error => simp [expression, condition, opened, block, arm]
          | ok read =>
              obtain ⟨value, rest, fewer⟩ := read
              cases rest with
              | nil => simp [expression, condition, opened, block, arm, tail]
              | cons next more =>
                  by_cases isElif : next.kind = .kwElif
                  · cases other : Block.readBranch final next more with
                    | error error =>
                        simp [expression, condition, opened, block, arm, tail, isElif, branch,
                          other]
                    | ok read =>
                        simp [expression, condition, opened, block, arm, tail, isElif, branch,
                          other]
                  · by_cases isElse : next.kind = .kwElse
                    · cases other : Block.read final .body more with
                      | error error =>
                          simp [expression, condition, opened, block, arm, tail, isElse, other]
                      | ok read =>
                          cases closed : take final .kwEnd .elseEnd read.rest with
                          | error error =>
                              simp [expression, condition, opened, block, arm, tail, isElse, other,
                                closed]
                          | ok closing =>
                              simp [expression, condition, opened, block, arm, tail, isElse, other,
                                closed]
                    · by_cases isEnd : next.kind = .kwEnd
                      · simp [expression, condition, opened, block, arm, tail, isEnd]
                      · simp [expression, condition, opened, block, arm, tail, isElif, isElse,
                          isEnd]

/-- A keyword decides between a definition and a declaration, and anything else is an expression. -/
theorem statement_eq :
    statement =
      choose (comes .kwDef)
        ((ofKind .kwDef .expression).andThen fun _ =>
          prototype.andThen fun proto =>
            (block .body).andThen fun body =>
              (ofKind .kwEnd .functionEnd).andThen fun _ => done (.function proto body))
        (choose (comes .kwExtern)
          ((ofKind .kwExtern .expression).andThen fun _ =>
            prototype.andThen fun proto => done (.prototype proto))
          (expression.andThen fun expr => done (.ofExpr expr))) := by
  funext final tokens
  cases tokens with
  | nil =>
      cases read : Expr.readExpr final [] with
      | error error => simp [statement, Stmt.read, Stmt.readExpression, expression, read]
      | ok value => simp [statement, Stmt.read, Stmt.readExpression, expression, read]
  | cons token rest =>
      rw [statement, Stmt.read]
      by_cases isDef : token.kind = .kwDef
      · cases header : Prototype.read final rest with
        | error error => simp [isDef, Stmt.readFunction, prototype, header]
        | ok proto =>
            cases body : Block.read final .body proto.rest with
            | error error => simp [isDef, Stmt.readFunction, prototype, header, block, body]
            | ok read =>
                cases closed : take final .kwEnd .functionEnd read.rest with
                | error error =>
                    simp [isDef, Stmt.readFunction, prototype, header, block, body, closed]
                | ok closing =>
                    simp [isDef, Stmt.readFunction, prototype, header, block, body, closed,
                      Parsed.widen]
      · by_cases isExtern : token.kind = .kwExtern
        · cases header : Prototype.read final rest with
          | error error => simp [isExtern, Stmt.readPrototype, prototype, header]
          | ok proto => simp [isExtern, Stmt.readPrototype, prototype, header, Parsed.widen]
        · cases read : Expr.readExpr final (token :: rest) with
          | error error => simp [isDef, isExtern, Stmt.readExpression, expression, read]
          | ok value => simp [isDef, isExtern, Stmt.readExpression, expression, read]

end Steps

/-! ## Progress -/

/-- A reader that leaves fewer tokens than it was given takes some. -/
theorem eats_of_fewer
    {α : Type}
    (reader : Token → (tokens : List Token) → Except ParseError (Parsed α tokens.length)) :
    Eats fun final tokens => (reader final tokens).map Parsed.pair := by
  intro final tokens value rest read
  cases result : reader final tokens with
  | error error => simp [result, Except.map] at read
  | ok parsed =>
      simp only [result, Except.map, Except.ok.injEq] at read
      cases read
      exact parsed.fewer

/-- An operand takes at least one token. -/
theorem primary_eats : primary.Eats :=
  eats_of_fewer Expr.readPrimary

/-- An expression takes at least one token. -/
theorem expression_eats : expression.Eats :=
  eats_of_fewer Expr.readExpr

/-- A branch takes at least one token behind its keyword. -/
theorem branch_eats (keyword : Token) : (branch keyword).Eats :=
  eats_of_fewer (Block.readBranch · keyword)

/-- A statement takes at least one token, so that reading a program ends. -/
theorem statement_eats : statement.Eats :=
  eats_of_fewer Stmt.read

end Reading
end ScalarScript
