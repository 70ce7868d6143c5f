import SourceCheck.Grammar.Literal
import SourceCheck.Grammar.Power
import SourceCheck.Grammar.TypeExpr

/-
  The grammar of expressions.

  An expression is started by one token and then extended as
  long as the next token binds tightly enough.  The parsers
  of the expressions and blocks within an expression are
  given as a `Nested`, so that no parser here calls itself.

  Key definitions include:
    * `Nested`
    * `Nested.required`
    * `Grammar.argument`
    * `Grammar.parameter`
    * `Starter.parser`
    * `Extender.parser`
    * `Grammar.expression`
-/

namespace SourceCheck

------------------------------------------------------------
-- Nested expressions and blocks
------------------------------------------------------------

/-
  Parsers of what lies within an expression: expressions
  whose operators bind more tightly than a power, and the
  rest of a block behind its opening brace.
-/
structure Nested where
  expression : Power → Parser (Option Expr)
  block : Token → Parser Expr

namespace Grammar

open SourceCheck.Parser

/- Fail because no expression starts at the current token. -/
def missingExpression {α : Type} : Parser α := do
  let token ← current
  if token.kind = .unexpectedCharacter then
    fail (.unexpectedCharacter token.value) token.span.start
  else
    fail (.expectedExpression token.value) token.span.start

end Grammar

/- A nested expression that may not be left out. -/
def Nested.required
    (nested : Nested)
    (power : Power) :
    Parser Expr := do
  match ← nested.expression power with
  | some e => return e
  | none => Grammar.missingExpression

namespace Grammar

open SourceCheck.Parser

variable (nested : Nested)

------------------------------------------------------------
-- Arguments and parameters
------------------------------------------------------------

/- A name and the `=` behind it, or nothing at all. -/
def argumentName : Parser (Option Token) := do
  if ← checkName then
    let name ← consume
    if ← accept .assignment then
      return some name
    else
      unconsume
      return none
  else
    return none

/- A value, or a name and a value behind `=`. -/
def argument : Parser Argument := do
  let name ← argumentName
  let value ← nested.required .loosest
  let start := (name.map (·.span)).getD value.span
  let span := start.between value.span
  return ⟨name.map (·.name), value, span⟩

/- Arguments up to the closing parenthesis, and its place. -/
def arguments : Parser (List Argument × Span) := do
  let items ← separated .comma .closeParen (argument nested)
  let stop ← expect .closeParen "')'"
  return (items, stop.span)

/- An expression behind `=`, if there is one. -/
def assigned : Parser (Option Expr) := do
  if ← accept .assignment then
    return some (← nested.required .loosest)
  else
    return none

/-
  A parameter of a function, with its type and maybe with a
  default.  It is visible behind its declaration.
-/
def parameter : Parser Parameter := do
  let name ← expectName
  let _ ← expect .colon "':'"
  let type ← typeExpr .loosest
  let fallback ← assigned nested
  let stop := (fallback.map (·.span)).getD type.span
  let span := name.span.between stop
  let definition ←
    declare name .argument span span.stop.offset false
  return ⟨name.name, type, fallback, definition, span⟩

/-
  A parameter of a lambda.  Its type may be left out, and is
  no union, whose bar would close the parameters.
-/
def lambdaParameter : Parser Parameter := do
  let name ← expectName
  let type ←
    if ← accept .colon then
      typeExpr .logicalOr
    else
      pure (.new .absent name.span)
  let span := name.span.between type.span
  let definition ←
    declare name .argument span name.span.start.offset false
  return ⟨name.name, type, none, definition, span⟩

/-
  Parameters in parentheses, and the type behind an arrow,
  if there is one.
-/
def signature : Parser (List Parameter × TypeExpr) := do
  let _ ← expect .openParen "'('"
  let parameters ←
    separated .comma .closeParen (parameter nested)
  let stop ← expect .closeParen "')'"
  let returnType ← optionalType .arrow stop.span
  return (parameters, returnType)

------------------------------------------------------------
-- Literals
------------------------------------------------------------

/- An integer literal. -/
def intLiteral (token : Token) : Parser Expr :=
  match intForm? token.value with
  | some form => return .new form token.span
  | none =>
      fail (.invalidIntLiteral token.value) token.span.start

/- A truth value. -/
def booleanLiteral (token : Token) : Parser Expr :=
  return .new (.boolean (token.kind = .kwTrue)) token.span

/- The part of a string that a token begins. -/
def stringPart (token : Token) : Parser StringPart :=
  match token.kind with
  | .stringContent => return .text token.value token.span
  | .escapeSequence =>
      match unescape? token.value with
      | some c => return .text c.toString token.span
      | none =>
          fail (.invalidEscapeSequence token.value)
            token.span.start
  | .stringTemplateStart => do
      let e ← nested.required .loosest
      let _ ← expect .stringTemplateEnd "'\x7d'"
      return .embedded e
  | .unexpectedCharacter =>
      fail (.unexpectedCharacter token.value)
        token.span.start
  | _ =>
      fail (.unexpectedStringPart token.value)
        token.span.start

/- The next part of a string, if there is one. -/
def nextStringPart : Parser (Option StringPart) := do
  if !(← check .stringEnd) && (← hasMore) then
    return some (← stringPart nested (← consume))
  else
    return none

/- A string behind its opening quote. -/
def stringLiteral (token : Token) : Parser Expr := do
  let parts ← collect (nextStringPart nested)
  let stop ← expect .stringEnd "'\"'"
  return .new (stringForm parts)
    (token.span.between stop.span)

------------------------------------------------------------
-- Compound expressions
------------------------------------------------------------

/- A name, or a call of it if a parenthesis follows. -/
def reference (token : Token) : Parser Expr := do
  if ← accept .openParen then
    let (items, stop) ← arguments nested
    return .invocation token.name items
      (token.span.between stop)
  else
    return .reference token.name token.span

/- A unary operator and its operand. -/
def unary (token : Token) : Parser Expr := do
  let operator : UnaryOperator :=
    if token.kind = .kwNot then .not else .negate
  let operand ← nested.required .unary
  return .new (.unary operator operand)
    (token.span.between operand.span)

/- An expression in parentheses. -/
def grouping (token : Token) : Parser Expr := do
  let inner ← nested.required .loosest
  let stop ← expect .closeParen "')'"
  return .new (.parenthesized inner)
    (token.span.between stop.span)

/- The branch behind `else`, if there is one. -/
def elseBranch : Parser (Option Expr) := do
  if ← accept .kwElse then
    return some (← nested.required .loosest)
  else
    return none

/- A conditional behind its first word. -/
def conditional (token : Token) : Parser Expr := do
  let _ ← expect .openParen "'('"
  let condition ← nested.required .loosest
  let _ ← expect .closeParen "')'"
  let thenBranch ← nested.required .loosest
  let otherwise ← elseBranch nested
  let stop :=
    (otherwise.map (·.span)).getD thenBranch.span
  return .new
    (.conditional condition thenBranch otherwise)
    (token.span.between stop)

/- The body of a function: a value behind `=`, or a block. -/
def functionBody : Parser (Option Expr) := do
  match ← assigned nested with
  | some e => return some e
  | none =>
      if ← check .openCurly then
        return some (← nested.block (← consume))
      else
        return none

/- A function without a name, behind its first word. -/
def functionLiteral (token : Token) : Parser Expr := do
  if ← checkName then
    fail .namedAnonymousFunction (← position)
  else
    inNewScope fun scope => do
      let (parameters, returnType) ← signature nested
      match ← functionBody nested with
      | none => fail .missingFunctionBody (← position)
      | some body =>
          return .new
            (.function parameters returnType body scope)
            (token.span.between body.span)

/- A lambda behind its first bar. -/
def lambda (token : Token) : Parser Expr :=
  inNewScope fun scope => do
    let parameters ←
      separated .comma .pipe lambdaParameter
    let _ ← expect .pipe "'|'"
    let body ← nested.required .loosest
    return .new (.lambda parameters body scope)
      (token.span.between body.span)

/- A return, with a value if an expression follows. -/
def ret (token : Token) : Parser Expr := do
  let value ← nested.expression .loosest
  let stop := (value.map (·.span)).getD token.span
  return .new (.ret value) (token.span.between stop)

------------------------------------------------------------
-- Extensions
------------------------------------------------------------

/- A binary operation behind its operator. -/
def binary
    (left : Expr)
    (operator : Token)
    (power : Power) :
    Parser Expr := do
  match operator.kind.binaryOperator? with
  | none =>
      fail
        (.unexpectedToken operator.value "binary operator")
        operator.span.start
  | some o =>
      let right ← nested.required power
      return .new (.binary left o right)
        (left.span.between right.span)

/-
  An assignment behind its operator.  Its value may be an
  assignment again.
-/
def assignment
    (left : Expr)
    (operator : Token)
    (power : Power) :
    Parser Expr := do
  match operator.kind.assignmentOperator? with
  | none =>
      fail
        (.unexpectedToken operator.value
          "assignment operator")
        operator.span.start
  | some o =>
      let value ← nested.required power.lower
      return .new (.assignment left o value)
        (left.span.between value.span)

/- An access to a member behind its operator. -/
def memberAccess
    (left : Expr)
    (operator : Token)
    (power : Power) :
    Parser Expr := do
  if ← checkName then
    let right ← nested.required power
    if right.isReferenceOrInvocation then
      return .new
        (.access left (operator.kind = .questionDot) right)
        (left.span.between right.span)
    else
      fail .expectedInvocationOrReference right.span.start
  else
    unexpected "member name"

/- A call of any expression, behind its parenthesis. -/
def call (left : Expr) : Parser Expr := do
  let (items, stop) ← arguments nested
  return .new (.call left items) (left.span.between stop)

end Grammar

------------------------------------------------------------
-- Expressions
------------------------------------------------------------

/- The expression that a token begins. -/
def Starter.parser
    (starter : Starter)
    (nested : Nested)
    (token : Token) :
    Parser Expr :=
  match starter with
  | int => Grammar.intLiteral token
  | boolean => Grammar.booleanLiteral token
  | string => Grammar.stringLiteral nested token
  | reference => Grammar.reference nested token
  | unary => Grammar.unary nested token
  | grouping => Grammar.grouping nested token
  | block => nested.block token
  | conditional => Grammar.conditional nested token
  | function => Grammar.functionLiteral nested token
  | lambda => Grammar.lambda nested token
  | ret => Grammar.ret nested token

/- What an operator makes of the expression before it. -/
def Extender.parser
    (extender : Extender)
    (nested : Nested)
    (left : Expr)
    (operator : Token)
    (power : Power) :
    Parser Expr :=
  match extender with
  | binary => Grammar.binary nested left operator power
  | assignment =>
      Grammar.assignment nested left operator power
  | member => Grammar.memberAccess nested left operator power
  | call => Grammar.call nested left

namespace Grammar

open SourceCheck.Parser

/-
  Extend an expression once, if the current token is an
  operator that binds more tightly than the power.
-/
def extend
    (nested : Nested)
    (power : Power)
    (left : Expr) :
    Parser (Option Expr) := do
  match (← current).kind.extender? with
  | none => return none
  | some (extender, operatorPower) =>
      if power < operatorPower then
        let operator ← consume
        return some
          (← extender.parser nested left operator
            operatorPower)
      else
        return none

/-
  An expression whose operators bind more tightly than the
  power.  If the current token starts no expression it is
  given back.
-/
def expression
    (nested : Nested)
    (power : Power) :
    Parser (Option Expr) := do
  let token ← consume
  match token.kind.starter? with
  | none =>
      unconsume
      return none
  | some starter =>
      let first ← starter.parser nested token
      return some (← loop (extend nested power) first)

end Grammar

end SourceCheck
