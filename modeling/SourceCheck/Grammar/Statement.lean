import SourceCheck.Grammar.Expression

/-
  The grammar of declarations, statements and blocks.

  Statements and blocks lie within each other, so that the
  parser of nested blocks is given, as for expressions.  The
  knot is tied here: `nestedWithin` gives parsers that are
  right for everything nested less deeply than a bound, and
  no text is nested more deeply than its length allows.

  Key definitions include:
    * `Grammar.variableDecl`
    * `Grammar.functionDecl`
    * `Grammar.statement`
    * `Grammar.block`
    * `Grammar.nestedWithin`
    * `Grammar.closed`
-/

namespace SourceCheck

namespace Grammar

open SourceCheck.Parser

------------------------------------------------------------
-- Declarations
------------------------------------------------------------

/-
  A variable, whose first word says whether it is mutable.
  It is visible behind its declaration.
-/
def variableDecl
    (nested : Nested)
    (kind : DefinitionKind) :
    Parser VariableDecl := do
  let keyword ← consume
  let isMutable := keyword.kind = .kwVar
  let name ← expectName
  let type ← optionalType .colon name.span
  let initializer ← assigned nested
  let stop ← expect .semicolon "';'"
  let span := keyword.span.between stop.span
  let definition ←
    declare name kind span span.stop.offset isMutable
  return ⟨isMutable, name.name, type, initializer, definition,
      span⟩

/-
  The body of a named function: a value behind `=`, which a
  semicolon ends, or a block, or none.
-/
def namedFunctionBody
    (nested : Nested) :
    Parser (Option Expr) := do
  match ← assigned nested with
  | some e =>
      let _ ← expect .semicolon "';'"
      return some e
  | none =>
      if ← check .openCurly then
        return some (← nested.block (← consume))
      else
        let _ ← accept .semicolon
        return none

/-
  A function with a name.  The name belongs to the scope
  around the function, and is visible from itself on.
-/
def functionDecl (nested : Nested) : Parser FunctionDecl := do
  let keyword ← expect .kwFun "'fun'"
  let name ← expectName
  let (parameters, returnType, body, scope) ←
    inNewScope fun scope => do
      let (parameters, returnType) ← signature nested
      let body ← namedFunctionBody nested
      return (parameters, returnType, body, scope)
  let stop ← previous
  let span := keyword.span.between stop.span
  let definition ←
    declare name .function span name.span.start.offset false
  return ⟨name.name, parameters, returnType, body, scope,
      definition, span⟩

------------------------------------------------------------
-- Statements
------------------------------------------------------------

/-
  An expression and a semicolon, which may be left out
  behind a closing brace and before one.
-/
def expressionStatement
    (nested : Nested) :
    Parser Statement := do
  let e ← nested.required .loosest
  if ← accept .semicolon then
    return .expression e
  else if e.endsWithBlock then
    return .expression e
  else if ← check .closeCurly then
    return .expression e
  else
    unexpected "';'"

/- The token behind the current one may stand for a name. -/
def nextIsName : Parser Bool := do
  let _ ← consume
  let isName ← checkName
  unconsume
  return isName

/- A statement of a block. -/
def statement (nested : Nested) : Parser Statement := do
  match (← current).kind with
  | .kwVal =>
      return .variable (← variableDecl nested .localVariable)
  | .kwVar =>
      return .variable (← variableDecl nested .localVariable)
  | .kwFun =>
      if ← nextIsName then
        return .function (← functionDecl nested)
      else
        expressionStatement nested
  | _ => expressionStatement nested

/-
  Where statements can go on: behind a semicolon, at a word
  that starts a statement, and at the end of the block.
-/
def blockCheckpoint (s : TokenStream) : Bool :=
  s.previous.kind = .semicolon ||
    s.checkAny
      [.kwFun, .kwVal, .kwVar, .kwReturn, .kwIf,
        .closeCurly]

/-
  The next statement of a block, if the block goes on; a
  statement with a failure in it is left out.
-/
def nextStatement
    (nested : Nested) :
    Parser (Option (Option Statement)) := do
  if !(← check .closeCurly) && (← hasMore) then
    return some
      (← recovering blockCheckpoint (statement nested))
  else
    return none

/- A block behind its opening brace. -/
def block
    (nested : Nested)
    (start : Token) :
    Parser Expr :=
  inNewScope fun scope => do
    let statements ← collect (nextStatement nested)
    let stop ← expect .closeCurly "'\x7d'"
    return .new (.block (statements.filterMap id) scope)
      (start.span.between stop.span)

------------------------------------------------------------
-- Tying the knot
------------------------------------------------------------

/-
  Parsers of expressions and blocks that are nested less
  deeply than the bound.
-/
def nestedWithin : Nat → Nested
  | 0 =>
      { expression := fun _ => pure none
        block := fun _ => missingExpression }
  | depth + 1 =>
      { expression := fun power =>
          expression (nestedWithin depth) power
        block := fun start =>
          block (nestedWithin depth) start }

/-
  Run a parser with parsers for all that can be nested in
  the tokens that are left.  Each token opens at most one
  expression and one block.
-/
def closed
    {α : Type}
    (parser : Nested → Parser α) :
    Parser α := do
  let tokens := (← get).stream.ahead
  parser (nestedWithin (2 * tokens.length + 2))

end Grammar

end SourceCheck
