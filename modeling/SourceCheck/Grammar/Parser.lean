import SourceCheck.Diagnostic.Basic
import SourceCheck.Scope.Symbols
import SourceCheck.Token.Stream

/-
  Parsers: actions that read tokens, open scopes, make
  definitions and report diagnostics.

  A parser that fails gives the diagnostic that stopped it
  and leaves everything as it was at that point; reported
  diagnostics do not stop a parser.

  Key definitions include:
    * `ParserState`
    * `Parser`
    * `Parser.expect`
    * `Parser.declare`
    * `Parser.inNewScope`
    * `Parser.recovering`
    * `Parser.loop`
    * `Parser.collect`
    * `Parser.separated`
    * `parseStream`
    * `parse`
-/

namespace SourceCheck

------------------------------------------------------------
-- States
------------------------------------------------------------

/-
  Where a parser is: the tokens, the symbols made so far,
  the open scopes, innermost first, and the diagnostics
  reported so far, in order.
-/
structure ParserState where
  stream : TokenStream
  file : String
  symbols : Symbols
  scopes : List ScopeId
  diagnostics : List Diagnostic

namespace ParserState

/- No scope is open yet and nothing was reported. -/
def start
    (stream : TokenStream)
    (file : String) :
    ParserState :=
  ⟨stream, file, .empty, [], []⟩

end ParserState

/- An action on a state that may fail. -/
abbrev Parser :=
  ExceptT Diagnostic (StateM ParserState)

namespace Parser

variable {α : Type}

------------------------------------------------------------
-- Tokens
------------------------------------------------------------

/- Look at the tokens. -/
def look (f : TokenStream → α) : Parser α := do
  return f (← get).stream

/- Move the cursor. -/
def move (f : TokenStream → TokenStream) : Parser PUnit :=
  modify fun s => { s with stream := f s.stream }

/- The token at the cursor. -/
def current : Parser Token :=
  look (·.current)

/- The token before the cursor. -/
def previous : Parser Token :=
  look (·.previous)

/- The place of the token at the cursor. -/
def position : Parser Position :=
  look (·.current.span.start)

/- The name of the source file. -/
def file : Parser String := do
  return (← get).file

/- The current token is of the kind. -/
def check (kind : TokenKind) : Parser Bool :=
  look (·.check kind)

/- The current token is of one of the kinds. -/
def checkAny (kinds : List TokenKind) : Parser Bool :=
  look (·.checkAny kinds)

/- The current token may stand where a name is expected. -/
def checkName : Parser Bool :=
  checkAny TokenKind.names

/- The current token is not the end of the text. -/
def hasMore : Parser Bool :=
  look (·.hasMore)

/- Take the current token. -/
def consume : Parser Token := do
  let token ← current
  move (·.consume)
  return token

/- Give the previous token back. -/
def unconsume : Parser PUnit :=
  move (·.unconsume)

/- Take the current token if it is of the kind. -/
def accept (kind : TokenKind) : Parser Bool := do
  if ← check kind then
    let _ ← consume
    return true
  else
    return false

------------------------------------------------------------
-- Failures and reports
------------------------------------------------------------

/- Fail with a problem at a place. -/
def fail (problem : Problem) (p : Position) : Parser α :=
  throw ⟨problem, p⟩

/-
  The diagnostic for a token that may not stand where it
  stands.
-/
def unexpectedToken
    (token : Token)
    (expected : String) :
    Diagnostic :=
  if token.kind = .unexpectedCharacter then
    ⟨.unexpectedCharacter token.value, token.span.start⟩
  else
    ⟨.unexpectedToken token.value expected,
      token.span.start⟩

/- Fail because of the current token. -/
def unexpected (expected : String) : Parser α := do
  throw (unexpectedToken (← current) expected)

/- Take a token of the kind, or fail. -/
def expect
    (kind : TokenKind)
    (expected : String) :
    Parser Token := do
  if ← check kind then
    consume
  else
    unexpected expected

/- Take a token that may stand for a name, or fail. -/
def expectName : Parser Token := do
  if ← checkName then
    consume
  else
    unexpected "identifier"

/- Report a diagnostic and go on. -/
def report (d : Diagnostic) : Parser PUnit :=
  modify fun s =>
    { s with diagnostics := s.diagnostics ++ [d] }

------------------------------------------------------------
-- Scopes and definitions
------------------------------------------------------------

/- The innermost open scope. -/
def currentScope : Parser ScopeId := do
  match (← get).scopes with
  | scope :: _ => return scope
  | [] => fail .emptyScopeStack (← position)

/-
  Make a definition and bind its name in the innermost
  scope.  A name that is bound there already keeps its
  binding, and a redefinition is reported.
-/
def declare
    (name : Token)
    (kind : DefinitionKind)
    (span : Span)
    (visibleFrom : Nat)
    (isMutable : Bool) :
    Parser DefinitionId := do
  let scope ← currentScope
  let s ← get
  let (id, symbols) :=
    s.symbols.addDefinition
      ⟨name.name, kind, span, visibleFrom, isMutable, none⟩
  match symbols.bind scope name.name id with
  | .ok bound => set { s with symbols := bound }
  | .error _ =>
      set { s with symbols := symbols }
      report ⟨.redefinition name.name, name.span.start⟩
  return id

/- Open a scope in the innermost one. -/
def openScope : Parser ScopeId := do
  let s ← get
  let (scope, symbols) :=
    s.symbols.openScope s.scopes.head?
  set
    { s with
      symbols := symbols
      scopes := scope :: s.scopes }
  return scope

/- Close the innermost scope. -/
def closeScope : Parser PUnit :=
  modify fun s => { s with scopes := s.scopes.tail }

/-
  Run a parser in a new scope, which is closed again
  whether or not the parser fails.
-/
def inNewScope (body : ScopeId → Parser α) : Parser α := do
  let scope ← openScope
  let a ← tryCatch (body scope) fun d => do
    closeScope
    throw d
  closeScope
  return a

/- Take the symbols, and leave none behind. -/
def takeSymbols : Parser Symbols := do
  let s ← get
  set { s with symbols := .empty }
  return s.symbols

------------------------------------------------------------
-- Recovery
------------------------------------------------------------

/-
  Report a failure of a parser that started at the cursor
  `start`, and move on to a checkpoint.  A parser that made
  no progress costs one token.
-/
def recover
    (checkpoint : TokenStream → Bool)
    (start : TokenStream)
    (d : Diagnostic) :
    Parser PUnit := do
  report d
  if (← look (·.index)) = start.index then
    move (·.consume)
  move (·.skipTo checkpoint)

/-
  Run a parser.  If it fails, report why and go on at the
  next checkpoint.
-/
def recovering
    (checkpoint : TokenStream → Bool)
    (body : Parser α) :
    Parser (Option α) := do
  let start ← look id
  tryCatch (some <$> body) fun d => do
    recover checkpoint start d
    return none

------------------------------------------------------------
-- Repetition
------------------------------------------------------------

/-
  Repeat a step until it gives nothing, but not more often
  than there are tokens in the budget, and once more.
-/
def loopWithin
    (step : α → Parser (Option α)) :
    List Token → α → Parser α
  | [], a => do
      return (← step a).getD a
  | _ :: budget, a => do
      match ← step a with
      | none => return a
      | some b => loopWithin step budget b

/-
  Repeat a step until it gives nothing.  Each step that
  gives something has to pass a token.
-/
def loop
    (step : α → Parser (Option α))
    (a : α) :
    Parser α := do
  loopWithin step (← get).stream.ahead a

/-
  Collect what a step gives until it gives nothing, but not
  more often than there are tokens in the budget, and once
  more.
-/
def collectWithin
    (step : Parser (Option α)) :
    List Token → Parser (List α)
  | [] => do
      return (← step).toList
  | _ :: budget => do
      match ← step with
      | none => return []
      | some a => return a :: (← collectWithin step budget)

/-
  Collect what a step gives until it gives nothing.  Each
  step that gives something has to pass a token.
-/
def collect (step : Parser (Option α)) : Parser (List α) :=
  do collectWithin step (← get).stream.ahead

/-
  The item behind a separator, unless a terminator follows
  the separator.
-/
def nextItem
    (separator terminator : TokenKind)
    (item : Parser α) :
    Parser (Option α) := do
  if ← accept separator then
    if ← check terminator then
      return none
    else
      return some (← item)
  else
    return none

/-
  Items with separators between them, up to a terminator,
  which is left.  The last item may be followed by a
  separator too.
-/
def separated
    (separator terminator : TokenKind)
    (item : Parser α) :
    Parser (List α) := do
  if ← check terminator then
    return []
  else
    let first ← item
    let others ←
      collect (nextItem separator terminator item)
    return first :: others

end Parser

------------------------------------------------------------
-- Parsing a source text
------------------------------------------------------------

/-
  Run a parser on tokens.  It succeeds if nothing was
  reported; the diagnostic that stopped it comes last.
-/
def parseStream
    {α : Type}
    (stream : TokenStream)
    (file : String)
    (parser : Parser α) :
    Except (List Diagnostic) α :=
  match parser.run.run (.start stream file) with
  | (.ok a, s) =>
      if s.diagnostics.isEmpty then
        .ok a
      else
        .error s.diagnostics
  | (.error d, s) => .error (s.diagnostics ++ [d])

/- Run a parser on a source text. -/
def parse
    {α : Type}
    (source file : String)
    (parser : Parser α) :
    Except (List Diagnostic) α :=
  parseStream (.ofSource source file) file parser

end SourceCheck
