import SourceCheck.Source.Position
import SourceCheck.Text.Quoted

/-
  Tokens: the words of a source text.

  Key definitions include:
    * `TokenKind`
    * `TokenKind.all`
    * `TokenKind.ofWord`
    * `TokenKind.isName`
    * `Token`
    * `Token.name`
    * `Token.text`
-/

namespace SourceCheck

------------------------------------------------------------
-- Kinds
------------------------------------------------------------

/- What a token is. -/
inductive TokenKind where
  | eof
  | intLiteral
  | identifier
  | escapedIdentifier
  | openBracket
  | closeBracket
  | openCurly
  | closeCurly
  | openParen
  | closeParen
  | mapStart
  | tupleStart
  | assignment
  | equals
  | notEquals
  | less
  | lessEquals
  | greater
  | greaterEquals
  | dot
  | questionDot
  | question
  | semicolon
  | colon
  | comma
  | arrow
  | pipe
  | ampersand
  | plusEquals
  | minusEquals
  | slashEquals
  | starEquals
  | plus
  | dash
  | slash
  | star
  | percent
  | stringStart
  | stringContent
  | escapeSequence
  | stringTemplateStart
  | stringTemplateEnd
  | stringEnd
  | unexpectedCharacter
  | kwFun
  | kwVal
  | kwVar
  | kwTrue
  | kwFalse
  | kwReturn
  | kwIf
  | kwElse
  | kwAnd
  | kwOr
  | kwNot
  | kwAs
  | kwImport
  | kwSet
  | kwGet
deriving DecidableEq, Inhabited

namespace TokenKind

/- Every kind, in the order of declaration. -/
def all : List TokenKind :=
  [ eof, intLiteral, identifier, escapedIdentifier,
    openBracket, closeBracket, openCurly, closeCurly,
    openParen, closeParen, mapStart, tupleStart,
    assignment, equals, notEquals, less, lessEquals,
    greater, greaterEquals, dot, questionDot, question,
    semicolon, colon, comma, arrow, pipe, ampersand,
    plusEquals, minusEquals, slashEquals, starEquals,
    plus, dash, slash, star, percent, stringStart,
    stringContent, escapeSequence, stringTemplateStart,
    stringTemplateEnd, stringEnd, unexpectedCharacter,
    kwFun, kwVal, kwVar, kwTrue, kwFalse, kwReturn, kwIf,
    kwElse, kwAnd, kwOr, kwNot, kwAs, kwImport, kwSet,
    kwGet ]

theorem mem_all (kind : TokenKind) : kind ∈ all := by
  cases kind <;> decide

/- The name of a kind. -/
def name : TokenKind → String
  | eof => "EOF"
  | intLiteral => "IntLiteral"
  | identifier => "Identifier"
  | escapedIdentifier => "EscapedIdentifier"
  | openBracket => "OpenBracket"
  | closeBracket => "CloseBracket"
  | openCurly => "OpenCurly"
  | closeCurly => "CloseCurly"
  | openParen => "OpenParen"
  | closeParen => "CloseParen"
  | mapStart => "MapStart"
  | tupleStart => "TupleStart"
  | assignment => "Assignment"
  | equals => "Equals"
  | notEquals => "NotEquals"
  | less => "Less"
  | lessEquals => "LessEquals"
  | greater => "Greater"
  | greaterEquals => "GreaterEquals"
  | dot => "Dot"
  | questionDot => "QuestionDot"
  | question => "Question"
  | semicolon => "Semicolon"
  | colon => "Colon"
  | comma => "Comma"
  | arrow => "Arrow"
  | pipe => "Pipe"
  | ampersand => "Ampersand"
  | plusEquals => "PlusEquals"
  | minusEquals => "MinusEquals"
  | slashEquals => "SlashEquals"
  | starEquals => "StarEquals"
  | plus => "Plus"
  | dash => "Dash"
  | slash => "Slash"
  | star => "Star"
  | percent => "Percent"
  | stringStart => "StringStart"
  | stringContent => "StringContent"
  | escapeSequence => "EscapeSequence"
  | stringTemplateStart => "StringTemplateStart"
  | stringTemplateEnd => "StringTemplateEnd"
  | stringEnd => "StringEnd"
  | unexpectedCharacter => "UnexpectedCharacter"
  | kwFun => "Fun"
  | kwVal => "Val"
  | kwVar => "Var"
  | kwTrue => "True"
  | kwFalse => "False"
  | kwReturn => "Return"
  | kwIf => "If"
  | kwElse => "Else"
  | kwAnd => "And"
  | kwOr => "Or"
  | kwNot => "Not"
  | kwAs => "As"
  | kwImport => "Import"
  | kwSet => "Set"
  | kwGet => "Get"

/- The kind of a word: reserved words have their own. -/
def ofWord : String → TokenKind
  | "fun" => kwFun
  | "val" => kwVal
  | "var" => kwVar
  | "true" => kwTrue
  | "false" => kwFalse
  | "return" => kwReturn
  | "if" => kwIf
  | "else" => kwElse
  | "and" => kwAnd
  | "or" => kwOr
  | "not" => kwNot
  | "as" => kwAs
  | "import" => kwImport
  | "set" => kwSet
  | "get" => kwGet
  | _ => identifier

/- The kinds that may stand where a name is expected. -/
def names : List TokenKind :=
  [identifier, escapedIdentifier, kwSet, kwGet]

/- The kind may stand where a name is expected. -/
def isName (kind : TokenKind) : Bool :=
  names.contains kind

end TokenKind

------------------------------------------------------------
-- Tokens
------------------------------------------------------------

/- A token, its text and its place. -/
structure Token where
  kind : TokenKind
  value : String
  span : Span
deriving DecidableEq, Inhabited

namespace Token

/-
  The name that a token stands for.  An escaped identifier
  stands for its text without the back-ticks before it.
-/
def name (t : Token) : String :=
  if t.kind = .escapedIdentifier then
    String.ofList (t.value.toList.dropWhile (· == '\x60'))
  else
    t.value

/- The kind and the quoted text of a token. -/
def text (t : Token) : String :=
  t.kind.name ++ " (" ++ quoted t.value ++ ")"

end Token

end SourceCheck
