import SourceCheck.Token.Lexeme

/-
  Dividing a source text into tokens.

  Nothing is refused: a character that begins no token is a
  token of a kind of its own.  The last token is always the
  end of the text.

  Key definitions include:
    * `Lexer`
    * `Lexer.start`
    * `Lexer.tokens`
    * `tokenize`
-/

namespace SourceCheck

------------------------------------------------------------
-- States
------------------------------------------------------------

/-
  A place in a source text, what is open there, innermost
  first, and the rest of the text.
-/
structure Lexer where
  position : Position
  enclosures : List Enclosure
  rest : List Char
deriving DecidableEq

namespace Lexer

/- The name of a source that is in no file. -/
def unnamed : String :=
  "shell"

/- The start of a source text. -/
def start
    (source : String)
    (file? : Option String) :
    Lexer where
  position := Position.first (file?.getD unnamed)
  enclosures := []
  rest := source.toList

/- The mode of the lexer. -/
def mode (l : Lexer) : Mode :=
  Mode.ofEnclosures l.enclosures

/- The text that is left. -/
def remainder (l : Lexer) : String :=
  String.ofList l.rest

/- No text is left. -/
def atEnd (l : Lexer) : Bool :=
  l.rest.isEmpty

------------------------------------------------------------
-- Tokens
------------------------------------------------------------

/- What is open behind a lexeme. -/
def enclosuresAfter
    (kind? : Option TokenKind)
    (enclosures : List Enclosure) :
    List Enclosure :=
  match kind? with
  | none => enclosures
  | some kind => Enclosure.after kind enclosures

/- The tokens of the rest of a text. -/
def tokensFrom
    (position : Position)
    (enclosures : List Enclosure) :
    List Char → List Token
  | [] => [⟨.eof, "EOF", Span.point position⟩]
  | c :: cs =>
      let piece := lexeme enclosures c cs
      let text := c :: cs.take piece.more
      let stop := position.afterAll text
      let later :=
        tokensFrom stop
          (enclosuresAfter piece.kind enclosures)
          (cs.drop piece.more)
      match piece.kind with
      | none => later
      | some kind =>
          ⟨kind, String.ofList text, ⟨position, stop⟩⟩ ::
            later
termination_by cs => cs.length
decreasing_by
  simp only [List.length_drop, List.length_cons]
  omega

/- The tokens from a state on. -/
def tokens (l : Lexer) : List Token :=
  tokensFrom l.position l.enclosures l.rest

end Lexer

/- The tokens of a source text. -/
def tokenize
    (source : String)
    (file? : Option String) :
    List Token :=
  (Lexer.start source file?).tokens

end SourceCheck
