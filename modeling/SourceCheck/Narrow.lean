import SourceCheck.Check

/-
  Checking source texts with places of 32 bits.

  The offset of a place is cut to its last 32 bits, so that
  the offsets of a text that is long enough start from zero
  again.  Lines and columns are counted in 32 bits as well.

  Key definitions include:
    * `Position.narrow`
    * `tokenizeNarrow`
    * `parseProgramNarrow`
    * `compileNarrow`
-/

namespace SourceCheck

------------------------------------------------------------
-- Places
------------------------------------------------------------

/- What 32 bits hold of a place. -/
def Position.narrow (p : Position) : Position where
  offset := p.offset % UInt32.size
  line := p.line % UInt32.size
  column := p.column % UInt32.size
  file := p.file

/- What 32 bits hold of both ends of a span. -/
def Span.narrow (s : Span) : Span :=
  ⟨s.start.narrow, s.stop.narrow⟩

/- The same token, with places of 32 bits. -/
def Token.narrow (t : Token) : Token :=
  { t with span := t.span.narrow }

------------------------------------------------------------
-- Source texts
------------------------------------------------------------

/- The tokens of a source text in a file. -/
def tokenizeNarrow (source file : String) : List Token :=
  (tokenize source (some file)).map Token.narrow

/- The program of a source text. -/
def parseProgramNarrow
    (source file : String) :
    Except (List Diagnostic) Program :=
  parseStream (.ofTokens (tokenizeNarrow source file)) file
    (Grammar.closed Grammar.program)

/- The program of a source text with all types resolved. -/
def compileNarrow
    (library : Library)
    (source file : String) :
    Except (List Diagnostic) Program := do
  let program ← parseProgramNarrow source file
  match resolveProgram library program with
  | (resolved, []) => .ok resolved
  | (_, diagnostics) => .error diagnostics

end SourceCheck
