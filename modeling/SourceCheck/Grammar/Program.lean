import SourceCheck.Grammar.Statement

/-
  The grammar of whole programs.

  A program is a list of imports, and then a list of
  declarations.  Where one of them fails the parser goes on
  at the next word that can start one.

  Key definitions include:
    * `Grammar.importFrom`
    * `Grammar.declaration`
    * `Grammar.program`
    * `parseProgram`
    * `parseExpression`
-/

namespace SourceCheck

namespace Grammar

open SourceCheck.Parser

------------------------------------------------------------
-- Imports
------------------------------------------------------------

/-
  Where programs can go on: at a word that starts a
  declaration or an import.
-/
def topLevelCheckpoint (s : TokenStream) : Bool :=
  s.checkAny [.kwFun, .kwVal, .kwVar, .kwImport]

/- A name to import, maybe under another name. -/
def importEntry : Parser ImportEntry := do
  let name ← expectName
  if ← accept .kwAs then
    let newName ← expectName
    let span := name.span.between newName.span
    return ⟨name.name, some newName.name, span⟩
  else
    return ⟨name.name, none, name.span⟩

/- The path of an import, which must be a plain string. -/
def plainPath (path : Expr) : Parser String :=
  match path.form with
  | .string value => return value
  | _ => fail .templateImportPath path.span.start

/-
  An import.  The path is judged last, so that the names
  behind it are read in any case.
-/
def importFrom (nested : Nested) : Parser Import := do
  let keyword ← expect .kwImport "'import'"
  let quote ← expect .stringStart "import path"
  let path ← stringLiteral nested quote
  let _ ← expect .openCurly "'\x7b'"
  let entries ← separated .comma .closeCurly importEntry
  let stop ← expect .closeCurly "'\x7d'"
  let value ← plainPath path
  let span := keyword.span.between stop.span
  return ⟨value, entries, span, false⟩

/- An import, or nothing if it fails. -/
def recoveredImport
    (nested : Nested) :
    Parser (Option Import) :=
  recovering topLevelCheckpoint (importFrom nested)

/- The next import, if there is one. -/
def nextImport
    (nested : Nested) :
    Parser (Option (Option Import)) := do
  if (← hasMore) && (← check .kwImport) then
    return some (← recoveredImport nested)
  else
    return none

------------------------------------------------------------
-- Declarations
------------------------------------------------------------

/- A declaration outside of all functions. -/
def declaration (nested : Nested) : Parser Declaration := do
  match (← current).kind with
  | .kwFun => return .function (← functionDecl nested)
  | .kwVal =>
      return .property (← variableDecl nested .property)
  | .kwVar =>
      return .property (← variableDecl nested .property)
  | .kwImport => fail .importAfterDeclaration (← position)
  | .unexpectedCharacter =>
      unexpected "top level declaration"
  | _ => fail .expectedTopLevelDeclaration (← position)

/- The next declaration, if the text goes on. -/
def nextDeclaration
    (nested : Nested) :
    Parser (Option (Option Declaration)) := do
  if ← hasMore then
    return some
      (← recovering topLevelCheckpoint (declaration nested))
  else
    return none

------------------------------------------------------------
-- Programs
------------------------------------------------------------

/-
  The place of a program, from its first import or
  declaration to the end of the text.
-/
def programSpan
    (imports : List Import)
    (declarations : List Declaration)
    (stop : Span) :
    Span :=
  let starts :=
    imports.map (·.span) ++ declarations.map (·.span)
  (starts.headD stop).between stop

/- A whole program. -/
def program (nested : Nested) : Parser Program :=
  inNewScope fun scope => do
    let imports ← collect (nextImport nested)
    let declarations ← collect (nextDeclaration nested)
    let stop ← expect .eof "end of file"
    let symbols ← takeSymbols
    let imports := imports.filterMap id
    let declarations := declarations.filterMap id
    let span := programSpan imports declarations stop.span
    return ⟨imports, declarations, scope, symbols, span⟩

end Grammar

------------------------------------------------------------
-- Parsing a source text
------------------------------------------------------------

/- The program of a source text. -/
def parseProgram
    (source file : String) :
    Except (List Diagnostic) Program :=
  parse source file (Grammar.closed Grammar.program)

/-
  The expression at the start of a source text.  What
  follows it is not read.
-/
def parseExpression
    (source file : String) :
    Except (List Diagnostic) Expr :=
  parse source file
    (Grammar.closed fun nested => nested.required .loosest)

end SourceCheck
