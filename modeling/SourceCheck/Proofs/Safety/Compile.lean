import SourceCheck.Check
import SourceCheck.Proofs.Safety.Parsing
import SourceCheck.Proofs.Safety.Resolving
import SourceCheck.Proofs.Safety.Scanning

/-
  The whole check never stops the program.

  Whether or not a text is accepted, it is cut into tokens
  only where characters start, the tokens are read in range,
  and scopes and definitions are used by numbers that exist.
  No name is bound twice, also where a redefinition is
  reported.

  Key definitions include:
    * `CompilesSafely`

  The main statement is `compilesSafely`.
-/

namespace SourceCheck

open SourceCheck.Grammar

/-
  The parts of the check of a text: the scanner, which makes
  the tokens that the parser reads, the parser, the resolver,
  which goes on with the symbols of the parser, and searches
  in the symbols before and after that.
-/
structure CompilesSafely
    (library : Library)
    (source file : String) :
    Prop where
  scans :
    ∀ s,
      (Scanner.start source (some file)).Reaches s →
        s.Safe source
  tokens_eq :
    (Scanner.start source (some file)).scan =
      some (ParserState.initial source file).stream.tokens
  parses : (closed program).Safe (.initial source file)
  resolves :
    ∀ p,
      parseProgram source file = .ok p →
        (resolveParts library p).Safe (.start p.symbols)
  searches :
    ∀ p,
      parseProgram source file = .ok p →
        p.symbols.Searchable ∧
          (resolveProgram library p).1.symbols.Searchable

/-
  No text of fewer bytes than 32 bits can count stops the
  program that checks it, whatever library it is checked
  with.
-/
theorem compilesSafely
    {source : String}
    (hSize : source.utf8ByteSize < 2 ^ 32 - 1)
    (library : Library)
    (file : String) :
    CompilesSafely library source file where
  scans _ hReaches := Scanner.safe_of_reaches hSize hReaches
  tokens_eq := by
    have hShort : source.length < 2 ^ 32 := by
      have hBytes := length_le_utf8Length source.toList
      rw [← utf8ByteSize_eq, String.length_toList] at hBytes
      omega
    rw [Scanner.scan_start hShort, tokens_initial]
  parses := safe_closed_program source file
  resolves _ hParse := (safe_resolveParts hParse library).1
  searches _ hParse :=
    have hSound := (safe_resolveParts hParse library).2
    ⟨hSound.1.searchable, hSound.2.searchable⟩

/- A name that is defined twice, and an unfinished text. -/
theorem compilesSafely_redefinition :
    "fun f() \x7b val x = 1; val x = ".utf8ByteSize <
        2 ^ 32 - 1 ∧
      CompilesSafely .standard
        "fun f() \x7b val x = 1; val x = " "main" := by
  have hSize :
      "fun f() \x7b val x = 1; val x = ".utf8ByteSize <
        2 ^ 32 - 1 := by
    decide
  exact ⟨hSize, compilesSafely hSize .standard "main"⟩

end SourceCheck
