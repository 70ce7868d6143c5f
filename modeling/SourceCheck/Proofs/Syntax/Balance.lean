import Mathlib
import SourceCheck.Proofs.Syntax.Appending

/-
  The tokens of accepted texts.

  Each token of an accepted text is passed by a rule that
  names its kind.  So none of them is refused, and brackets
  are closed in the order in which they are nested.

  The main statement is `balanced_of_parseProgram`.
-/

namespace SourceCheck

open SourceCheck.ParserState

/-
  No token of an accepted text is refused, and those that
  open or close brackets are a balanced word.
-/
theorem balanced_of_parseProgram
    {source file : String}
    {p : Program}
    (hAccepted : parseProgram source file = .ok p) :
    (∀ t ∈ tokenize source (some file),
        t.kind ∉
          [ TokenKind.unexpectedCharacter, .mapStart,
            .tupleStart, .question, .openBracket,
            .closeBracket ]) ∧
      Balanced
        (((tokenize source (some file)).map (·.kind)).filter
          TokenKind.isBracket) := by
  have hDerives := derivesProgram_of_parseProgram hAccepted
  rcases hDerives with ⟨hImports, hDeclarations⟩
  have hCrosses :=
    hImports.crosses.trans hDeclarations.crosses
  have hStart :
      (ParserState.initial source file).opened.Ended :=
    ended_initial source file
  have hEnd := hDeclarations.kind_eq
  rcases tokens_of_crosses (ofSource_eq source file).2.1
    hCrosses (hStart.crosses hCrosses) hEnd with
    ⟨ts, last, hTokens, hBrackets, -⟩
  have hOrder := tokensInOrder_tokenize source (some file)
  rw [hTokens] at hOrder
  have hLast : last.kind = .eof := hOrder.ends_concat.1
  rw [hTokens]
  constructor
  · intro t hMember
    rcases List.mem_append.1 hMember with hIn | hIn
    · exact (not_refused_of_bracketsAfter hBrackets hIn).1
    · rw [List.mem_singleton.1 hIn, hLast]
      decide
  · rw [List.map_append, List.filter_append,
      List.map_singleton, hLast]
    exact (List.append_nil _).symm ▸
      balanced_of_bracketsAfter hBrackets

/- A block in a template, in a string, in parentheses. -/
theorem balanced_of_parseProgram_template :
    ∃ p,
      parseProgram "val s = (\"\\\x7b\x7b1\x7d\x7d\");"
          "main" = .ok p ∧
        Balanced
          [ TokenKind.openParen, .stringStart,
            .stringTemplateStart, .openCurly, .closeCurly,
            .stringTemplateEnd, .stringEnd, .closeParen ] := by
  have hKinds :
      (tokenize "val s = (\"\\\x7b\x7b1\x7d\x7d\");"
          (some "main")).map (·.kind) =
        [ TokenKind.kwVal, .identifier, .assignment,
          .openParen, .stringStart, .stringTemplateStart,
          .openCurly, .intLiteral, .closeCurly,
          .stringTemplateEnd, .stringEnd, .closeParen,
          .semicolon, .eof ] := by
    cbv
  have hParse :
      ∃ p,
        parseProgram "val s = (\"\\\x7b\x7b1\x7d\x7d\");"
          "main" = .ok p := by
    refine ⟨?p, ?_⟩
    rotate_left
    conv => lhs; cbv
  rcases hParse with ⟨p, hAccepted⟩
  have hBalanced := (balanced_of_parseProgram hAccepted).2
  rw [hKinds] at hBalanced
  exact ⟨p, hAccepted, hBalanced⟩

end SourceCheck
