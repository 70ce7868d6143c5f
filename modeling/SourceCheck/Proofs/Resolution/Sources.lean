import Mathlib
import SourceCheck.Check
import SourceCheck.Proofs.Layout.Erasure
import SourceCheck.Proofs.Parsing.Sources
import SourceCheck.Proofs.Resolution.Layout

/-
  Checking sources that have the same tokens.

  White space, comments and line breaks change no outcome:
  such sources are both accepted, with the same trees, types
  and targets, or both refused because of the same problems.

  Key definitions include:
    * `SameChecks`

  Key theorems include:
    * `compile_sameChecks`
-/

namespace SourceCheck

/- Two checks end alike, but for the places they report. -/
inductive SameChecks :
    Except (List Diagnostic) Program →
      Except (List Diagnostic) Program → Prop where
  | accepted {a b}
      (hTrees : a.equivalent b = true)
      (hSlots : a.withoutPlaces = b.withoutPlaces) :
      SameChecks (.ok a) (.ok b)
  | refused {ds es}
      (hProblems :
        ds.map (·.problem) = es.map (·.problem)) :
      SameChecks (.error ds) (.error es)

/- Results of the resolver decide a check. -/
theorem sameChecks_of_resolved
    {a b : Program}
    {ds es : List Diagnostic}
    {A : Alignment}
    (hPrograms : A.Programs a b)
    (hProblems :
      ds.map (·.problem) = es.map (·.problem)) :
    SameChecks
      (match (a, ds) with
        | (resolved, []) => .ok resolved
        | (_, diagnostics) => .error diagnostics)
      (match (b, es) with
        | (resolved, []) => .ok resolved
        | (_, diagnostics) => .error diagnostics) := by
  have hSame := hPrograms.same
  cases ds with
  | nil =>
      rw [List.map_eq_nil_iff.1 hProblems.symm]
      exact .accepted hSame.2 hSame.1
  | cons d ds =>
      cases es with
      | nil => cases hProblems
      | cons e es => exact .refused hProblems

/- The check of a source depends on its tokens only. -/
theorem compile_sameChecks
    {source other : String}
    (hSame : SameTokens source other)
    (library : Library)
    (file otherFile : String) :
    SameChecks
      (compile library source file)
      (compile library other otherFile) := by
  have hLength :
      (tokenize source (some file)).length =
        (tokenize other (some otherFile)).length := by
    have hWords := congrArg List.length hSame
    rw [← word_tokenize source (some file),
      ← word_tokenize other (some otherFile),
      List.length_map, List.length_map] at hWords
    exact hWords
  have hMonotone :=
    Alignment.isMonotone_ofTokens
      (tokensInOrder_tokenize source (some file))
      (tokensInOrder_tokenize other (some otherFile))
      hLength
  have hParsed :=
    Comparison.parseProgram_sameResults hSame file otherFile
  unfold compile
  generalize parseProgram source file = x at hParsed
  generalize parseProgram other otherFile = y at hParsed
  cases hParsed with
  | error hProblems _ => exact .refused hProblems
  | ok hPrograms =>
      have hResolved :=
        Alignment.resolveProgram_rel hMonotone library
          hPrograms
      exact sameChecks_of_resolved hResolved.1 hResolved.2

/- A text on one line, and with a comment on several. -/
theorem compile_sameChecks_comment :
    SameTokens "fun f(x: int, y: int = x) = x + y;"
        "fun f(x: int, // one\n  y: int = x)\n= x+y ;" ∧
      SameChecks
        (compile .empty
          "fun f(x: int, y: int = x) = x + y;" "main")
        (compile .empty
          "fun f(x: int, // one\n  y: int = x)\n= x+y ;"
          "other") := by
  have hSame :
      SameTokens "fun f(x: int, y: int = x) = x + y;"
        "fun f(x: int, // one\n  y: int = x)\n= x+y ;" := by
    unfold SameTokens
    cbv
  exact ⟨hSame, compile_sameChecks hSame _ _ _⟩

end SourceCheck
