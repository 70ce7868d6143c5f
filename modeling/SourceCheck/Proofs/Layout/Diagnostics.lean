import Mathlib
import SourceCheck.Check
import SourceCheck.Proofs.Annotations.Programs
import SourceCheck.Proofs.Layout.Lines
import SourceCheck.Proofs.Lexing.Division

/-
  Where diagnostics stand.

  Whatever is wrong with a source, it is reported at the start
  of one of its tokens, be that the end of the text.  So the
  line of a diagnostic is found by its offset, and the line
  and the column of the diagnostic say where that is.

  Key theorems include:
    * `stage_of_error`
    * `isShown_of_token`
    * `shown_of_error`
-/

namespace SourceCheck

/- A check fails in the parser, or in the resolver. -/
theorem stage_of_error
    {l : Library}
    {source file : String}
    {ds : List Diagnostic}
    (hFailed : compile l source file = .error ds) :
    parseProgram source file = .error ds ∨
      ∃ p,
        parseProgram source file = .ok p ∧
          (resolveProgram l p).2 = ds := by
  unfold compile at hFailed
  cases hParse : parseProgram source file with
  | error es =>
      rw [hParse] at hFailed
      cases hFailed
      exact .inl rfl
  | ok p =>
      rw [hParse] at hFailed
      dsimp only [bind, Except.bind] at hFailed
      split at hFailed
      · cases hFailed
      · rename_i hResolved
        cases hFailed
        exact .inr ⟨p, rfl, congrArg Prod.snd hResolved⟩

/- Every report of a check stands at the start of a token. -/
theorem isStart_of_error
    {l : Library}
    {source file : String}
    {ds : List Diagnostic}
    (hFailed : compile l source file = .error ds) :
    ∀ d ∈ ds,
      IsStart (IsTokenOf source file) d.position := by
  rcases stage_of_error hFailed with
    hParse | ⟨p, hParse, rfl⟩
  · exact (located_parseProgram source file).2 ds hParse
  · exact (traced_resolveProgram hParse l).2.2

/- The start of a token is shown in its line. -/
theorem isShown_of_token
    {source : String}
    {file? : Option String}
    {t : Token}
    (hToken : t ∈ tokenize source file?) :
    t.span.start.IsShown source := by
  rcases (tokenize_divides source file?).place t hToken
      t.span.start List.mem_cons_self with
    ⟨before, after, hSource, hMarks⟩
  exact hMarks.isShown hSource

/-
  Diagnostics point at real places.  Each stands at the start
  of a token of the source, which may be its end, and the line
  that is found by its offset is the one of its line number,
  where as many characters as its column says stand before.
-/
theorem shown_of_error
    {l : Library}
    {source file : String}
    {ds : List Diagnostic}
    (hFailed : compile l source file = .error ds) :
    ∀ d ∈ ds,
      (∃ t ∈ tokenize source (some file),
          d.position = t.span.start) ∧
        d.position.IsShown source := by
  intro d hMember
  rcases isStart_of_error hFailed d hMember with
    ⟨t, hToken, hPlace⟩
  refine ⟨⟨t, hToken, hPlace⟩, ?_⟩
  rw [hPlace]
  exact isShown_of_token hToken

/- The lines of what is reported, and the columns there. -/
def reportedPlaces :
    Except (List Diagnostic) Program → List (Nat × Nat)
  | .ok _ => []
  | .error ds =>
      ds.map fun d => (d.position.line, d.position.column)

/- What is missing at the end of a text is in an empty line. -/
theorem shown_of_error_open :
    ∃ ds,
      compile .empty "fun f(\n" "main" = .error ds ∧
        (ds.map fun d =>
            (d.position.line, d.position.column)) =
          [(2, 1)] ∧
          ∀ d ∈ ds,
            (∃ t ∈ tokenize "fun f(\n" (some "main"),
                d.position = t.span.start) ∧
              d.position.IsShown "fun f(\n" := by
  have hPlaces :
      reportedPlaces (compile .empty "fun f(\n" "main") =
        [(2, 1)] := by
    cbv
  cases hCompile : compile .empty "fun f(\n" "main" with
  | ok program =>
      rw [hCompile] at hPlaces
      cases hPlaces
  | error ds =>
      rw [hCompile] at hPlaces
      exact ⟨ds, rfl, hPlaces, shown_of_error hCompile⟩

end SourceCheck
