import Mathlib
import SourceCheck.Check
import SourceCheck.Proofs.Resolution.Scoping

/-
  Names and problems of whole programs.

  In an accepted program every name is bound as the scopes
  of the language say, and whatever is reported concerns the
  source text: no report is about a mistake of the checker.

  Key theorems include:
    * `uses_resolveProgram`
    * `concernsSource_of_error`
-/

namespace SourceCheck

open SourceCheck.Comparison

------------------------------------------------------------
-- Names
------------------------------------------------------------

/-
  Names are bound lexically.  For each name that is used by
  itself or called, the resolver records the definition that
  a walk with an environment finds, and none where the walk
  finds none.
-/
theorem uses_resolveProgram
    {source file : String}
    {program : Program}
    (hAccepted : parseProgram source file = .ok program)
    (library : Library) :
    (resolveProgram library program).1.uses =
      program.uses.map Use.settled :=
  (settled_of_derivesProgram
    (derivesProgram_of_parseProgram hAccepted) library).1

/-
  The variable shadows the parameter, but not in its own
  initial value.
-/
theorem uses_resolveProgram_shadowing :
    ∃ program,
      parseProgram "fun f(x: int) { val x = x; f(x, y); }"
          "main" = .ok program ∧
        (resolveProgram .empty program).1.uses =
            program.uses.map Use.settled ∧
          program.uses.map (fun u => (u.name, u.lexical)) =
            [("x", some 0), ("f", some 2), ("x", some 1),
              ("y", none)] := by
  have hUses :
      (parseProgram "fun f(x: int) { val x = x; f(x, y); }"
          "main").map
        (fun program =>
          program.uses.map fun u => (u.name, u.lexical)) =
        .ok
          [("x", some 0), ("f", some 2), ("x", some 1),
            ("y", none)] := by
    cbv
  cases hAccepted :
      parseProgram "fun f(x: int) { val x = x; f(x, y); }"
        "main" with
  | error ds =>
      rw [hAccepted] at hUses
      cases hUses
  | ok program =>
      rw [hAccepted] at hUses
      exact ⟨program, rfl,
        uses_resolveProgram hAccepted .empty,
        Except.ok.inj hUses⟩

------------------------------------------------------------
-- Problems
------------------------------------------------------------

/- What is wrong with a text that is refused is its fault. -/
theorem concernsSource_of_sameResults
    {α : Type}
    {R : α → α → Prop}
    {x y : Except (List Diagnostic) α}
    {ds : List Diagnostic}
    (hSame : SameResults R x y)
    (hRefused : x = .error ds) :
    ∀ d ∈ ds, d.problem.concernsSource := by
  cases hSame with
  | ok _ => cases hRefused
  | error _ hSource =>
      cases hRefused
      exact hSource

/-
  Neither the parser nor the resolver ever reports a mistake
  of its own: no scope is missing, no definition lacks its
  type when it is used, and the right side of an access is a
  name or the call of a name.
-/
theorem concernsSource_of_error
    (library : Library)
    (source file : String) :
    (∀ ds,
        compile library source file = .error ds →
          ∀ d ∈ ds, d.problem.concernsSource) ∧
      ∀ ds,
        parseExpression source file = .error ds →
          ∀ d ∈ ds, d.problem.concernsSource := by
  constructor
  · intro ds hRefused
    unfold compile at hRefused
    cases hParse : parseProgram source file with
    | error es =>
        rw [hParse] at hRefused
        cases hRefused
        exact concernsSource_of_sameResults
          (parseProgram_sameResults rfl file file) hParse
    | ok program =>
        have hBoth :=
          settled_of_derivesProgram
            (derivesProgram_of_parseProgram hParse) library
        rw [hParse] at hRefused
        dsimp only [bind, Except.bind] at hRefused
        split at hRefused
        · cases hRefused
        · rename_i resolved diagnostics _ hResolved
          cases hRefused
          rw [hResolved] at hBoth
          exact hBoth.2
  · intro ds hRefused
    exact concernsSource_of_sameResults
      (parseExpression_sameResults rfl file file) hRefused

/- A program and an expression that are left open. -/
theorem concernsSource_of_error_open :
    ∃ ds es,
      compile .empty "fun f(" "main" = .error ds ∧
        (∀ d ∈ ds, d.problem.concernsSource) ∧
          parseExpression "a." "main" = .error es ∧
            ∀ d ∈ es, d.problem.concernsSource := by
  have hProgram :
      (compile .empty "fun f(" "main").isOk =
        false := by
    cbv
  have hExpression :
      (parseExpression "a." "main").isOk = false := by
    cbv
  have hBoth :=
    concernsSource_of_error .empty "fun f(" "main"
  have hOther := concernsSource_of_error .empty "a." "main"
  cases hCompile : compile .empty "fun f(" "main" with
  | ok program =>
      rw [hCompile] at hProgram
      cases hProgram
  | error ds =>
      cases hParse : parseExpression "a." "main" with
      | ok e =>
          rw [hParse] at hExpression
          cases hExpression
      | error es =>
          exact ⟨ds, es, rfl, hBoth.1 ds hCompile, rfl,
            hOther.2 es hParse⟩

end SourceCheck
