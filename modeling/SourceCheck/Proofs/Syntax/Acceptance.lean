import SourceCheck.Proofs.Operators.Sources
import SourceCheck.Proofs.Syntax.Appending

/-
  What the parser accepts.

  A program that has a derivation is what the parser gives
  for the source text, and nothing is reported.  So the
  grammar as a relation says which texts are accepted, and
  with which programs.

  Key theorems include:
    * `DerivesImport.runs`
    * `DerivesDeclaration.runs`
    * `parseProgram_iff_derives`
-/

namespace SourceCheck

open SourceCheck.Parser
open SourceCheck.Grammar
open SourceCheck.ParserState

variable {s t u : ParserState}
variable {nested : Nested}

------------------------------------------------------------
-- Imports
------------------------------------------------------------

theorem outcome_importFrom
    {e : Expr}
    {entries : List ImportEntry}
    {path : String}
    (hKeyword : s.token.kind = .kwImport)
    (hQuote : s.next.token.kind = .stringStart)
    (hPath :
      (stringLiteral nested s.next.token).outcome
          s.next.next =
        (.ok e, t))
    (hOpen : t.token.kind = .openCurly)
    (hEntries :
      (separated .comma .closeCurly importEntry).outcome
          t.next =
        (.ok entries, u))
    (hClose : u.token.kind = .closeCurly)
    (hValue : e.form = .string path) :
    (importFrom nested).outcome s =
      (.ok
        ⟨path, entries, s.token.span.between u.token.span,
          false⟩,
        u.next) := by
  have hPlain :
      (plainPath e).outcome u.next = (.ok path, u.next) := by
    unfold plainPath
    rw [hValue]
    rfl
  unfold importFrom
  rw [outcome_bind, outcome_expect hKeyword]
  dsimp only
  rw [outcome_bind, outcome_expect hQuote]
  dsimp only
  rw [outcome_bind, hPath]
  dsimp only
  rw [outcome_bind, outcome_expect hOpen]
  dsimp only
  rw [outcome_bind, hEntries]
  dsimp only
  rw [outcome_bind, outcome_expect hClose]
  dsimp only
  rw [outcome_bind, hPlain]
  rfl

/- The parser gives an import that is derived. -/
theorem DerivesImport.runs
    {i : Import}
    (hDerives : DerivesImport s i t)
    {depth : Nat}
    (hDepth : 2 * s.left < depth) :
    (importFrom (nestedWithin depth)).outcome s =
      (.ok i, t) := by
  rcases hDerives with
    ⟨hKeyword, hQuote, hPath, hOpen, hEntries, hClose,
      hValue⟩
  rename_i e t entries u path
  have hFirst :=
    ParserState.left_next (s := s) (by rw [hKeyword]; decide)
  have hSecond := s.next.left_next_le
  have hThird := t.left_next_le
  have hPassed := hPath.left_le
  dsimp only [Phrase.least] at hPassed
  exact outcome_importFrom hKeyword hQuote
    (hPath.runs (left_pos_of_kind hOpen nofun) depth
      (by omega))
    hOpen
    (hEntries.runs (left_pos_of_kind hClose nofun) depth
      (by omega))
    hClose hValue

theorem outcome_nextImport_none
    (hStop : s.token.kind ≠ .kwImport) :
    (nextImport nested).outcome s = (.ok none, s) := by
  unfold nextImport
  rw [outcome_bind, outcome_hasMore]
  dsimp only
  rw [outcome_bind, outcome_check, decide_eq_false hStop]
  dsimp only
  rw [Bool.and_false, if_neg Bool.false_ne_true]
  rfl

theorem outcome_nextImport_some
    {i : Import}
    (hKeyword : s.token.kind = .kwImport)
    (hImport :
      (importFrom nested).outcome s = (.ok i, t)) :
    (nextImport nested).outcome s =
      (.ok (some (some i)), t) := by
  have hMore : s.token.kind ≠ .eof := by
    rw [hKeyword]
    decide
  unfold nextImport recoveredImport
  rw [outcome_bind, outcome_hasMore]
  dsimp only
  rw [outcome_bind, outcome_check, decide_eq_true hKeyword,
    decide_eq_true hMore]
  dsimp only
  rw [Bool.and_true, if_pos rfl, outcome_bind,
    outcome_recovering, hImport]
  rfl

/- So it does with all imports. -/
theorem DerivesImports.runs
    {imports : List Import}
    (hDerives : DerivesImports s imports t) :
    ∀ depth (budget : List Token),
      2 * s.left < depth →
        s.left ≤ budget.length →
          (collectWithin (nextImport (nestedWithin depth))
              budget).outcome s =
            (.ok (imports.map some), t) := by
  induction hDerives with
  | stop hStop =>
      exact fun _ budget _ _ =>
        outcome_collectWithin_none
          (outcome_nextImport_none hStop) budget
  | more hImport _ ih =>
      intro depth budget hDepth hBudget
      have hPassed := hImport.left_lt
      have hRuns := hImport.runs hDepth
      rcases hImport with ⟨hKeyword, -, -, -, -, -, -⟩
      refine outcome_collectWithin_some
        (outcome_nextImport_some hKeyword hRuns)
        (fun fewer hFewer => ?_) (by omega)
      exact ih depth fewer (by omega) (by omega)

------------------------------------------------------------
-- Declarations
------------------------------------------------------------

/- The parser gives a declaration that is derived. -/
theorem DerivesDeclaration.runs
    {d : Declaration}
    (hDerives : DerivesDeclaration s d t)
    (hLeft : 0 < t.left)
    {depth : Nat}
    (hDepth : 2 * s.left < depth) :
    (declaration (nestedWithin depth)).outcome s =
      (.ok d, t) := by
  unfold declaration
  rw [outcome_bind, outcome_current]
  dsimp only
  cases hDerives with
  | function hFunction =>
      have hKeyword : s.token.kind = .kwFun := by
        cases hFunction with
        | functionDecl hKeyword => exact hKeyword
      rw [hKeyword]
      dsimp only
      rw [outcome_bind, hFunction.runs hLeft depth hDepth]
      rfl
  | property hKeyword hVariable =>
      rcases hKeyword with hKeyword | hKeyword
      · rw [hKeyword]
        dsimp only
        rw [outcome_bind, hVariable.runs hLeft depth hDepth]
        rfl
      · rw [hKeyword]
        dsimp only
        rw [outcome_bind, hVariable.runs hLeft depth hDepth]
        rfl

theorem outcome_nextDeclaration_none
    (hEnd : s.token.kind = .eof) :
    (nextDeclaration nested).outcome s = (.ok none, s) := by
  unfold nextDeclaration
  rw [outcome_bind, outcome_hasMore]
  dsimp only
  rw [if_neg (by simp [hEnd])]
  rfl

theorem outcome_nextDeclaration_some
    {d : Declaration}
    (hMore : s.token.kind ≠ .eof)
    (hDeclaration :
      (declaration nested).outcome s = (.ok d, t)) :
    (nextDeclaration nested).outcome s =
      (.ok (some (some d)), t) := by
  unfold nextDeclaration
  rw [outcome_bind, outcome_hasMore]
  dsimp only
  rw [if_pos (decide_eq_true hMore), outcome_bind,
    outcome_recovering, hDeclaration]
  rfl

/- So it does with all declarations. -/
theorem DerivesDeclarations.runs
    {ds : List Declaration}
    (hDerives : DerivesDeclarations s ds t) :
    ∀ depth (budget : List Token),
      s.Ended →
        2 * s.left < depth →
          s.left ≤ budget.length →
            (collectWithin
                (nextDeclaration (nestedWithin depth))
                budget).outcome s =
              (.ok (ds.map some), t) := by
  induction hDerives with
  | stop hEnd =>
      exact fun _ budget _ _ _ =>
        outcome_collectWithin_none
          (outcome_nextDeclaration_none hEnd) budget
  | more hDeclaration _ ih =>
      intro depth budget hEnded hDepth hBudget
      have hPassed := hDeclaration.left_lt
      have hThere := hEnded.crosses hDeclaration.crosses
      refine outcome_collectWithin_some
        (outcome_nextDeclaration_some
          hDeclaration.kind_ne_eof
          (hDeclaration.runs hThere.left_pos hDepth))
        (fun fewer hFewer => ?_) (by omega)
      exact ih depth fewer hThere (by omega) (by omega)

------------------------------------------------------------
-- Programs
------------------------------------------------------------

theorem ParserState.Crosses.diagnostics_eq
    {a b : List Bracket}
    (hCrosses : s.Crosses a t b) :
    t.diagnostics = s.diagnostics := by
  rcases hCrosses with ⟨ts, hPasses, -⟩
  exact hPasses.diagnostics_eq

theorem filterMap_map_some {α : Type} (xs : List α) :
    (xs.map some).filterMap id = xs := by
  rw [List.filterMap_map]
  exact List.filterMap_some

/- The parser gives a program that is derived, quietly. -/
theorem DerivesProgram.runs
    {p : Program}
    (hDerives : DerivesProgram s p)
    (hEnded : s.Ended)
    (depth : Nat)
    (hDepth : 2 * s.left < depth) :
    ∃ t,
      (program (nestedWithin depth)).outcome s = (.ok p, t) ∧
        t.diagnostics = s.diagnostics := by
  rcases hDerives with ⟨hImports, hDeclarations⟩
  rename_i imports t ds u
  have hThere : t.Ended :=
    ParserState.Ended.crosses (s := s.opened) hEnded
      hImports.crosses
  have hFewer : t.left ≤ s.left := hImports.crosses.left_le
  have hFirst :=
    hImports.runs depth s.opened.stream.ahead hDepth
      (Nat.le_refl _)
  have hSecond :=
    hDeclarations.runs depth t.stream.ahead hThere
      (by omega) (Nat.le_refl _)
  refine ⟨(u.next.withSymbols .empty).closed, ?_,
    hDeclarations.crosses.diagnostics_eq.trans
      hImports.crosses.diagnostics_eq⟩
  unfold program collect
  rw [outcome_inNewScope, bind_assoc, outcome_bind,
    outcome_get]
  dsimp only
  rw [outcome_bind, hFirst]
  dsimp only
  rw [bind_assoc, outcome_bind, outcome_get]
  dsimp only
  rw [outcome_bind, hSecond]
  dsimp only
  rw [outcome_bind, outcome_expect hDeclarations.kind_eq]
  rw [filterMap_map_some, filterMap_map_some]
  rfl

/-
  A source text is accepted with the programs that have a
  derivation from its first token.
-/
theorem parseProgram_iff_derives
    {source file : String}
    {p : Program} :
    parseProgram source file = .ok p ↔
      DerivesProgram (.initial source file) p := by
  refine ⟨derivesProgram_of_parseProgram, fun hDerives => ?_⟩
  rcases hDerives.runs (ended_initial source file)
      (2 * (ParserState.initial source file).left + 2)
      (by omega) with
    ⟨t, hRun, hQuiet⟩
  refine parse_of_outcome (t := t) ?_ hQuiet
  unfold Grammar.closed
  rw [outcome_bind, outcome_get]
  exact hRun

end SourceCheck
