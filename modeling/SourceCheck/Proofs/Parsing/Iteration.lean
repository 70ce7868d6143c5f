import SourceCheck.Proofs.Parsing.Relations

/-
  Loops of parsers end.

  The loops of the grammar are given a budget of tokens.  It
  never decides: a loop whose steps pass a token each time
  they give something does what the loop without a budget
  does, and each of its iterations ends further on.

  Key definitions include:
    * `Parser.Iterates`
    * `Parser.gathering`
    * `Parser.Loops`
    * `Parser.Gathers`
    * `Parser.GathersAll`

  Key theorems include:
    * `ParserRelation.loops_of_tiesStep`
    * `ParserRelation.gathers_of_tiesStep`
-/

namespace SourceCheck

namespace Parser

open SourceCheck.ParserState

variable {α : Type}

------------------------------------------------------------
-- Loops without a budget
------------------------------------------------------------

/-
  What repeating a step leads to, however often it gives
  something.  Each time it does, the cursor has moved on.
-/
inductive Iterates (step : α → Parser (Option α)) :
    α →
      ParserState →
        Except Diagnostic α × ParserState → Prop where
  | stop {a s t}
      (hStep : (step a).outcome s = (.ok none, t)) :
      Iterates step a s (.ok a, t)
  | fail {a s d t}
      (hStep : (step a).outcome s = (.error d, t)) :
      Iterates step a s (.error d, t)
  | more {a b s t x}
      (hStep : (step a).outcome s = (.ok (some b), t))
      (hIndex : s.stream.index < t.stream.index)
      (hMore : Iterates step b t x) :
      Iterates step a s x

/- A step that adds what another one gives to a list. -/
def gathering
    (step : Parser (Option α))
    (as : List α) :
    Parser (Option (List α)) := do
  return (← step).map fun a => as ++ [a]

/- Wherever a loop starts, it iterates its step. -/
def Loops
    (scopes : List ScopeId)
    (step : α → Parser (Option α)) :
    Prop :=
  ∀ a s,
    Ready scopes s →
      Iterates step a s ((loop step a).outcome s)

/- The same, where what the steps give is collected. -/
def Gathers
    (scopes : List ScopeId)
    (step : Parser (Option α)) :
    Prop :=
  ∀ s,
    Ready scopes s →
      Iterates (gathering step) [] s
        ((collect step).outcome s)

/- The same, and the loop never fails. -/
def GathersAll
    (scopes : List ScopeId)
    (step : Parser (Option α)) :
    Prop :=
  ∀ s,
    Ready scopes s →
      ∃ as t,
        (collect step).outcome s = (.ok as, t) ∧
          Iterates (gathering step) [] s (.ok as, t)

/- A loop does not fail if its steps do not. -/
theorem Iterates.exists_ok
    {step : α → Parser (Option α)}
    {a : α}
    {s : ParserState}
    {x : Except Diagnostic α × ParserState}
    (hIterates : Iterates step a s x)
    (hSteps :
      ∀ a s, ∃ r t, (step a).outcome s = (.ok r, t)) :
    ∃ b t, x = (.ok b, t) := by
  induction hIterates with
  | stop _ => exact ⟨_, _, rfl⟩
  | @fail a s _ _ hStep =>
      rcases hSteps a s with ⟨r, t, hRun⟩
      rw [hStep] at hRun
      cases hRun
  | more _ _ _ ih => exact ih

theorem gathering_bind
    {β : Type}
    (step : Parser (Option α))
    (as : List α)
    (f : Option (List α) → Parser β) :
    gathering step as >>= f =
      step >>= fun r => f (r.map fun a => as ++ [a]) := by
  unfold gathering
  simp only [bind_assoc, pure_bind]

/- To collect is to loop with a list. -/
theorem loopWithin_gathering
    (step : Parser (Option α))
    (budget : List Token)
    (as : List α) :
    loopWithin (gathering step) budget as =
      (as ++ ·) <$> collectWithin step budget := by
  induction budget generalizing as with
  | nil =>
      unfold loopWithin collectWithin
      rw [gathering_bind, map_eq_pure_bind, bind_assoc]
      refine bind_congr fun r => ?_
      cases r with
      | none => simp
      | some a => simp
  | cons token budget ih =>
      unfold loopWithin collectWithin
      rw [gathering_bind, map_eq_pure_bind, bind_assoc]
      refine bind_congr fun r => ?_
      cases r with
      | none => simp
      | some a => simp [ih]

theorem collect_eq (step : Parser (Option α)) :
    collect step = loop (gathering step) [] := by
  unfold collect loop
  refine bind_congr fun s => ?_
  rw [loopWithin_gathering]
  exact (id_map _).symm

end Parser

namespace ParserRelation

open SourceCheck.Parser
open SourceCheck.ParserState

variable {L : ParserRelation}
variable {n : Nat}
variable {scopes : List ScopeId}
variable {α : Type}

/- Fewer tokens are left further on. -/
theorem index_lt_of_left_lt
    {s t : ParserState}
    (hKept : Kept scopes s t)
    (hLess : t.left < s.left) :
    s.stream.index < t.stream.index := by
  have hLengths := congrArg List.length hKept.tokens_eq
  unfold TokenStream.tokens at hLengths
  rw [List.length_append, List.length_append,
    List.length_reverse, List.length_reverse] at hLengths
  unfold left at hLess
  unfold TokenStream.index
  omega

/-
  A loop iterates a step that passes a token each time it
  gives something, if the budget has as many tokens.
-/
theorem iterates_loopWithin
    {step step' : α → Parser (Option α)}
    (hSteps : ∀ a, L.TiesStep n scopes (step a) (step' a)) :
    ∀ (budget : List Token) (a : α) (s : ParserState),
      Ready scopes s →
        2 * s.left < n →
          s.left ≤ budget.length →
            Iterates step a s
              ((loopWithin step budget a).outcome s)
  | [], _, s, hReady, _, hBudget => by
      have hPos := hReady.left_pos
      rw [List.length_nil] at hBudget
      omega
  | _ :: budget, a, s, hReady, hFew, hBudget => by
      have hTied := hSteps a s hReady hFew
      unfold loopWithin
      rw [outcome_bind]
      rcases hRun : (step a).outcome s with ⟨d | r, t⟩
      · exact .fail hRun
      · cases r with
        | none => exact .stop hRun
        | some b =>
            have hLess := hTied.left_lt hRun
            have hKept := hTied.kept
            rw [hRun] at hKept
            rw [List.length_cons] at hBudget
            exact .more hRun (index_lt_of_left_lt hKept hLess)
              (iterates_loopWithin hSteps budget b t
                hKept.ready (by omega) (by omega))

theorem loops_of_tiesStep
    {step step' : α → Parser (Option α)}
    (hSteps :
      ∀ n a, L.TiesStep n scopes (step a) (step' a)) :
    Loops scopes step :=
  fun a s hReady =>
    iterates_loopWithin (hSteps (2 * s.left + 1))
      s.stream.ahead a s hReady (Nat.lt_succ_self _)
      (Nat.le_refl _)

theorem tiesStep_gathering
    {step step' : Parser (Option α)}
    (hSteps : L.TiesStep n scopes step step')
    (as : List α) :
    L.TiesStep n scopes (gathering step as)
      (gathering step' as) := by
  intro s hReady hFew
  have hTied := hSteps s hReady hFew
  refine ⟨hTied.toTied.bind hFew fun _ => ties_pure _, ?_⟩
  intro bs u hRun
  unfold gathering at hRun
  rw [outcome_bind] at hRun
  rcases hOutcome : step.outcome s with ⟨d | r, t⟩
  · rw [hOutcome] at hRun
    cases hRun
  · rw [hOutcome] at hRun
    cases r with
    | none => cases hRun
    | some a =>
        cases hRun
        exact hTied.left_lt hOutcome

theorem gathers_of_tiesStep
    {step step' : Parser (Option α)}
    (hSteps : ∀ n, L.TiesStep n scopes step step') :
    Gathers scopes step := by
  intro s hReady
  rw [collect_eq]
  exact loops_of_tiesStep
    (fun n => tiesStep_gathering (hSteps n)) [] s hReady

theorem gathersAll_of_tiesStep
    {step step' : Parser (Option α)}
    (hSteps : ∀ n, L.TiesStep n scopes step step')
    (hNever : ∀ s, ∃ r t, step.outcome s = (.ok r, t)) :
    GathersAll scopes step := by
  intro s hReady
  have hIterates := gathers_of_tiesStep hSteps s hReady
  have hGathering (as : List α) (t : ParserState) :
      ∃ r u, (gathering step as).outcome t = (.ok r, u) := by
    rcases hNever t with ⟨r, u, hRun⟩
    unfold gathering
    rw [outcome_bind, hRun]
    exact ⟨_, u, rfl⟩
  rcases hIterates.exists_ok hGathering with ⟨bs, u, hRun⟩
  rw [hRun] at hIterates
  exact ⟨bs, u, hRun, hIterates⟩

end ParserRelation

end SourceCheck
