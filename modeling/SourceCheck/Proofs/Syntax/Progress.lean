import Mathlib.Logic.Function.Iterate
import SourceCheck.Proofs.Parsing.Iteration
import SourceCheck.Proofs.Syntax.Depth

/-
  Parsing ends, and makes progress where it fails.

  What is nested is read to any depth, loops go on as long
  as they have something to read, and behind a failure the
  parser goes on at the first checkpoint, further on than
  where it started.

  Key definitions include:
    * `Grammar.LoopsAdvance`
    * `ParserState.Synchronizes`

  The main statement is `halts_closed_program`.
-/

namespace SourceCheck

open SourceCheck.Parser
open SourceCheck.Grammar

------------------------------------------------------------
-- Checkpoints
------------------------------------------------------------

/-
  A run that started at `s` failed at `t` because of `d`, and
  goes on at `u`: at the end of the text, or at a checkpoint
  and not behind another one.  Only where the run made no
  progress, the checkpoint at which it failed does not count.
-/
structure ParserState.Synchronizes
    (checkpoint : TokenStream → Bool)
    (s t : ParserState)
    (d : Diagnostic)
    (u : ParserState) :
    Prop where
  exists_count :
    ∃ count,
      u =
          { t.reported d with
            stream := TokenStream.consume^[count] t.stream } ∧
        ∀ i < count,
          checkpoint (TokenStream.consume^[i] t.stream) →
            i = 0 ∧ t.stream.index = s.stream.index
  stops : u.stream.hasMore = false ∨ checkpoint u.stream

/- The cursor is moved on to the first checkpoint. -/
theorem exists_skipTo_eq
    (checkpoint : TokenStream → Bool)
    (s : TokenStream) :
    ∃ count,
      s.skipTo checkpoint = TokenStream.consume^[count] s ∧
        ∀ i < count,
          ¬ checkpoint (TokenStream.consume^[i] s) := by
  fun_induction TokenStream.skipTo checkpoint s with
  | case1 s hGo ih =>
      rcases ih with ⟨count, hStop, hBefore⟩
      refine ⟨count + 1, hStop, fun i hLess => ?_⟩
      rw [Bool.and_eq_true] at hGo
      cases i with
      | zero => simpa using hGo.2
      | succ i => exact hBefore i (Nat.lt_of_succ_lt_succ hLess)
  | case2 s hStop =>
      exact ⟨0, rfl, fun i hLess =>
        absurd hLess (Nat.not_lt_zero i)⟩

theorem stops_skipTo
    (checkpoint : TokenStream → Bool)
    (s : TokenStream) :
    (s.skipTo checkpoint).hasMore = false ∨
      checkpoint (s.skipTo checkpoint) := by
  cases hMore : (s.skipTo checkpoint).hasMore with
  | false => exact .inl rfl
  | true => exact .inr (TokenStream.stop_skipTo hMore)

/- A failure is reported once, and the run goes on. -/
theorem synchronizes_recovering
    {α : Type}
    (checkpoint : TokenStream → Bool)
    {p : Parser α}
    {s t : ParserState}
    {d : Diagnostic}
    (hFails : p.outcome s = (.error d, t)) :
    ∃ u,
      (recovering checkpoint p).outcome s = (.ok none, u) ∧
        s.Synchronizes checkpoint t d u := by
  have hMoved {stream stop : TokenStream}
      (hStop : stream = stop) :
      { t.reported d with stream := stream } =
        { t.reported d with stream := stop } :=
    congrArg (fun x => { t.reported d with stream := x })
      hStop
  refine ⟨s.resumed checkpoint t d, ?_, ?_, ?_⟩
  · rw [outcome_recovering, hFails]
  · unfold ParserState.resumed
    dsimp only
    split
    · rename_i hSame
      rcases exists_skipTo_eq checkpoint t.stream.consume with
        ⟨count, hStop, hBefore⟩
      refine ⟨count + 1, hMoved hStop, fun i hLess hThere => ?_⟩
      cases i with
      | zero => exact ⟨rfl, hSame⟩
      | succ i =>
          exact absurd hThere
            (hBefore i (Nat.lt_of_succ_lt_succ hLess))
    · rcases exists_skipTo_eq checkpoint t.stream with
        ⟨count, hStop, hBefore⟩
      exact ⟨count, hMoved hStop, fun i hLess hThere =>
        absurd hThere (hBefore i hLess)⟩
  · exact stops_skipTo checkpoint _

------------------------------------------------------------
-- Loops
------------------------------------------------------------

/-
  Every loop of the grammar iterates its step, and those
  that recover from failures do not fail.  So do the loops
  of the layers of types.
-/
structure Grammar.LoopsAdvance (nested : Nested) : Prop where
  imports : ∀ scopes, GathersAll scopes (nextImport nested)
  declarations :
    ∀ scope scopes,
      GathersAll (scope :: scopes) (nextDeclaration nested)
  statements :
    ∀ scope scopes,
      GathersAll (scope :: scopes) (nextStatement nested)
  entries :
    ∀ scopes,
      Gathers scopes (nextItem .comma .closeCurly importEntry)
  arguments :
    ∀ scopes,
      Gathers scopes
        (nextItem .comma .closeParen (argument nested))
  parameters :
    ∀ scope scopes,
      Gathers (scope :: scopes)
        (nextItem .comma .closeParen (parameter nested))
  lambdaParameters :
    ∀ scope scopes,
      Gathers (scope :: scopes)
        (nextItem .comma .pipe lambdaParameter)
  parts : ∀ scopes, Gathers scopes (nextStringPart nested)
  extensions :
    ∀ scopes power, Loops scopes (extend nested power)
  types : ∀ scopes power, Loops scopes (typeStep power)
  intersections :
    ∀ scopes, Loops scopes (joinNext .intersection namedType)
  unions :
    ∀ scopes power,
      Loops scopes
        (joinNext .union
          (joinedAbove power .intersection namedType))

/- Nothing is said of the parsers. -/
def ParserRelation.unconditional : ParserRelation where
  holds _ _ _ := True
  ofPure _ _ := trivial
  ofThrow _ _ := trivial
  ofBind _ _ := trivial
  ofLook _ _ := trivial
  ofMove _ _ _ := trivial
  ofDeclare _ _ _ _ _ _ _ _ := trivial
  ofNewScope _ := trivial
  ofRecovering _ _ := trivial

/- Where a failure is recovered from, nothing fails. -/
theorem exists_outcome_recovering
    {α : Type}
    (checkpoint : TokenStream → Bool)
    (p : Parser α)
    (s : ParserState) :
    ∃ r t,
      (recovering checkpoint p).outcome s = (.ok r, t) := by
  rw [outcome_recovering]
  rcases p.outcome s with ⟨d | a, t⟩
  · exact ⟨none, s.resumed checkpoint t d, rfl⟩
  · exact ⟨some a, t, rfl⟩

theorem exists_outcome_nextImport
    (nested : Nested)
    (s : ParserState) :
    ∃ r t, (nextImport nested).outcome s = (.ok r, t) := by
  unfold nextImport recoveredImport
  simp only [outcome_bind, outcome_hasMore, outcome_check,
    outcome_ite]
  split
  · rcases exists_outcome_recovering topLevelCheckpoint
        (importFrom nested) s with ⟨r, t, hRun⟩
    rw [hRun]
    exact ⟨some r, t, rfl⟩
  · exact ⟨none, s, rfl⟩

theorem exists_outcome_nextDeclaration
    (nested : Nested)
    (s : ParserState) :
    ∃ r t,
      (nextDeclaration nested).outcome s = (.ok r, t) := by
  unfold nextDeclaration
  simp only [outcome_bind, outcome_hasMore, outcome_ite]
  split
  · rcases exists_outcome_recovering topLevelCheckpoint
        (declaration nested) s with ⟨r, t, hRun⟩
    rw [hRun]
    exact ⟨some r, t, rfl⟩
  · exact ⟨none, s, rfl⟩

theorem exists_outcome_nextStatement
    (nested : Nested)
    (s : ParserState) :
    ∃ r t,
      (nextStatement nested).outcome s = (.ok r, t) := by
  unfold nextStatement
  rw [outcome_unlessEnd, outcome_bind]
  split
  · rcases exists_outcome_recovering blockCheckpoint
        (statement nested) s with ⟨r, t, hRun⟩
    rw [hRun]
    exact ⟨some r, t, rfl⟩
  · exact ⟨none, s, rfl⟩

/- The loops advance at any depth of nesting. -/
theorem loopsAdvance_nestedWithin (depth : Nat) :
    LoopsAdvance (nestedWithin depth) := by
  have hNested :=
    ParserRelation.unconditional.nestedTies_nestedWithin depth
  constructor
  case imports =>
    exact fun _ =>
      ParserRelation.gathersAll_of_tiesStep
        (fun n => ParserRelation.tiesStep_nextImport
          (hNested n))
        (exists_outcome_nextImport _)
  case declarations =>
    exact fun _ _ =>
      ParserRelation.gathersAll_of_tiesStep
        (fun n => ParserRelation.tiesStep_nextDeclaration
          (hNested n))
        (exists_outcome_nextDeclaration _)
  case statements =>
    exact fun _ _ =>
      ParserRelation.gathersAll_of_tiesStep
        (fun n => ParserRelation.tiesStep_nextStatement
          (hNested n))
        (exists_outcome_nextStatement _)
  case entries =>
    exact fun _ =>
      ParserRelation.gathers_of_tiesStep
        (L := ParserRelation.unconditional)
        fun _ => ParserRelation.tiesStep_nextItem
          (by decide) _ ParserRelation.ties_importEntry
  case arguments =>
    exact fun _ =>
      ParserRelation.gathers_of_tiesStep
        fun n => ParserRelation.tiesStep_nextItem
          (by decide) _
          (ParserRelation.ties_argument (hNested n))
  case parameters =>
    exact fun _ _ =>
      ParserRelation.gathers_of_tiesStep
        fun n => ParserRelation.tiesStep_nextItem
          (by decide) _
          (ParserRelation.ties_parameter (hNested n))
  case lambdaParameters =>
    exact fun _ _ =>
      ParserRelation.gathers_of_tiesStep
        (L := ParserRelation.unconditional)
        fun _ => ParserRelation.tiesStep_nextItem
          (by decide) _ ParserRelation.ties_lambdaParameter
  case parts =>
    exact fun _ =>
      ParserRelation.gathers_of_tiesStep
        fun n => ParserRelation.tiesStep_nextStringPart
          (hNested n)
  case extensions =>
    exact fun _ power =>
      ParserRelation.loops_of_tiesStep
        fun n left => ParserRelation.tiesStep_extend
          (hNested n) power left
  case types =>
    exact fun _ power =>
      ParserRelation.loops_of_tiesStep
        (L := ParserRelation.unconditional)
        fun _ => ParserRelation.tiesStep_typeStep power
  case intersections =>
    exact fun _ =>
      ParserRelation.loops_of_tiesStep
        (L := ParserRelation.unconditional)
        fun _ => ParserRelation.tiesStep_joinNext _
          ParserRelation.ties_namedType
  case unions =>
    exact fun _ power =>
      ParserRelation.loops_of_tiesStep
        (L := ParserRelation.unconditional)
        fun _ => ParserRelation.tiesStep_joinNext _
          (ParserRelation.ties_joinedAbove power _
            ParserRelation.ties_namedType)

------------------------------------------------------------
-- Programs
------------------------------------------------------------

/-
  The parser of programs halts on every text.  What it does
  about texts that are nested too deeply for it to follow
  does not matter, as there are none.  Its loops pass a token
  in each iteration, also in one that fails.  Behind each
  failure it is at the end of the text or at the first
  checkpoint, and has reported the failure once.
-/
theorem halts_closed_program (source file : String) :
    (∀ deepest depth,
        2 * (ParserState.initial source file).left + 2 ≤
            depth →
          (program (nestedFrom deepest depth)).outcome
              (.initial source file) =
            (closed program).outcome
              (.initial source file)) ∧
      (∀ depth, LoopsAdvance (nestedWithin depth)) ∧
        ∀ (α : Type) (checkpoint : TokenStream → Bool)
          (p : Parser α) (s t : ParserState)
          (d : Diagnostic),
          p.outcome s = (.error d, t) →
            ∃ u,
              (recovering checkpoint p).outcome s =
                  (.ok none, u) ∧
                s.Synchronizes checkpoint t d u :=
  ⟨fun deepest _ hDeep =>
      outcome_program_nestedFrom source file deepest hDeep,
    loopsAdvance_nestedWithin,
    fun _ checkpoint _ _ _ _ hFails =>
      synchronizes_recovering checkpoint hFails⟩

end SourceCheck
