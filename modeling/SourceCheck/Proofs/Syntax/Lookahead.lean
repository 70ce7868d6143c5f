import SourceCheck.Proofs.Parsing.Alike
import SourceCheck.Proofs.Syntax.Derivation

/-
  Parsers that look ahead.

  To look ahead, a parser takes a token and gives it back.
  This leaves everything as it was wherever a token is left
  to be taken.  Behind the end of the text there is none: a
  move forward does nothing there, and the move back leaves
  the cursor at the end of the text.

  Key definitions include:
    * `TokenStream.StepsBack`
    * `ParserState.GivenBack`
    * `ParserState.LooksAhead`

  Key theorems include:
    * `TokenStream.Ended.stepsBack`
    * `outcome_expression_of_none`
    * `ParserState.looksAhead_of_ended`

  The main statement is `lookahead_given_back`.
-/

namespace SourceCheck

namespace TokenStream

------------------------------------------------------------
-- A step forward and a step back
------------------------------------------------------------

/-
  Where a step over a token and back leads.  The current
  token is the same again; so are the index and the token
  before the cursor, unless the cursor is behind the end,
  which it leaves.
-/
structure StepsBack (s : TokenStream) : Prop where
  index_le : s.index ≤ s.tokens.length
  current_eq : s.consume.unconsume.current = s.current
  eq_iff :
    s.consume.unconsume = s ↔ s.index < s.tokens.length
  behind :
    s.index = s.tokens.length →
      s.consume = s ∧ s.unconsume.index + 1 = s.index

/- The step back leads to the end of the text. -/
theorem Ended.unconsume_behind
    {s : TokenStream}
    (hEnded : s.Ended)
    (hAhead : s.ahead = []) :
    s.unconsume.index + 1 = s.index ∧
      s.unconsume.current = s.current := by
  rcases hEnded.exists_before hAhead with ⟨before, hBefore⟩
  unfold unconsume
  rw [hBefore]
  constructor
  · simp [index, hBefore]
  · simp [current, hAhead]

theorem Ended.stepsBack
    {s : TokenStream}
    (hEnded : s.Ended) :
    s.StepsBack := by
  by_cases hAhead : s.ahead = []
  · have hStays := consume_of_ahead_nil hAhead
    have hBehind := hEnded.unconsume_behind hAhead
    have hLength : s.tokens.length = s.index := by
      rw [length_tokens, hAhead, List.length_nil,
        Nat.add_zero]
    refine ⟨by omega, ?_, ?_, ?_⟩
    · rw [hStays]
      exact hBehind.2
    · rw [hStays]
      constructor
      · intro hSame
        rw [hSame] at hBehind
        omega
      · intro hLess
        omega
    · intro _
      exact ⟨hStays, hBehind.1⟩
  · have hBack := unconsume_consume hAhead
    have hWithin := s.index_lt_iff.2 hAhead
    refine ⟨Nat.le_of_lt hWithin, ?_, ?_, ?_⟩
    · rw [hBack]
    · exact ⟨fun _ => hWithin, fun _ => hBack⟩
    · intro hBehind
      omega

end TokenStream

------------------------------------------------------------
-- Tokens that are given back
------------------------------------------------------------

open SourceCheck.Grammar
open SourceCheck.Parser

variable {s t : ParserState}
variable {nested : Nested}
variable {power : Power}

/- A name is taken where an `=` stands behind it. -/
theorem outcome_argumentName_some
    (hNamed : s.AtNamed) :
    argumentName.outcome s =
      (.ok (some s.token), s.next.next) := by
  unfold argumentName
  rw [outcome_bind, outcome_checkName]
  dsimp only
  rw [if_pos hNamed.1, outcome_bind, outcome_consume]
  dsimp only
  rw [outcome_bind, outcome_accept, if_pos hNamed.2]
  rfl

/- Any other name is given back. -/
theorem outcome_argumentName_none
    (hNone : ¬ s.AtNamed) :
    argumentName.outcome s = (.ok none, s) := by
  unfold argumentName
  rw [outcome_bind, outcome_checkName]
  dsimp only
  by_cases hName : s.token.kind.isName
  · have hAhead : s.stream.ahead ≠ [] :=
      TokenStream.ahead_ne_nil_of_hasMore
        (decide_eq_true (ne_eof_of_isName hName))
    have hOther : s.next.token.kind ≠ .assignment :=
      fun hEquals => hNone ⟨hName, hEquals⟩
    rw [if_pos hName, outcome_bind, outcome_consume]
    dsimp only
    rw [outcome_bind, outcome_accept, if_neg hOther]
    dsimp only
    rw [if_neg Bool.false_ne_true, outcome_bind,
      outcome_unconsume_next hAhead]
    rfl
  · rw [if_neg hName]
    rfl

/- A look behind the current token leaves all in place. -/
theorem outcome_nextIsName
    (hAhead : s.stream.ahead ≠ []) :
    Parser.outcome nextIsName s =
      (.ok s.next.token.kind.isName, s) := by
  unfold nextIsName
  simp only [outcome_bind, outcome_consume,
    outcome_checkName, outcome_unconsume_next hAhead,
    outcome_pure]

/- What starts no expression is taken and given back. -/
theorem outcome_expression_of_none
    (hNone : s.token.kind.starter? = none) :
    (expression nested power).outcome s =
      (.ok none,
        { s with stream := s.stream.consume.unconsume }) := by
  unfold expression
  rw [outcome_bind, outcome_consume]
  dsimp only
  rw [hNone]
  rfl

/- This leaves all in place where a token is left. -/
theorem outcome_expression_none
    (hNone : s.token.kind.starter? = none)
    (hAhead : s.stream.ahead ≠ []) :
    (expression nested power).outcome s = (.ok none, s) := by
  rw [outcome_expression_of_none hNone,
    TokenStream.unconsume_consume hAhead]

/- What starts an expression is not given back. -/
theorem starter?_eq_none_of_outcome
    (hRun :
      (expression nested power).outcome s = (.ok none, t)) :
    s.token.kind.starter? = none := by
  unfold expression at hRun
  rw [outcome_bind, outcome_consume] at hRun
  dsimp only at hRun
  cases hStarter : s.token.kind.starter? with
  | none => rfl
  | some starter =>
      rw [hStarter] at hRun
      rcases exists_of_outcome_bind hRun with
        ⟨first, u, -, hRest⟩
      rcases exists_of_outcome_bind hRest with
        ⟨whole, v, -, hEnd⟩
      cases hEnd

------------------------------------------------------------
-- Parsers that look ahead
------------------------------------------------------------

namespace ParserState

/- The state with another cursor. -/
def withStream
    (s : ParserState)
    (stream : TokenStream) :
    ParserState :=
  { s with stream := stream }

/-
  What a token that was taken and given back leaves behind:
  everything, if the cursor is not behind the end, and all
  but the cursor in any case.
-/
structure GivenBack (s t : ParserState) : Prop where
  scopes_eq : t.scopes = s.scopes
  symbols_eq : t.symbols = s.symbols
  diagnostics_eq : t.diagnostics = s.diagnostics
  token_eq : t.token = s.token
  eq_iff : t = s ↔ s.stream.index < s.stream.tokens.length

/- A cursor that steps back gives a state back. -/
theorem givenBack_of_stepsBack
    (hSteps : s.stream.StepsBack) :
    s.GivenBack
      (s.withStream s.stream.consume.unconsume) where
  scopes_eq := rfl
  symbols_eq := rfl
  diagnostics_eq := rfl
  token_eq := hSteps.current_eq
  eq_iff := by
    rw [← hSteps.eq_iff]
    constructor
    · intro hSame
      exact congrArg ParserState.stream hSame
    · intro hSame
      unfold withStream
      rw [hSame]

/-
  The ways in which parsers look ahead from a state,
  whatever parsers are given for nested expressions.
-/
structure LooksAhead (s : ParserState) : Prop where
  -- No expression is read where the token starts none.
  missing_iff :
    ∀ nested power,
      (∃ t,
        (expression nested power).outcome s =
          (.ok none, t)) ↔
        s.token.kind.starter? = none
  missing :
    ∀ nested power t,
      (expression nested power).outcome s = (.ok none, t) →
        s.GivenBack t
  -- The name of an argument is read with the `=` behind it.
  unnamed :
    ∀ t, argumentName.outcome s = (.ok none, t) → t = s
  -- What stands behind a word is looked at, but not taken.
  nextIsName :
    s.token.kind ≠ .eof →
      nextIsName.outcome s = (.ok s.next.token.kind.isName, s)

theorem looksAhead_of_ended
    (hEnded : s.stream.Ended) :
    s.LooksAhead where
  missing_iff nested power := by
    constructor
    · rintro ⟨t, hRun⟩
      exact starter?_eq_none_of_outcome hRun
    · intro hNone
      exact ⟨_, outcome_expression_of_none hNone⟩
  missing nested power t hRun := by
    have hNone := starter?_eq_none_of_outcome hRun
    rw [outcome_expression_of_none hNone] at hRun
    cases hRun
    exact givenBack_of_stepsBack hEnded.stepsBack
  unnamed t hRun := by
    by_cases hNamed : s.AtNamed
    · rw [outcome_argumentName_some hNamed] at hRun
      cases hRun
    · rw [outcome_argumentName_none hNamed] at hRun
      cases hRun
      rfl
  nextIsName hMore := by
    apply outcome_nextIsName
    apply TokenStream.ahead_ne_nil_of_hasMore
    exact decide_eq_true hMore

end ParserState

/-
  However a cursor was moved over a list of tokens, and in
  whatever state a parser is there: what a look ahead takes
  is given back, and leaves everything as it was, if only
  the end of the text was not taken already.
-/
theorem lookahead_given_back
    (tokens : List Token)
    (moves : List TokenStream.Move)
    (s : ParserState) :
    let start := TokenStream.ofTokens tokens
    let stream := start.moved moves
    stream.tokens = start.ahead ∧
      stream.StepsBack ∧
        (s.withStream stream).LooksAhead := by
  intro start stream
  have hEnded : stream.Ended :=
    (TokenStream.ended_ofTokens tokens).moved moves
  refine ⟨?_, hEnded.stepsBack, ?_⟩
  · rw [← TokenStream.tokens_start]
    exact start.tokens_moved moves
  · exact ParserState.looksAhead_of_ended hEnded

/- A cursor that was moved over a name and over the end. -/
def behindName : TokenStream :=
  (TokenStream.ofTokens [⟨.identifier, "a", Span.null⟩]).moved
    [.consume, .consume]

/-
  Behind the end a step forward and back loses a token, and
  so does a look for an expression.
-/
theorem token_lost_behind_end :
    behindName.consume.unconsume.index ≠ behindName.index ∧
      behindName.consume.unconsume.previous ≠
          behindName.previous ∧
        ∃ t,
          (Grammar.expression (Grammar.nestedWithin 1)
                .loosest).outcome
              (.start behindName "main") =
            (.ok none, t) ∧
          t.stream.index ≠ behindName.index ∧
            t.stream.previous ≠ behindName.previous := by
  refine ⟨by decide, by decide, _, rfl, by decide, by decide⟩

end SourceCheck
