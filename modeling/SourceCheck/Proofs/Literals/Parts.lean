import SourceCheck.Proofs.Syntax.Completeness
import SourceCheck.Proofs.Syntax.Ties

/-
  The parts of a string.

  Behind its opening quote a string is read part by part, up
  to a closing quote: texts, escapes that stand for a
  character, and expressions in templates, which are what the
  parser of nested expressions gives.

  Key definitions include:
    * `Nested.ReadsPart`
    * `Nested.ReadsParts`

  Key theorems include:
    * `outcome_nextStringPart_iff`
    * `Nested.ReadsParts.outcome`
    * `readsParts_of_stringLiteral`
-/

namespace SourceCheck

open SourceCheck.Parser
open SourceCheck.Grammar

------------------------------------------------------------
-- Parts
------------------------------------------------------------

/- A part of a string is read, and what is left. -/
inductive Nested.ReadsPart (nested : Nested) :
    ParserState → StringPart → ParserState → Prop where
  | text {s}
      (hText : s.token.kind = .stringContent) :
      nested.ReadsPart s
        (.text s.token.value s.token.span) s.next
  | escape {s c}
      (hEscape : s.token.kind = .escapeSequence)
      (hChar : unescape? s.token.value = some c) :
      nested.ReadsPart s
        (.text c.toString s.token.span) s.next
  | embedded {s e t}
      (hOpen : s.token.kind = .stringTemplateStart)
      (hExpr :
        (nested.expression .loosest).outcome s.next =
          (.ok (some e), t))
      (hClose : t.token.kind = .stringTemplateEnd) :
      nested.ReadsPart s (.embedded e) t.next

/- All parts are read, up to the closing quote. -/
inductive Nested.ReadsParts (nested : Nested) :
    ParserState → List StringPart → ParserState → Prop where
  | done {s}
      (hEnd : s.token.kind = .stringEnd) :
      nested.ReadsParts s [] s
  | part {s part t parts u}
      (hPart : nested.ReadsPart s part t)
      (hMore : nested.ReadsParts t parts u) :
      nested.ReadsParts s (part :: parts) u

variable {nested : Nested}
variable {s t u : ParserState}
variable {e : Expr}
variable {part : StringPart}
variable {parts : List StringPart}

theorem Nested.ReadsParts.kind_end
    (hParts : nested.ReadsParts s parts t) :
    t.token.kind = .stringEnd := by
  induction hParts with
  | done hEnd => exact hEnd
  | part _ _ ih => exact ih

/- No part starts at the end of the string, or behind it. -/
theorem Nested.ReadsPart.hasMore
    (hPart : nested.ReadsPart s part t) :
    s.token.kind ≠ .stringEnd ∧ s.token.kind ≠ .eof := by
  cases hPart with
  | text hText =>
      rw [hText]
      decide
  | escape hEscape =>
      rw [hEscape]
      decide
  | embedded hOpen =>
      rw [hOpen]
      decide

------------------------------------------------------------
-- What parsers give
------------------------------------------------------------

/- A nested expression that is there was given. -/
theorem outcome_required_iff {power : Power} :
    (nested.required power).outcome s = (.ok e, t) ↔
      (nested.expression power).outcome s =
        (.ok (some e), t) := by
  constructor
  · intro hRun
    unfold Nested.required at hRun
    rw [outcome_bind] at hRun
    split at hRun
    · rename_i found u hFound
      cases found with
      | none =>
          exact absurd hRun
            ParserRelation.outcome_missingExpression
      | some f =>
          cases hRun
          exact hFound
    · cases hRun
  · exact outcome_required

/- The parser of a part gives what is read. -/
theorem readsPart_of_outcome
    (hRun :
      (stringPart nested s.token).outcome s.next =
        (.ok part, t)) :
    nested.ReadsPart s part t := by
  unfold stringPart at hRun
  split at hRun
  case h_1 hText =>
    cases hRun
    exact .text hText
  case h_2 hEscape =>
    split at hRun
    · rename_i c hChar
      cases hRun
      exact .escape hEscape hChar
    · cases hRun
  case h_3 hOpen =>
    rw [outcome_bind] at hRun
    split at hRun
    · rename_i f u hExpr
      rw [outcome_bind] at hRun
      split at hRun
      · rename_i token v hClose
        rcases outcome_expect_iff.mp hClose with
          ⟨hKind, rfl, rfl⟩
        cases hRun
        exact .embedded hOpen
          (outcome_required_iff.mp hExpr) hKind
      · cases hRun
    · cases hRun
  case h_4 => cases hRun
  case h_5 => cases hRun

theorem Nested.ReadsPart.outcome
    (hPart : nested.ReadsPart s part t) :
    (stringPart nested s.token).outcome s.next =
      (.ok part, t) := by
  cases hPart with
  | text hText => exact outcome_textPart hText
  | escape hEscape hChar =>
      exact outcome_escapePart hEscape hChar
  | embedded hOpen hExpr hClose =>
      exact outcome_embeddedPart hOpen hExpr hClose

theorem outcome_nextStringPart_iff :
    (nextStringPart nested).outcome s = (.ok (some part), t) ↔
      nested.ReadsPart s part t := by
  constructor
  · intro hRun
    unfold nextStringPart at hRun
    rw [outcome_unlessEnd] at hRun
    split at hRun
    · rw [outcome_bind, outcome_consume] at hRun
      dsimp only at hRun
      rw [outcome_bind] at hRun
      split at hRun
      · rename_i found u hFound
        cases hRun
        exact readsPart_of_outcome hFound
      · cases hRun
    · cases hRun
  · exact fun hPart =>
      outcome_nextStringPart_some hPart.hasMore hPart.outcome

/- No part is given at the end, and nothing is passed. -/
theorem stop_of_nextStringPart
    (hRun :
      (nextStringPart nested).outcome s = (.ok none, t)) :
    t = s := by
  unfold nextStringPart at hRun
  rw [outcome_unlessEnd] at hRun
  split at hRun
  · rw [outcome_bind, outcome_consume] at hRun
    dsimp only at hRun
    rw [outcome_bind] at hRun
    split at hRun <;> cases hRun
  · cases hRun
    rfl

/-
  All parts are collected, if there is a token in the budget
  for each of them.
-/
theorem Nested.ReadsParts.outcome
    (hParts : nested.ReadsParts s parts t)
    {budget : List Token}
    (hBudget : parts.length ≤ budget.length) :
    (collectWithin (nextStringPart nested) budget).outcome s =
      (.ok parts, t) := by
  induction hParts generalizing budget with
  | done hEnd =>
      exact outcome_collectWithin_none
        (outcome_nextStringPart_none (.inl hEnd)) budget
  | part hPart _ ih =>
      rw [List.length_cons] at hBudget
      refine outcome_collectWithin_some
        (outcome_nextStringPart_iff.mpr hPart) ?_ (by omega)
      exact fun fewer hFewer => ih (by omega)

/- What is collected up to the end was read. -/
theorem readsParts_of_outcome
    {budget : List Token}
    (hRun :
      (collectWithin (nextStringPart nested) budget).outcome s =
        (.ok parts, t))
    (hEnd : t.token.kind = .stringEnd) :
    nested.ReadsParts s parts t := by
  induction budget generalizing s parts with
  | nil =>
      rw [collectWithin, outcome_bind] at hRun
      split at hRun
      · rename_i found u hFound
        cases hRun
        cases found with
        | none =>
            cases stop_of_nextStringPart hFound
            exact .done hEnd
        | some part =>
            exact .part (outcome_nextStringPart_iff.mp hFound)
              (.done hEnd)
      · cases hRun
  | cons token budget ih =>
      rw [collectWithin, outcome_bind] at hRun
      split at hRun
      · rename_i found u hFound
        cases found with
        | none =>
            cases hRun
            cases stop_of_nextStringPart hFound
            exact .done hEnd
        | some part =>
            dsimp only at hRun
            rw [outcome_bind] at hRun
            split at hRun
            · rename_i others v hOthers
              cases hRun
              exact .part
                (outcome_nextStringPart_iff.mp hFound)
                (ih hOthers)
            · cases hRun
      · cases hRun

/- A string that is accepted was read up to its end. -/
theorem readsParts_of_stringLiteral
    {token : Token}
    (hRun :
      (stringLiteral nested token).outcome s = (.ok e, u)) :
    ∃ parts t,
      nested.ReadsParts s parts t ∧
        e =
          .new (stringForm parts)
            (token.span.between t.token.span) ∧
          u = t.next := by
  unfold stringLiteral collect at hRun
  rw [bind_assoc, outcome_bind, outcome_get] at hRun
  dsimp only at hRun
  rw [outcome_bind] at hRun
  split at hRun
  · rename_i parts t hParts
    rw [outcome_bind] at hRun
    split at hRun
    · rename_i stop v hStop
      rcases outcome_expect_iff.mp hStop with
        ⟨hEnd, rfl, rfl⟩
      cases hRun
      exact ⟨parts, t, readsParts_of_outcome hParts hEnd,
        rfl, rfl⟩
    · cases hRun
  · cases hRun

end SourceCheck
