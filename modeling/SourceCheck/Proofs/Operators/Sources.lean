import Mathlib
import SourceCheck.Proofs.Operators.Following
import SourceCheck.Proofs.Operators.Reading
import SourceCheck.Proofs.Operators.Writing
import SourceCheck.Proofs.Syntax.Program

/-
  Parsing operations from source texts.

  The powers and the associativity of the operators decide
  which operations are canonical, and these are the ones
  that the parser gives: each of them, for every text that
  writes it down, and no others.

  Key theorems include:
    * `parseExpression_isCanonical`
-/

namespace SourceCheck

open SourceCheck.ParserState
open SourceCheck.Parser
open SourceCheck.Grammar

/- A run that reports nothing accepts the text. -/
theorem parse_of_outcome
    {α : Type}
    {source file : String}
    {p : Parser α}
    {a : α}
    {t : ParserState}
    (hRun :
      p.outcome (.initial source file) = (.ok a, t))
    (hQuiet : t.diagnostics = []) :
    parse source file p = .ok a := by
  unfold ParserState.initial at hRun
  rw [parse_eq, hRun]
  dsimp only
  rw [hQuiet]
  rfl

/- What has a quiet derivation is accepted. -/
theorem parseExpression_of_derives
    {source file : String}
    {e : Expr}
    {t : ParserState}
    (hDerives :
      Derives (.expression .loosest) (.initial source file)
        e t)
    (hOperation : e.isOperation = true)
    (hQuiet : t.diagnostics = []) :
    parseExpression source file = .ok e := by
  have hDepth :
      (ParserState.initial source file).left <
        2 * (ParserState.initial source file).left + 2 := by
    omega
  refine parse_of_outcome ?_ hQuiet
  unfold Grammar.closed
  rw [outcome_bind, outcome_get]
  exact outcome_required
    (hDerives.followed hOperation _ hDepth)

/- Every operator binds more tightly than nothing does. -/
theorem extender?_eq_none_of_endsAbove
    {kind : TokenKind}
    (hEnds : kind.EndsAbove .loosest) :
    kind.extender? = none := by
  cases hOperator : kind.extender? with
  | none => rfl
  | some x =>
      rcases x with ⟨extender, q⟩
      refine absurd ?_ (hEnds extender q hOperator)
      rw [Power.lt_iff]
      cases kind <;> cases hOperator <;> decide

/-
  Operations are parsed as the powers of their operators
  say.  From any text that starts with a way to write a
  canonical operation, and then extends it no further, the
  parser gives an equivalent tree.  And if the tree that it
  gives is an operation, it is canonical, and the text
  starts with a way to write it.
-/
theorem parseExpression_isCanonical
    (source file : String) :
    (∀ (e : Expr) ts token us,
        e.isOperation = true →
          e.isCanonical = true →
            e.WrittenAs ts →
              token.kind.extender? = none →
                tokenize source (some file) =
                    ts ++ token :: us →
                  ∃ f,
                    parseExpression source file = .ok f ∧
                      e.equivalent f = true) ∧
      ∀ e,
        parseExpression source file = .ok e →
          e.isOperation = true →
            e.isCanonical = true ∧
              ∃ ts token us,
                tokenize source (some file) =
                    ts ++ token :: us ∧
                  e.WrittenAs ts ∧
                    token.kind.extender? = none := by
  have hStart :
      (ParserState.initial source file).stream.ahead =
        tokenize source (some file) :=
    (ofSource_eq source file).2.1
  constructor
  · intro e ts token us hOperation hCanonical hWritten hNone
      hTokens
    rw [← hStart] at hTokens
    have hToken := token_of_ahead (ahead_passed hTokens)
    have hReadable : e.Readable ts :=
      readable_of_writtenAs hWritten hOperation hCanonical
    rcases hReadable.endsLoosest hTokens
      (endsAbove_of_extender?_eq_none
        (by rw [hToken, hNone]) _) with
      ⟨f, hCopies, hDerives⟩
    refine ⟨f, ?_, hCopies.equivalent⟩
    refine parseExpression_of_derives hDerives
      hCopies.isOperation ?_
    rw [diagnostics_passed]
    rfl
  · intro e hParse hOperation
    rcases derives_of_parseExpression hParse with
      ⟨t, hDerives, hAhead⟩
    rcases hDerives.written ⟨by decide, by decide⟩
      hOperation with ⟨hWritten, hEnds⟩
    have hCanonical := hWritten.isCanonical
    rcases hWritten.tokens with ⟨ts, hTokens, hWritten⟩
    rw [hStart] at hTokens
    cases hLeft : t.stream.ahead with
    | nil => exact absurd hLeft hAhead
    | cons token us =>
        rw [token_of_ahead hLeft] at hEnds
        rw [hLeft] at hTokens
        exact ⟨hCanonical, ts, token, us, hTokens, hWritten,
          extender?_eq_none_of_endsAbove hEnds⟩

/- An operation that is written in two ways at least. -/
theorem parseExpression_isCanonical_mixed :
    ∃ e f ts,
      parseExpression "a.b = c or -f(x, y = 1,) * 0x2 - d"
          "main" = .ok e ∧
        e.isOperation = true ∧
          e.isCanonical = true ∧
            e.WrittenAs ts ∧
              parseExpression
                  "a.b = c or -f(x, y = 1,) * 0x2 - d"
                  "main" = .ok f ∧
                e.equivalent f = true := by
  have hParsed :
      (parseExpression "a.b = c or -f(x, y = 1,) * 0x2 - d"
          "main").map Expr.isOperation = .ok true := by
    cbv
  have hBoth :=
    parseExpression_isCanonical
      "a.b = c or -f(x, y = 1,) * 0x2 - d" "main"
  cases hParse :
      parseExpression "a.b = c or -f(x, y = 1,) * 0x2 - d"
        "main" with
  | error ds =>
      rw [hParse] at hParsed
      cases hParsed
  | ok e =>
      have hOperation : e.isOperation = true := by
        rw [hParse] at hParsed
        exact Except.ok.inj hParsed
      rcases hBoth.2 e hParse hOperation with
        ⟨hCanonical, ts, token, us, hTokens, hWritten, hNone⟩
      rcases hBoth.1 e ts token us hOperation hCanonical
        hWritten hNone hTokens with ⟨f, hOther, hSame⟩
      exact ⟨e, f, ts, rfl, hOperation, hCanonical,
        hWritten, hParse ▸ hOther, hSame⟩

end SourceCheck
