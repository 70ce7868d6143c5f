import SourceCheck.Proofs.Syntax.Effect

/-
  Where trees stand.

  The range of an expression starts where its first token
  starts and stops where its last token stops.

  Key definitions include:
    * `Phrase.Extent`

  Key theorems include:
    * `DerivesType.stop_eq`
    * `Derives.extent`
-/

namespace SourceCheck

open SourceCheck.Parser
open SourceCheck.ParserState

------------------------------------------------------------
-- Written types
------------------------------------------------------------

/- The range up to the previous token stops there. -/
def ParserState.EndsAt
    (s : ParserState)
    (span : Span) :
    Prop :=
  span.stop.offset = s.reach

/- The range before the phrase, if there is something. -/
def TypePhrase.Starts
    (s : ParserState) :
    TypePhrase → Prop
  | .operand _ => True
  | .extensions _ _ left => s.EndsAt left.span
  | .behind _ _ fallback => s.EndsAt fallback

theorem ParserState.endsAt_next
    {s : ParserState}
    (hMore : s.token.kind ≠ .eof) :
    s.next.EndsAt s.token.span :=
  (reach_next hMore).symm

/- Behind a token the previous one stops there. -/
theorem ParserState.endsAt_previous
    {s : ParserState}
    (hSome : s.stream.before ≠ []) :
    s.EndsAt s.stream.previous.span := by
  unfold EndsAt reach TokenStream.previous
  cases hBefore : s.stream.before with
  | nil => exact absurd hBefore hSome
  | cons b before => rfl

/- A type stops with its last token. -/
theorem DerivesType.stop_eq
    {phrase : TypePhrase}
    {s t : ParserState}
    {x : TypeExpr}
    (hDerives : DerivesType phrase s x t) :
    phrase.Starts s → t.EndsAt x.span := by
  induction hDerives with
  | name hName =>
      exact fun _ => endsAt_next (ne_eof_of_isName hName)
  | joined _ _ ihFirst ihMore =>
      exact fun _ => ihMore (ihFirst trivial)
  | stop _ => exact fun hStarts => hStarts
  | @more join joins left s x t y u _ _ _ ihRight ihMore =>
      intro _
      apply ihMore
      have hRight := ihRight trivial
      cases join with
      | union => exact hRight
      | intersection => exact hRight
  | present _ _ ih => exact fun _ => ih trivial
  | absent _ => exact fun hStarts => hStarts

------------------------------------------------------------
-- Expressions
------------------------------------------------------------

/-
  Where the tree of a phrase starts and stops, if what lies
  before the phrase stops with the previous token.
-/
def Phrase.Extent :
    (phrase : Phrase) →
      ParserState → phrase.Result → ParserState → Prop
  | .expression _, s, e, t =>
      e.span.start = s.token.span.start ∧ t.EndsAt e.span
  | .extensions _ left, s, e, t =>
      e.span.start = left.span.start ∧
        (s.EndsAt left.span → t.EndsAt e.span)
  | .start _ token, s, e, t =>
      e.span.start = token.span.start ∧
        (s.EndsAt token.span → t.EndsAt e.span)
  | .extension _ left _ _, _, e, t =>
      e.span.start = left.span.start ∧ t.EndsAt e.span
  | .behind _, s, o, t =>
      ∀ fallback,
        s.EndsAt fallback →
          t.EndsAt ((o.map (·.span)).getD fallback)
  | .body, _, e, t => t.EndsAt e.span
  | .block token, _, e, t =>
      e.span.start = token.span.start ∧ t.EndsAt e.span
  | _, _, _, _ => True

/- Expressions stand from their first to their last token. -/
theorem Derives.extent
    {phrase : Phrase}
    {s t : ParserState}
    {r : phrase.Result}
    (hDerives : Derives phrase s r t) :
    phrase.Extent s r t := by
  have hClosing {s : ParserState} {kind : TokenKind}
      (hKind : s.token.kind = kind)
      (hMore : kind ≠ .eof) :
      s.next.EndsAt s.token.span :=
    endsAt_next (by rw [hKind]; exact hMore)
  induction hDerives with
  | expression hStart _ _ ihFirst ihMore =>
      have hToken := endsAt_next (ne_eof_of_starter hStart)
      exact ⟨ihMore.1.trans ihFirst.1,
        ihMore.2 (ihFirst.2 hToken)⟩
  | stop _ => exact ⟨rfl, fun hLeft => hLeft⟩
  | more _ _ _ _ ihExtension ihMore =>
      exact ⟨ihMore.1.trans ihExtension.1,
        fun _ => ihMore.2 ihExtension.2⟩
  | int _ => exact ⟨rfl, fun hToken => hToken⟩
  | boolean => exact ⟨rfl, fun hToken => hToken⟩
  | string _ hClose _ =>
      exact ⟨rfl, fun _ => hClosing hClose nofun⟩
  | reference _ => exact ⟨rfl, fun hToken => hToken⟩
  | invocation _ _ hClose _ =>
      exact ⟨rfl, fun _ => hClosing hClose nofun⟩
  | unary _ ih => exact ⟨rfl, fun _ => ih.2⟩
  | grouping _ hClose _ =>
      exact ⟨rfl, fun _ => hClosing hClose nofun⟩
  | startBlock _ ih => exact ⟨ih.1, fun _ => ih.2⟩
  | conditional _ _ _ _ _ _ ihThen ihElse =>
      exact ⟨rfl, fun _ => ihElse _ ihThen.2⟩
  | functionLiteral _ _ _ _ ihBody =>
      exact ⟨rfl, fun _ => ihBody⟩
  | lambda _ _ _ _ ihBody => exact ⟨rfl, fun _ => ihBody.2⟩
  | retValue _ ih => exact ⟨rfl, fun _ => ih.2⟩
  | retNothing _ => exact ⟨rfl, fun hToken => hToken⟩
  | binary _ _ ih => exact ⟨rfl, ih.2⟩
  | assignment _ _ ih => exact ⟨rfl, ih.2⟩
  | member _ _ _ ih => exact ⟨rfl, ih.2⟩
  | call _ hClose _ => exact ⟨rfl, hClosing hClose nofun⟩
  | present _ _ ih => exact fun _ _ => ih.2
  | absent _ => exact fun _ hFallback => hFallback
  | bodyValue _ _ ih => exact ih.2
  | bodyBlock _ _ ih => exact ih.2
  | block _ hClose _ => exact ⟨rfl, hClosing hClose nofun⟩
  | _ => trivial

end SourceCheck
