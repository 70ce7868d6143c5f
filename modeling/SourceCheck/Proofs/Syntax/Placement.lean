import SourceCheck.Proofs.Layout.Ranges
import SourceCheck.Proofs.Syntax.Extent
import SourceCheck.Proofs.Syntax.Rules

/-
  Parts of trees within each other.

  The range of a node holds those of the nodes that it is
  made of, one behind the other.  What a phrase stands for
  is laid between the places that the cursor has reached
  before and behind it.

  Key definitions include:
    * `ExprForm.partSpans`
    * `NodeRules.placed`
    * `Phrase.Laid`

  Key theorems include:
    * `DerivesType.laid`
    * `Derives.laid`
-/

namespace SourceCheck

open SourceCheck.Parser
open SourceCheck.ParserState

------------------------------------------------------------
-- Parts of nodes
------------------------------------------------------------

/- The range of a node that may be left out. -/
def optionSpans (o : Option Expr) : List Span :=
  (o.map (·.span)).toList

/- The ranges of the parts of a form, in their order. -/
def ExprForm.partSpans : ExprForm → List Span
  | .int _ => []
  | .long _ => []
  | .boolean _ => []
  | .string _ => []
  | .template parts => parts.map (·.span)
  | .reference _ _ => []
  | .invocation _ arguments _ => arguments.map (·.span)
  | .call callee arguments =>
      callee.span :: arguments.map (·.span)
  | .access left _ right => [left.span, right.span]
  | .binary left _ right => [left.span, right.span]
  | .unary _ operand => [operand.span]
  | .assignment target _ value => [target.span, value.span]
  | .parenthesized inner => [inner.span]
  | .block statements _ => statements.map (·.span)
  | .conditional condition thenBranch elseBranch =>
      condition.span :: thenBranch.span ::
        optionSpans elseBranch
  | .function parameters returnType body _ =>
      parameters.map (·.span) ++
        [returnType.span, body.span]
  | .lambda parameters body _ =>
      parameters.map (·.span) ++ [body.span]
  | .ret value => optionSpans value

/- The arguments that a form passes. -/
def ExprForm.arguments : ExprForm → List Argument
  | .invocation _ arguments _ => arguments
  | .call _ arguments => arguments
  | _ => []

/- The ranges of the sides of a written type. -/
def TypeForm.partSpans : TypeForm → List Span
  | .absent => []
  | .named _ => []
  | .union left right => [left.span, right.span]
  | .intersection left right => [left.span, right.span]

/- An argument holds its value. -/
def Argument.IsPlaced (x : Argument) : Prop :=
  x.span.Holds [x.value.span]

/- An expression holds its parts, and so do its arguments. -/
def Expr.IsPlaced (e : Expr) : Prop :=
  e.span.Holds e.form.partSpans ∧
    ∀ x ∈ e.form.arguments, x.IsPlaced

/- Each node holds its parts, one behind the other. -/
def NodeRules.placed : NodeRules where
  ofExpr := Expr.IsPlaced
  ofMember := Expr.IsPlaced
  ofTypeExpr x := x.span.Holds x.form.partSpans
  ofParameter p :=
    p.span.Holds (p.typeExpr.span :: optionSpans p.fallback)
  ofVariable v :=
    v.span.Holds
      (v.typeExpr.span :: optionSpans v.initializer)
  ofFunction f :=
    f.span.Holds
      (f.parameters.map (·.span) ++
        f.returnType.span :: optionSpans f.body)

variable {s t u : ParserState}

------------------------------------------------------------
-- Written types
------------------------------------------------------------

/-
  A type is laid behind what stands before it, or takes its
  place if it is left out, and its nodes are placed.
-/
def TypePhrase.Laid
    (s : ParserState)
    (x : TypeExpr)
    (t : ParserState) :
    TypePhrase → Prop
  | .operand _ =>
      Span.Laid s.reach [x.span] t.reach ∧ x.Obeys .placed
  | .extensions _ _ left =>
      ∀ a,
        Span.Laid a [left.span] s.reach →
          left.Obeys .placed →
            Span.Laid a [x.span] t.reach ∧ x.Obeys .placed
  | .behind _ _ fallback =>
      ∀ a,
        Span.Laid a [fallback] s.reach →
          Span.Laid a [x.span] t.reach ∧ x.Obeys .placed

/- A token is laid where it is passed. -/
theorem ParserState.Regular.laid_token
    (hRegular : s.Regular)
    (hMore : s.token.kind ≠ .eof) :
    Span.Laid s.reach [s.token.span] s.next.reach := by
  have hForward := hRegular.offset_lt_reach_next hMore
  have hStop := reach_next hMore
  refine .single hRegular.reach_le_offset ?_ ?_
  · rw [← hStop]
    exact Nat.le_of_lt hForward
  · exact Nat.le_of_eq hStop.symm

theorem placed_combine
    (join : TypeJoin)
    {a b : Nat}
    {x y : TypeExpr}
    (hBoth : Span.Laid a [x.span, y.span] b)
    (hStop : y.span.stop.offset = b)
    (hLeft : x.Obeys .placed)
    (hRight : y.Obeys .placed) :
    (join.combine x y).Obeys .placed := by
  have hHolds :
      (x.span.between y.span).Holds [x.span, y.span] :=
    hBoth.own.holds (Nat.le_refl _)
      (Nat.le_of_eq hStop.symm)
  cases join with
  | union => exact ⟨hHolds, hLeft, hRight⟩
  | intersection => exact ⟨hHolds, hLeft, hRight⟩

theorem span_combine
    (join : TypeJoin)
    (x y : TypeExpr) :
    (join.combine x y).span = x.span.between y.span := by
  cases join with
  | union => rfl
  | intersection => rfl

theorem DerivesType.laid
    {phrase : TypePhrase}
    {x : TypeExpr}
    (hDerives : DerivesType phrase s x t) :
    s.Regular → phrase.Laid s x t := by
  induction hDerives with
  | name hName =>
      exact fun hRegular =>
        ⟨hRegular.laid_token (ne_eof_of_isName hName),
          Span.holds_nil _, trivial⟩
  | joined hFirst _ ihFirst ihMore =>
      intro hRegular
      have hLeft := ihFirst hRegular
      exact ihMore (hFirst.leads hRegular).regular _ hLeft.1
        hLeft.2
  | stop _ => exact fun _ a hLeft hPlaced => ⟨hLeft, hPlaced⟩
  | @more join joins left s x t y u _ hRight _ ihRight
      ihMore =>
      intro hRegular a hLeft hPlaced
      have hNext := Leads.next hRegular
      have hThere := ihRight hNext.regular
      have hBoth :=
        hLeft.andThen
          (hThere.1.widen hNext.reach_le (Nat.le_refl _))
      refine ihMore (hRight.leads hNext.regular).regular a ?_
        (placed_combine join hBoth (hRight.stop_eq trivial)
          hPlaced hThere.2)
      rw [span_combine]
      exact hBoth.join
  | present _ _ ih =>
      intro hRegular a hFallback
      have hNext := Leads.next hRegular
      have hThere := ih hNext.regular
      exact ⟨hThere.1.widen
          (Nat.le_trans hFallback.le hNext.reach_le)
          (Nat.le_refl _),
        hThere.2⟩
  | absent _ =>
      exact fun _ a hFallback =>
        ⟨hFallback, Span.holds_nil _, trivial⟩

------------------------------------------------------------
-- Places of phrases
------------------------------------------------------------

/- The range of an item. -/
def Item.span : (i : Item) → i.Result → Span
  | .argument, x => x.span
  | .parameter, p => p.span
  | .lambdaParameter, p => p.span
  | .entry, x => x.span

/-
  What a phrase stands for is laid between its two states.
  Phrases that go on from what stands before them have no
  range of their own.
-/
def Phrase.Laid :
    (phrase : Phrase) →
      ParserState → phrase.Result → ParserState → Prop
  | .expression _, s, e, t =>
      Span.Laid s.reach [e.span] t.reach
  | .behind _, s, o, t =>
      Span.Laid s.reach (optionSpans o) t.reach
  | .item i, s, x, t => Span.Laid s.reach [i.span x] t.reach
  | .items i, s, xs, t =>
      Span.Laid s.reach (xs.map i.span) t.reach
  | .moreItems i, s, xs, t =>
      Span.Laid s.reach (xs.map i.span) t.reach
  | .signature, s, r, t =>
      Span.Laid s.reach (r.1.map (·.span) ++ [r.2.span])
        t.reach
  | .body, s, e, t => Span.Laid s.reach [e.span] t.reach
  | .namedBody, s, o, t =>
      Span.Laid s.reach (optionSpans o) t.reach
  | .parts, s, xs, t =>
      Span.Laid s.reach (xs.map (·.expression.span)) t.reach
  | .statements, s, xs, t =>
      Span.Laid s.reach (xs.map (·.span)) t.reach
  | .statement, s, x, t => Span.Laid s.reach [x.span] t.reach
  | .variableDecl _, s, v, t =>
      Span.Laid s.reach [v.span] t.reach
  | .functionDecl, s, f, t =>
      Span.Laid s.reach [f.span] t.reach
  | _, _, _, _ => True

/- A state that has reached something has passed a token. -/
theorem ParserState.before_ne (hSome : 0 < s.reach) :
    s.stream.before ≠ [] := by
  intro hNone
  unfold reach at hSome
  rw [hNone] at hSome
  cases hSome

/- A range from a token on stops where the cursor stands. -/
theorem laid_from_token
    {span : Span}
    (hRegular : s.Regular)
    (hMore : s.token.kind ≠ .eof)
    (hReach : s.next.reach ≤ t.reach)
    (hStart : span.start = s.token.span.start)
    (hStop : t.EndsAt span) :
    Span.Laid s.reach [span] t.reach := by
  have hForward := hRegular.offset_lt_reach_next hMore
  refine .single ?_ ?_ (Nat.le_of_eq hStop)
  · rw [hStart]
    exact hRegular.reach_le_offset
  · rw [hStart, hStop]
    exact Nat.le_trans (Nat.le_of_lt hForward) hReach

/- So does the range from a token to what was passed last. -/
theorem laid_between
    {last : Span}
    (hRegular : s.Regular)
    (hMore : s.token.kind ≠ .eof)
    (hReach : s.next.reach ≤ t.reach)
    (hStop : t.EndsAt last) :
    Span.Laid s.reach [s.token.span.between last] t.reach :=
  laid_from_token hRegular hMore hReach rfl hStop

/- What is laid behind a token is laid before it as well. -/
theorem Span.Laid.before
    {xs : List Span}
    {b : Nat}
    (hLaid : Span.Laid s.next.reach xs b)
    (hRegular : s.Regular) :
    Span.Laid s.reach xs b :=
  hLaid.widen hRegular.reach_le_next (Nat.le_refl _)

/- A token may be passed behind what is laid. -/
theorem Span.Laid.behind
    {xs : List Span}
    {a : Nat}
    (hLaid : Span.Laid a xs s.reach)
    (hRegular : s.Regular) :
    Span.Laid a xs s.next.reach :=
  hLaid.widen (Nat.le_refl _) hRegular.reach_le_next

/- A declaration moves no cursor. -/
theorem Span.Laid.declares
    {xs : List Span}
    {a : Nat}
    {d : Definition}
    {id : DefinitionId}
    (hLaid : Span.Laid a xs s.reach)
    (hDeclares : s.Declares d id t) :
    Span.Laid a xs t.reach := by
  rcases hDeclares with ⟨-, scope, -, -, rfl⟩
  exact hLaid

/- An expression is laid from its first token on. -/
theorem Derives.laid_expression
    {power : Power}
    {e : Expr}
    (hDerives : Derives (.expression power) s e t)
    (hRegular : s.Regular) :
    Span.Laid s.reach [e.span] t.reach := by
  have hExtent := hDerives.extent
  cases hDerives with
  | expression hStart hFirst hMore =>
      have hThere := hFirst.leads hRegular.next
      have hBehind := hMore.leads hThere.regular
      exact laid_from_token hRegular
        (ne_eof_of_starter hStart)
        (Nat.le_trans hThere.reach_le hBehind.reach_le)
        hExtent.1 hExtent.2

/- Phrases are laid where the cursor passes them. -/
theorem Derives.laid
    {phrase : Phrase}
    {r : phrase.Result}
    (hDerives : Derives phrase s r t) :
    s.Regular → phrase.Laid s r t := by
  have hName {s : ParserState} (hIs : s.token.kind.isName) :
      s.token.kind ≠ .eof :=
    ne_eof_of_isName hIs
  have hOther {s : ParserState} {kind : TokenKind}
      (hKind : s.token.kind = kind)
      (hNot : kind ≠ .eof) :
      s.token.kind ≠ .eof := by
    rw [hKind]
    exact hNot
  induction hDerives with
  | expression hStart hFirst hMore =>
      exact Derives.laid_expression
        (.expression hStart hFirst hMore)
  | present _ hValue =>
      exact fun hRegular =>
        (hValue.laid_expression hRegular.next).before hRegular
  | absent _ => exact fun _ => .nil (Nat.le_refl _)
  | named hNamed hValue =>
      intro hRegular
      have hNext := Leads.next hRegular.next
      have hThere := hValue.leads hNext.regular
      exact laid_between hRegular (hName hNamed.1)
        (Nat.le_trans hNext.reach_le hThere.reach_le)
        hValue.extent.2
  | positional _ hValue => exact hValue.laid_expression
  | parameter hIs _ hType hFallback hSpan hDeclares =>
      intro hRegular
      have hColon := Leads.next hRegular.next
      have hTyped :=
        hColon.trans (hType.leads hColon.regular)
      have hThere :=
        hTyped.trans (hFallback.leads hTyped.regular)
      have hStops :=
        hFallback.extent _ (hType.stop_eq trivial)
      subst hSpan
      exact (laid_between hRegular (hName hIs)
        hThere.reach_le hStops).declares hDeclares
  | lambdaParameter hIs hType hSpan hDeclares =>
      intro hRegular
      have hThere := hType.leads hRegular.next
      have hStops := hType.stop_eq (endsAt_next (hName hIs))
      subst hSpan
      exact (laid_between hRegular (hName hIs)
        hThere.reach_le hStops).declares hDeclares
  | entry hIs _ =>
      exact fun hRegular => hRegular.laid_token (hName hIs)
  | renamedEntry hIs _ hNewName =>
      intro hRegular
      have hThere := (Leads.next hRegular.next).andNext
      exact laid_between hRegular (hName hIs)
        hThere.reach_le (endsAt_next (hName hNewName))
  | noItems _ => exact fun _ => .nil (Nat.le_refl _)
  | someItems _ hFirst _ ihFirst ihMore =>
      intro hRegular
      exact (ihFirst hRegular).andThen
        (ihMore (hFirst.leads hRegular).regular)
  | lastItem _ => exact fun _ => .nil (Nat.le_refl _)
  | trailingComma _ _ =>
      exact fun hRegular => .nil hRegular.reach_le_next
  | nextItem _ _ hItem _ ihItem ihMore =>
      intro hRegular
      have hThere := (hItem.leads hRegular.next).regular
      exact ((ihItem hRegular.next).andThen
        (ihMore hThere)).before hRegular
  | signature _ hItems hClose hType ihItems =>
      intro hRegular
      have hThere := (hItems.leads hRegular.next).regular
      have hToken :=
        hThere.laid_token (hOther hClose nofun)
      exact ((ihItems hRegular.next).append
        (hType.laid hThere.next _ hToken).1).before hRegular
  | bodyValue _ hValue =>
      exact fun hRegular =>
        (hValue.laid_expression hRegular.next).before hRegular
  | bodyBlock hOpen hBlock =>
      intro hRegular
      have hThere := hBlock.leads hRegular.next
      exact laid_from_token hRegular (hOther hOpen nofun)
        hThere.reach_le hBlock.extent.1 hBlock.extent.2
  | namedValue _ hValue _ =>
      intro hRegular
      have hThere := (hValue.leads hRegular.next).regular
      exact ((hValue.laid_expression hRegular.next).before
        hRegular).behind hThere
  | namedBlock hOpen hBlock =>
      intro hRegular
      have hThere := hBlock.leads hRegular.next
      exact laid_from_token hRegular (hOther hOpen nofun)
        hThere.reach_le hBlock.extent.1 hBlock.extent.2
  | namedNone _ =>
      exact fun hRegular => .nil hRegular.reach_le_next
  | namedNothing _ => exact fun _ => .nil (Nat.le_refl _)
  | noParts _ => exact fun _ => .nil (Nat.le_refl _)
  | textPart hText _ ih =>
      intro hRegular
      exact (hRegular.laid_token
        (hOther hText nofun)).andThen (ih hRegular.next)
  | escapePart hEscape _ _ ih =>
      intro hRegular
      exact (hRegular.laid_token
        (hOther hEscape nofun)).andThen (ih hRegular.next)
  | embeddedPart _ hExpr _ _ _ ihMore =>
      intro hRegular
      have hThere := (hExpr.leads hRegular.next).regular
      exact ((hExpr.laid_expression hRegular.next).andThen
        ((ihMore hThere.next).before hThere)).before hRegular
  | noStatements _ => exact fun _ => .nil (Nat.le_refl _)
  | someStatements _ _ hFirst _ ihFirst ihMore =>
      intro hRegular
      exact (ihFirst hRegular).andThen
        (ihMore (hFirst.leads hRegular).regular)
  | variableStatement _ _ ih => exact ih
  | functionStatement _ _ ih => exact ih
  | endedStatement _ _ _ hExpr _ _ =>
      exact fun hRegular =>
        (hExpr.laid_expression hRegular).behind
          (hExpr.leads hRegular).regular
  | openStatement _ _ _ hExpr _ _ _ =>
      exact hExpr.laid_expression
  | variableDecl hKeyword _ hType hInitializer hStop hSpan
      hDeclares =>
      intro hRegular
      have hNamed := Leads.next hRegular.next
      have hTyped :=
        hNamed.trans (hType.leads hNamed.regular)
      have hThere :=
        (hTyped.trans
          (hInitializer.leads hTyped.regular)).andNext
      subst hSpan
      exact (laid_between hRegular hKeyword hThere.reach_le
        (endsAt_next (hOther hStop nofun))).declares
          hDeclares
  | functionDecl hKeyword _ hSignature hBody hSpan
      hDeclares =>
      intro hRegular
      have hMore := hOther hKeyword nofun
      have hNamed := Leads.next hRegular.next
      have hSigned :=
        hSignature.leads hNamed.regular.opened
      have hInside :=
        hSigned.andThen (hBody.leads hSigned.regular)
      have hThere :=
        hNamed.trans (.scoped hNamed.regular hInside)
      have hForward := hRegular.offset_lt_reach_next hMore
      have hSome :=
        Nat.lt_of_lt_of_le (Nat.zero_lt_of_lt hForward)
          hThere.reach_le
      subst hSpan
      exact (laid_between hRegular hMore hThere.reach_le
        (endsAt_previous (before_ne hSome))).declares hDeclares
  | _ => exact fun _ => trivial

end SourceCheck
