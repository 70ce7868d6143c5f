import SourceCheck.Proofs.Syntax.Equivalence
import SourceCheck.Proofs.Syntax.Placement

/-
  Nodes that hold their parts.

  Each node of a tree that is read holds its parts, one
  behind the other, since its range is from a token before
  them to one behind them, or to the last of them.

  Key definitions include:
    * `Phrase.Placed`

  Key theorems include:
    * `Derives.placed`
-/

namespace SourceCheck

open SourceCheck.Parser
open SourceCheck.ParserState

variable {s t u : ParserState}

------------------------------------------------------------
-- Nodes
------------------------------------------------------------

/- The nodes of items are placed. -/
def Item.AllPlaced : (i : Item) → List i.Result → Prop
  | .argument, xs =>
      argumentsObey .placed xs ∧ ∀ x ∈ xs, x.IsPlaced
  | .parameter, ps => parametersObey .placed ps
  | .lambdaParameter, ps => parametersObey .placed ps
  | .entry, _ => True

/-
  The nodes of a phrase are placed, if so is what stands
  before it.
-/
def Phrase.Placed :
    (phrase : Phrase) →
      ParserState → phrase.Result → Prop
  | .expression _, _, e => e.Obeys .placed
  | .extensions _ left, s, e =>
      Span.Laid left.span.start.offset [left.span] s.reach →
        left.Obeys .placed → e.Obeys .placed
  | .start _ token, s, e =>
      token.span.start.offset ≤ s.reach → e.Obeys .placed
  | .extension _ left _ _, s, e =>
      Span.Laid left.span.start.offset [left.span] s.reach →
        left.Obeys .placed → e.Obeys .placed
  | .behind _, _, o => optionObeys .placed o
  | .item i, _, x => i.AllPlaced [x]
  | .items i, _, xs => i.AllPlaced xs
  | .moreItems i, _, xs => i.AllPlaced xs
  | .signature, _, r =>
      parametersObey .placed r.1 ∧ r.2.Obeys .placed
  | .body, _, e => e.Obeys .placed
  | .namedBody, _, o => optionObeys .placed o
  | .parts, _, xs =>
      exprsObey .placed (xs.map (·.expression))
  | .block token, s, e =>
      token.span.start.offset ≤ s.reach → e.Obeys .placed
  | .statements, _, xs => statementsObey .placed xs
  | .statement, _, x => x.Obeys .placed
  | .variableDecl _, _, v => v.Obeys .placed
  | .functionDecl, _, f => f.Obeys .placed

/- A new node is placed around the parts that it holds. -/
theorem placed_new
    {form : ExprForm}
    {span : Span}
    {a b : Nat}
    (hLaid : Span.Laid a form.partSpans b)
    (hStart : span.start.offset ≤ a)
    (hStop : span.stop.offset = b)
    (hArguments : ∀ x ∈ form.arguments, x.IsPlaced)
    (hForm : form.Obeys .placed) :
    (Expr.new form span).Obeys .placed :=
  ⟨⟨hLaid.holds hStart (Nat.le_of_eq hStop.symm),
      hArguments⟩,
    hForm⟩

/- A new node without parts is placed anywhere. -/
theorem placed_leaf
    {form : ExprForm}
    {span : Span}
    (hForm : form.Obeys .placed)
    (hNone : form.partSpans = [])
    (hArguments : form.arguments = []) :
    (Expr.new form span).Obeys .placed := by
  refine ⟨⟨?_, ?_⟩, hForm⟩
  · change span.Holds form.partSpans
    rw [hNone]
    exact Span.holds_nil span
  · change ∀ x ∈ form.arguments, x.IsPlaced
    rw [hArguments]
    exact nofun

/- A text takes up the text behind it, with its place. -/
theorem placed_consMerged
    {a b : Nat}
    {e : Expr}
    {es : List Expr}
    (hLaid : Span.Laid a ((e :: es).map (·.span)) b)
    (hPlaced : exprsObey .placed (e :: es)) :
    Span.Laid a ((consMerged e es).map (·.span)) b ∧
      exprsObey .placed (consMerged e es) := by
  unfold consMerged
  split
  · exact ⟨hLaid.join,
      placed_leaf trivial rfl rfl, hPlaced.2.2⟩
  · exact ⟨hLaid, hPlaced⟩

theorem placed_mergeTexts
    {a b : Nat}
    {es : List Expr}
    (hLaid : Span.Laid a (es.map (·.span)) b)
    (hPlaced : exprsObey .placed es) :
    Span.Laid a ((mergeTexts es).map (·.span)) b ∧
      exprsObey .placed (mergeTexts es) := by
  induction es generalizing a with
  | nil => exact ⟨hLaid, hPlaced⟩
  | cons e es ih =>
      rcases hLaid with _ | ⟨hFrom, hForward, hRest⟩
      have hMerged := ih hRest hPlaced.2
      rw [mergeTexts_cons]
      exact placed_consMerged
        (.cons hFrom hForward hMerged.1)
        ⟨hPlaced.1, hMerged.2⟩

theorem placed_string
    {a b : Nat}
    {parts : List StringPart}
    {span : Span}
    (hLaid : Span.Laid a (parts.map (·.expression.span)) b)
    (hStart : span.start.offset ≤ a)
    (hStop : span.stop.offset = b)
    (hPlaced :
      exprsObey .placed (parts.map (·.expression))) :
    (Expr.new (stringForm parts) span).Obeys .placed := by
  unfold stringForm
  split
  · have hSpans :
        Span.Laid a
          ((parts.map (·.expression)).map (·.span)) b := by
      rw [List.map_map]
      exact hLaid
    rcases placed_mergeTexts hSpans hPlaced with
      ⟨hMerged, hParts⟩
    exact placed_new hMerged hStart hStop nofun hParts
  · exact placed_leaf trivial rfl rfl

theorem placed_int
    {text : String}
    {form : ExprForm}
    (hForm : intForm? text = some form)
    (span : Span) :
    (Expr.new form span).Obeys .placed := by
  rcases exists_of_intForm? hForm with ⟨n, rfl⟩ | ⟨n, rfl⟩
  · exact placed_leaf trivial rfl rfl
  · exact placed_leaf trivial rfl rfl

theorem Item.allPlaced_nil (i : Item) : i.AllPlaced [] := by
  cases i with
  | argument => exact ⟨trivial, nofun⟩
  | _ => trivial

theorem Item.allPlaced_cons
    {i : Item}
    {x : i.Result}
    {xs : List i.Result}
    (hFirst : i.AllPlaced [x])
    (hOthers : i.AllPlaced xs) :
    i.AllPlaced (x :: xs) := by
  cases i with
  | argument =>
      rcases x with ⟨name, value, span⟩
      exact ⟨⟨hFirst.1.1, hOthers.1⟩,
        List.forall_mem_cons.2
          ⟨hFirst.2 _ List.mem_cons_self, hOthers.2⟩⟩
  | parameter =>
      rcases x with ⟨name, type, fallback, id, span⟩
      exact ⟨hFirst.1, hOthers⟩
  | lambdaParameter =>
      rcases x with ⟨name, type, fallback, id, span⟩
      exact ⟨hFirst.1, hOthers⟩
  | entry => trivial

/- The right side of an access is asked for the same. -/
theorem aside_of_placed
    {e : Expr}
    (hPlaced : e.Obeys .placed) :
    e.ObeysAside .placed := by
  rcases e with ⟨form, span, type⟩
  exact hPlaced

/- An expression is laid from where it starts itself. -/
theorem laid_own
    {e : Expr}
    (hForward : e.span.start.offset ≤ t.reach)
    (hStop : t.EndsAt e.span) :
    Span.Laid e.span.start.offset [e.span] t.reach := by
  refine .single (Nat.le_refl _) ?_ (Nat.le_of_eq hStop)
  rw [hStop]
  exact hForward

/- Each node of a phrase holds its parts. -/
theorem Derives.placed
    {phrase : Phrase}
    {r : phrase.Result}
    (hDerives : Derives phrase s r t) :
    s.Regular → phrase.Placed s r := by
  have hOther {s : ParserState} {kind : TokenKind}
      (hKind : s.token.kind = kind)
      (hNot : kind ≠ .eof) :
      s.token.kind ≠ .eof := by
    rw [hKind]
    exact hNot
  have hName {s : ParserState} (hIs : s.token.kind.isName) :
      s.token.kind ≠ .eof :=
    ne_eof_of_isName hIs
  have hStarts {s : ParserState}
      (hRegular : s.Regular)
      (hMore : s.token.kind ≠ .eof) :
      s.token.span.start.offset ≤ s.next.reach :=
    Nat.le_of_lt (hRegular.offset_lt_reach_next hMore)
  have hStops {s : ParserState} {kind : TokenKind}
      (hKind : s.token.kind = kind)
      (hNot : kind ≠ .eof) :
      s.next.EndsAt s.token.span :=
    endsAt_next (hOther hKind hNot)
  induction hDerives with
  | expression hStart hFirst _ ihFirst ihMore =>
      intro hRegular
      have hMore := ne_eof_of_starter hStart
      have hThere := hFirst.leads hRegular.next
      have hExtent := hFirst.extent
      have hFrom := hStarts hRegular hMore
      refine ihMore hThere.regular ?_
        (ihFirst hRegular.next hFrom)
      refine laid_own ?_ (hExtent.2 (endsAt_next hMore))
      rw [hExtent.1]
      exact Nat.le_trans hFrom hThere.reach_le
  | stop _ => exact fun _ _ hPlaced => hPlaced
  | more _ _ hExtension _ ihExtension ihMore =>
      intro hRegular hLeft hPlaced
      have hThere := hExtension.leads hRegular.next
      have hExtent := hExtension.extent
      have hBehind := hLeft.behind hRegular
      refine ihMore hThere.regular ?_
        (ihExtension hRegular.next hBehind hPlaced)
      refine laid_own ?_ hExtent.2
      rw [hExtent.1]
      exact Nat.le_trans hBehind.le hThere.reach_le
  | int hForm => exact fun _ _ => placed_int hForm _
  | boolean =>
      exact fun _ _ => placed_leaf trivial rfl rfl
  | string hParts hClose ih =>
      intro hRegular hStart
      have hThere := (hParts.leads hRegular).regular
      exact placed_string
        ((hParts.laid hRegular).behind hThere) hStart
        (hStops hClose nofun) (ih hRegular)
  | reference _ =>
      exact fun _ _ => placed_leaf trivial rfl rfl
  | invocation _ hItems hClose ih =>
      intro hRegular hStart
      have hThere := (hItems.leads hRegular.next).regular
      have hArguments := ih hRegular.next
      exact placed_new
        (((hItems.laid hRegular.next).before
          hRegular).behind hThere)
        hStart (hStops hClose nofun) hArguments.2
        hArguments.1
  | unary hOperand ih =>
      intro hRegular hStart
      exact placed_new (hOperand.laid hRegular) hStart
        hOperand.extent.2 nofun (ih hRegular)
  | grouping hInner hClose ih =>
      intro hRegular hStart
      have hThere := (hInner.leads hRegular).regular
      exact placed_new ((hInner.laid hRegular).behind hThere)
        hStart (hStops hClose nofun) nofun (ih hRegular)
  | startBlock _ ih => exact ih
  | conditional _ hCondition _ hThen hElse ihCondition ihThen
      ihElse =>
      intro hRegular hStart
      have hOpen := hRegular.next
      have hClose := (hCondition.leads hOpen).regular
      have hBranch := (hThen.leads hClose.next).regular
      have hLaid :=
        ((hCondition.laid hOpen).before hRegular).andThen
          (((hThen.laid hClose.next).before hClose).andThen
            (hElse.laid hBranch))
      exact placed_new hLaid hStart
        (hElse.extent _ hThen.extent.2) nofun
        ⟨ihCondition hOpen, ihThen hClose.next,
          ihElse hBranch⟩
  | functionLiteral _ hSignature hBody ihSignature ihBody =>
      intro hRegular hStart
      have hOpened := hRegular.opened
      have hSigned := (hSignature.leads hOpened).regular
      have hLaid :=
        (hSignature.laid hOpened).append (hBody.laid hSigned)
      rw [List.append_assoc] at hLaid
      have hBoth := ihSignature hOpened
      exact placed_new hLaid hStart hBody.extent nofun
        ⟨hBoth.1, hBoth.2, ihBody hSigned⟩
  | lambda hItems _ hBody ihItems ihBody =>
      intro hRegular hStart
      have hOpened := hRegular.opened
      have hClose := (hItems.leads hOpened).regular
      have hLaid :=
        (hItems.laid hOpened).append
          ((hBody.laid hClose.next).before hClose)
      exact placed_new hLaid hStart hBody.extent.2 nofun
        ⟨ihItems hOpened, ihBody hClose.next⟩
  | retValue hValue ih =>
      intro hRegular hStart
      exact placed_new (hValue.laid hRegular) hStart
        hValue.extent.2 nofun (ih hRegular)
  | retNothing _ =>
      exact fun _ _ => placed_leaf trivial rfl rfl
  | binary _ hRight ih =>
      intro hRegular hLeft hPlaced
      exact placed_new (hLeft.andThen (hRight.laid hRegular))
        (Nat.le_refl _) hRight.extent.2 nofun
        ⟨hPlaced, ih hRegular⟩
  | assignment _ hValue ih =>
      intro hRegular hLeft hPlaced
      exact placed_new (hLeft.andThen (hValue.laid hRegular))
        (Nat.le_refl _) hValue.extent.2 nofun
        ⟨hPlaced, ih hRegular⟩
  | member _ hRight _ ih =>
      intro hRegular hLeft hPlaced
      exact placed_new (hLeft.andThen (hRight.laid hRegular))
        (Nat.le_refl _) hRight.extent.2 nofun
        ⟨hPlaced, aside_of_placed (ih hRegular)⟩
  | call hItems hClose ih =>
      intro hRegular hLeft hPlaced
      have hThere := (hItems.leads hRegular).regular
      have hArguments := ih hRegular
      exact placed_new
        (hLeft.andThen ((hItems.laid hRegular).behind hThere))
        (Nat.le_refl _) (hStops hClose nofun) hArguments.2
        ⟨hPlaced, hArguments.1⟩
  | present _ _ ih => exact fun hRegular => ih hRegular.next
  | absent _ => exact fun _ => trivial
  | named hNamed hValue ih =>
      intro hRegular
      have hNext := Leads.next hRegular.next
      have hFrom :=
        Nat.le_trans (hStarts hRegular (hName hNamed.1))
          hNext.reach_le
      refine ⟨⟨ih hNext.regular, trivial⟩, ?_⟩
      refine List.forall_mem_singleton.2 ?_
      exact (hValue.laid hNext.regular).holds hFrom
        (Nat.le_of_eq hValue.extent.2.symm)
  | positional _ hValue ih =>
      intro hRegular
      refine ⟨⟨ih hRegular, trivial⟩, ?_⟩
      refine List.forall_mem_singleton.2 ?_
      exact (hValue.laid_expression hRegular).own.holds
        (Nat.le_refl _) (Nat.le_of_eq hValue.extent.2.symm)
  | parameter hIs _ hType hFallback hSpan _ ih =>
      intro hRegular
      have hColon := Leads.next hRegular.next
      have hTyped := (hType.leads hColon.regular).regular
      have hFrom :=
        Nat.le_trans (hStarts hRegular (hName hIs))
          hColon.reach_le
      have hThere := hType.laid hColon.regular
      have hStop :=
        hFallback.extent _ (hType.stop_eq trivial)
      subst hSpan
      exact ⟨⟨(hThere.1.andThen
          (hFallback.laid hTyped)).holds hFrom
            (Nat.le_of_eq hStop.symm),
          hThere.2, ih hTyped⟩,
        trivial⟩
  | lambdaParameter hIs hType hSpan _ =>
      intro hRegular
      have hToken := (hRegular.laid_token (hName hIs)).own
      have hThere := hType.laid hRegular.next _ hToken
      have hStop := hType.stop_eq (endsAt_next (hName hIs))
      subst hSpan
      exact ⟨⟨hThere.1.holds (Nat.le_refl _)
          (Nat.le_of_eq hStop.symm),
          hThere.2, trivial⟩,
        trivial⟩
  | entry _ _ => exact fun _ => trivial
  | renamedEntry _ _ _ => exact fun _ => trivial
  | noItems _ => exact fun _ => Item.allPlaced_nil _
  | someItems _ hFirst _ ihFirst ihMore =>
      intro hRegular
      exact Item.allPlaced_cons (ihFirst hRegular)
        (ihMore (hFirst.leads hRegular).regular)
  | lastItem _ => exact fun _ => Item.allPlaced_nil _
  | trailingComma _ _ => exact fun _ => Item.allPlaced_nil _
  | nextItem _ _ hItem _ ihFirst ihMore =>
      intro hRegular
      exact Item.allPlaced_cons (ihFirst hRegular.next)
        (ihMore (hItem.leads hRegular.next).regular)
  | signature _ hItems hClose hType ih =>
      intro hRegular
      have hThere := (hItems.leads hRegular.next).regular
      have hToken := hThere.laid_token (hOther hClose nofun)
      exact ⟨ih hRegular.next,
        (hType.laid hThere.next _ hToken).2⟩
  | bodyValue _ _ ih => exact fun hRegular => ih hRegular.next
  | bodyBlock hOpen _ ih =>
      exact fun hRegular =>
        ih hRegular.next
          (hStarts hRegular (hOther hOpen nofun))
  | namedValue _ _ _ ih =>
      exact fun hRegular => ih hRegular.next
  | namedBlock hOpen _ ih =>
      exact fun hRegular =>
        ih hRegular.next
          (hStarts hRegular (hOther hOpen nofun))
  | namedNone _ => exact fun _ => trivial
  | namedNothing _ => exact fun _ => trivial
  | noParts _ => exact fun _ => trivial
  | textPart _ _ ih =>
      exact fun hRegular =>
        ⟨placed_leaf trivial rfl rfl, ih hRegular.next⟩
  | escapePart _ _ _ ih =>
      exact fun hRegular =>
        ⟨placed_leaf trivial rfl rfl, ih hRegular.next⟩
  | embeddedPart _ hExpr _ _ ihExpr ihMore =>
      intro hRegular
      have hThere := (hExpr.leads hRegular.next).regular
      exact ⟨ihExpr hRegular.next, ihMore hThere.next⟩
  | block hStatements hClose ih =>
      intro hRegular hStart
      have hThere := (hStatements.leads hRegular.opened).regular
      exact placed_new
        ((hStatements.laid hRegular.opened).behind hThere)
        hStart (hStops hClose nofun) nofun
        (ih hRegular.opened)
  | noStatements _ => exact fun _ => trivial
  | someStatements _ _ hFirst _ ihFirst ihMore =>
      intro hRegular
      exact ⟨ihFirst hRegular,
        ihMore (hFirst.leads hRegular).regular⟩
  | variableStatement _ _ ih => exact ih
  | functionStatement _ _ ih => exact ih
  | endedStatement _ _ _ _ _ ih => exact ih
  | openStatement _ _ _ _ _ _ ih => exact ih
  | variableDecl hKeyword hIs hType hInitializer hStop hSpan _
      ih =>
      intro hRegular
      have hNext := hRegular.next
      have hToken := hNext.laid_token (hName hIs)
      have hTyped := (hType.leads hNext.next).regular
      have hThere := (hInitializer.leads hTyped).regular
      have hTypeLaid := hType.laid hNext.next _ hToken
      have hLaid :=
        (hTypeLaid.1.andThen
          (hInitializer.laid hTyped)).behind hThere
      subst hSpan
      exact ⟨hLaid.holds (hStarts hRegular hKeyword)
          (Nat.le_of_eq (hStops hStop nofun).symm),
        hTypeLaid.2, ih hTyped⟩
  | functionDecl hKeyword _ hSignature hBody hSpan _
      ihSignature ihBody =>
      intro hRegular
      have hMore := hOther hKeyword nofun
      have hNamed := Leads.next hRegular.next
      have hOpened := hNamed.regular.opened
      have hSigned := hSignature.leads hOpened
      have hInside := hBody.leads hSigned.regular
      have hLaid :=
        (hSignature.laid hOpened).append
          (hBody.laid hSigned.regular)
      rw [List.append_assoc] at hLaid
      have hFrom :=
        Nat.le_trans (hStarts hRegular hMore) hNamed.reach_le
      have hForward := hRegular.offset_lt_reach_next hMore
      have hSome :=
        Nat.lt_of_lt_of_le
          (Nat.lt_of_lt_of_le (Nat.zero_lt_of_lt hForward)
            hNamed.reach_le)
          hLaid.le
      have hBoth := ihSignature hOpened
      subst hSpan
      have hStop := endsAt_previous (before_ne hSome)
      exact ⟨hLaid.holds hFrom (Nat.le_of_eq hStop.symm),
        hBoth.1, hBoth.2, ihBody hSigned.regular⟩

end SourceCheck
