import SourceCheck.Proofs.Scoping.Environment
import SourceCheck.Proofs.Syntax.Program

/-
  What phrases leave behind.

  Along a derivation the cursor moves on in the text, and
  the symbols grow: definitions are added, without a type,
  and the innermost scope binds what the phrase declares in
  it.  Scopes that are open around it stay as they are.

  Key definitions include:
    * `ParserState.offset`
    * `ParserState.reach`
    * `ParserState.Regular`
    * `Phrase.bindings`
    * `ParserState.Leads`

  Key theorems include:
    * `Derives.leads`
-/

namespace SourceCheck

namespace ParserState

------------------------------------------------------------
-- Places of states
------------------------------------------------------------

/- Where the current token starts. -/
def offset (s : ParserState) : Nat :=
  s.token.span.start.offset

/- Where the previous token stops. -/
def reach (s : ParserState) : Nat :=
  match s.stream.before with
  | [] => 0
  | t :: _ => t.span.stop.offset

/- The tokens are in order, and open scopes exist. -/
structure Regular (s : ParserState) : Prop where
  pairwise : s.stream.tokens.Pairwise Token.StopsBefore
  start_le :
    ∀ t ∈ s.stream.tokens,
      t.span.start.offset ≤ t.span.stop.offset
  start_lt :
    ∀ t ∈ s.stream.tokens,
      t.kind ≠ .eof →
        t.span.start.offset < t.span.stop.offset
  stop_le :
    ∀ t ∈ s.stream.tokens,
      t.span.stop.offset ≤ s.stream.last.span.start.offset
  scopes_lt :
    ∀ scope ∈ s.scopes, scope < s.symbols.scopes.size

variable {s t u : ParserState}

/- The previous token stops before the current one starts. -/
theorem Regular.reach_le_offset (hRegular : s.Regular) :
    s.reach ≤ s.offset := by
  have hPairwise := hRegular.pairwise
  have hStops := hRegular.stop_le
  unfold TokenStream.tokens at hPairwise hStops
  unfold reach offset token TokenStream.current
  cases hBefore : s.stream.before with
  | nil => exact Nat.zero_le _
  | cons b before =>
      rw [hBefore] at hPairwise hStops
      cases hAhead : s.stream.ahead with
      | nil => exact hStops b (by simp)
      | cons c ahead =>
          rw [hAhead] at hPairwise
          have hBoth := List.pairwise_append.1 hPairwise
          exact (hBoth.2.2 b (by simp) c (by simp)).stop_le

theorem Regular.offset_le_next (hRegular : s.Regular) :
    s.offset ≤ s.next.offset := by
  have hPairwise := hRegular.pairwise
  have hStarts := hRegular.start_le
  have hStops := hRegular.stop_le
  unfold TokenStream.tokens at hPairwise hStarts hStops
  unfold offset token next TokenStream.current
  unfold TokenStream.consume
  cases hAhead : s.stream.ahead with
  | nil =>
      exact Nat.le_of_eq (by rw [hAhead])
  | cons b ahead =>
      rw [hAhead] at hPairwise hStarts hStops
      have hStart := hStarts b (by simp)
      cases ahead with
      | nil => exact Nat.le_trans hStart (hStops b (by simp))
      | cons c ahead =>
          have hBoth := (List.pairwise_append.1 hPairwise).2.1
          have hPair :=
            (List.pairwise_cons.1 hBoth).1 c (by simp)
          exact Nat.le_trans hStart hPair.stop_le

theorem Regular.reach_le_next (hRegular : s.Regular) :
    s.reach ≤ s.next.reach := by
  have hLess := hRegular.reach_le_offset
  have hStarts := hRegular.start_le
  unfold TokenStream.tokens at hStarts
  unfold offset token TokenStream.current at hLess
  unfold next TokenStream.consume
  cases hAhead : s.stream.ahead with
  | nil => exact Nat.le_refl _
  | cons b ahead =>
      rw [hAhead] at hLess hStarts
      exact Nat.le_trans hLess (hStarts b (by simp))

/- Behind a token the state reaches to the token's stop. -/
theorem reach_next
    (hMore : s.token.kind ≠ .eof) :
    s.next.reach = s.token.span.stop.offset := by
  have hAhead : s.stream.ahead ≠ [] :=
    TokenStream.ahead_ne_nil_of_hasMore
      (decide_eq_true hMore)
  unfold reach next token TokenStream.consume
    TokenStream.current
  cases hCons : s.stream.ahead with
  | nil => exact absurd hCons hAhead
  | cons b ahead => rfl

/- A token that is passed is not empty. -/
theorem Regular.offset_lt_reach_next
    (hRegular : s.Regular)
    (hMore : s.token.kind ≠ .eof) :
    s.offset < s.next.reach := by
  rw [reach_next hMore]
  refine hRegular.start_lt _ ?_ hMore
  have hAhead : s.stream.ahead ≠ [] :=
    TokenStream.ahead_ne_nil_of_hasMore
      (decide_eq_true hMore)
  unfold token TokenStream.tokens TokenStream.current
  cases hCons : s.stream.ahead with
  | nil => exact absurd hCons hAhead
  | cons b ahead => simp

theorem Regular.next (hRegular : s.Regular) :
    s.next.Regular := by
  have hTokens : s.next.stream.tokens = s.stream.tokens :=
    TokenStream.tokens_consume s.stream
  have hLast : s.next.stream.last = s.stream.last := by
    unfold ParserState.next TokenStream.consume
    cases hAhead : s.stream.ahead with
    | nil => rfl
    | cons b ahead => rfl
  exact
    { pairwise := by
        rw [hTokens]
        exact hRegular.pairwise
      start_le := by
        rw [hTokens]
        exact hRegular.start_le
      start_lt := by
        rw [hTokens]
        exact hRegular.start_lt
      stop_le := by
        rw [hTokens, hLast]
        exact hRegular.stop_le
      scopes_lt := hRegular.scopes_lt }

theorem Regular.opened (hRegular : s.Regular) :
    s.opened.Regular where
  pairwise := hRegular.pairwise
  start_le := hRegular.start_le
  start_lt := hRegular.start_lt
  stop_le := hRegular.stop_le
  scopes_lt := by
    intro scope hMember
    have hSize :
        s.opened.symbols.scopes.size =
          s.symbols.scopes.size + 1 :=
      Array.size_push _
    rw [hSize]
    rcases List.mem_cons.1 hMember with rfl | hMember
    · exact Nat.lt_succ_self _
    · exact Nat.lt_succ_of_lt
        (hRegular.scopes_lt scope hMember)

------------------------------------------------------------
-- What a run leads to
------------------------------------------------------------

/-
  From one state to the other the cursor moved on, and the
  innermost scope got new bindings, the latest of which
  comes last.
-/
structure Leads
    (s t : ParserState)
    (bindings : List Binding) :
    Prop where
  regular : t.Regular
  scopes_eq : t.scopes = s.scopes
  offset_le : s.offset ≤ t.offset
  reach_le : s.reach ≤ t.reach
  definitions :
    ∃ new,
      t.symbols.definitions.toList =
          s.symbols.definitions.toList ++ new ∧
        ∀ d ∈ new, d.type = none
  size_le :
    s.symbols.scopes.size ≤ t.symbols.scopes.size
  others :
    ∀ scope,
      scope < s.symbols.scopes.size →
        s.scopes.head? ≠ some scope →
          t.symbols.scopes[scope]? =
            s.symbols.scopes[scope]?
  innermost :
    ∀ scope old,
      s.scopes.head? = some scope →
        s.symbols.scopes[scope]? = some old →
          t.symbols.scopes[scope]? =
            some
              ⟨old.parent,
                bindings.reverse ++ old.bindings⟩
  nodup :
    ∀ scope old,
      s.scopes.head? = some scope →
        s.symbols.scopes[scope]? = some old →
          (old.bindings.map Prod.fst).Nodup →
            ((bindings.reverse ++ old.bindings).map
              Prod.fst).Nodup

theorem Leads.refl (hRegular : s.Regular) :
    Leads s s [] where
  regular := hRegular
  scopes_eq := rfl
  offset_le := Nat.le_refl _
  reach_le := Nat.le_refl _
  definitions := ⟨[], by simp, nofun⟩
  size_le := Nat.le_refl _
  others _ _ _ := rfl
  innermost _ _ _ hOld := hOld
  nodup _ _ _ _ hNodup := hNodup

theorem Leads.trans
    {bs cs : List Binding}
    (hFirst : Leads s t bs)
    (hSecond : Leads t u cs) :
    Leads s u (bs ++ cs) where
  regular := hSecond.regular
  scopes_eq := hSecond.scopes_eq.trans hFirst.scopes_eq
  offset_le :=
    Nat.le_trans hFirst.offset_le hSecond.offset_le
  reach_le := Nat.le_trans hFirst.reach_le hSecond.reach_le
  definitions := by
    rcases hFirst.definitions with ⟨ds, hLeft, hNone⟩
    rcases hSecond.definitions with ⟨es, hRight, hNone'⟩
    refine ⟨ds ++ es, ?_, ?_⟩
    · rw [hRight, hLeft, List.append_assoc]
    · intro d hMember
      rcases List.mem_append.1 hMember with hMember | hMember
      · exact hNone d hMember
      · exact hNone' d hMember
  size_le := Nat.le_trans hFirst.size_le hSecond.size_le
  others scope hLess hNot := by
    rw [← hFirst.others scope hLess hNot]
    refine hSecond.others scope ?_ ?_
    · exact Nat.lt_of_lt_of_le hLess hFirst.size_le
    · rw [hFirst.scopes_eq]
      exact hNot
  innermost scope old hHead hOld := by
    have hMiddle := hFirst.innermost scope old hHead hOld
    rw [← hFirst.scopes_eq] at hHead
    rw [hSecond.innermost scope _ hHead hMiddle,
      List.reverse_append, List.append_assoc]
  nodup scope old hHead hOld hNodup := by
    have hMiddle := hFirst.innermost scope old hHead hOld
    have hFirstNodup :=
      hFirst.nodup scope old hHead hOld hNodup
    rw [← hFirst.scopes_eq] at hHead
    have hBoth :=
      hSecond.nodup scope _ hHead hMiddle hFirstNodup
    rw [List.reverse_append, List.append_assoc]
    exact hBoth

theorem Leads.next (hRegular : s.Regular) :
    Leads s s.next [] where
  regular := hRegular.next
  scopes_eq := rfl
  offset_le := hRegular.offset_le_next
  reach_le := hRegular.reach_le_next
  definitions := ⟨[], by simp [ParserState.next], nofun⟩
  size_le := Nat.le_refl _
  others _ _ _ := rfl
  innermost _ _ _ hOld := hOld
  nodup _ _ _ _ hNodup := hNodup

/- A token is passed at the end of a run. -/
theorem Leads.andNext
    {bs : List Binding}
    (hLeads : Leads s t bs) :
    Leads s t.next bs := by
  have hBoth := hLeads.trans (.next hLeads.regular)
  rw [List.append_nil] at hBoth
  exact hBoth

/- What was bound in a scope does not show outside of it. -/
theorem Leads.scoped
    {bs : List Binding}
    (hRegular : s.Regular)
    (hLeads : Leads s.opened t bs) :
    Leads s t.closed [] := by
  have hScopes : t.closed.scopes = s.scopes := by
    unfold closed
    rw [hLeads.scopes_eq]
    rfl
  have hSize :
      s.opened.symbols.scopes.size =
        s.symbols.scopes.size + 1 :=
    Array.size_push _
  have hSizes := hLeads.size_le
  rw [hSize] at hSizes
  have hOld
      (scope : ScopeId)
      (hLess : scope < s.symbols.scopes.size) :
      t.symbols.scopes[scope]? =
        s.symbols.scopes[scope]? := by
    have hOuter :
        s.opened.symbols.scopes[scope]? =
          s.symbols.scopes[scope]? := by
      unfold opened Symbols.openScope
      dsimp only
      rw [Array.getElem?_push, if_neg (Nat.ne_of_lt hLess)]
    rw [← hOuter]
    refine hLeads.others scope ?_ ?_
    · rw [hSize]
      exact Nat.lt_succ_of_lt hLess
    · intro hSome
      cases hSome
      exact absurd hLess (Nat.lt_irrefl _)
  exact
    { regular :=
        { pairwise := hLeads.regular.pairwise
          start_le := hLeads.regular.start_le
          start_lt := hLeads.regular.start_lt
          stop_le := hLeads.regular.stop_le
          scopes_lt := by
            intro scope hMember
            rw [hScopes] at hMember
            have hLess := hRegular.scopes_lt scope hMember
            exact Nat.lt_of_lt_of_le
              (Nat.lt_succ_of_lt hLess) hSizes }
      scopes_eq := hScopes
      offset_le := hLeads.offset_le
      reach_le := hLeads.reach_le
      definitions := hLeads.definitions
      size_le := Nat.le_trans (Nat.le_succ _) hSizes
      others := fun scope hLess _ => hOld scope hLess
      innermost := by
        intro scope old hHead hSome
        have hLess :=
          hRegular.scopes_lt scope
            (List.mem_of_mem_head? hHead)
        exact (hOld scope hLess).trans hSome
      nodup := fun _ _ _ _ hNodup => hNodup }

/- A declaration binds its name. -/
theorem Leads.declares
    {d : Definition}
    {id : DefinitionId}
    (hRegular : s.Regular)
    (hDeclares : s.Declares d id t)
    (hType : d.type = none) :
    Leads s t [(d.name, id)] := by
  rcases hDeclares with ⟨rfl, scope, hHead, hFree, rfl⟩
  have hSize :
      (s.bound scope d).symbols.scopes.size =
        s.symbols.scopes.size := by
    unfold bound withSymbols
    simp
  exact
    { regular :=
        { pairwise := hRegular.pairwise
          start_le := hRegular.start_le
          start_lt := hRegular.start_lt
          stop_le := hRegular.stop_le
          scopes_lt := by
            rw [hSize]
            exact hRegular.scopes_lt }
      scopes_eq := rfl
      offset_le := Nat.le_refl _
      reach_le := Nat.le_refl _
      definitions := by
        refine ⟨[d], ?_, ?_⟩
        · simp [bound, withSymbols]
        · intro e hMember
          rw [List.mem_singleton.1 hMember]
          exact hType
      size_le := Nat.le_of_eq hSize.symm
      others := by
        intro other hLess hNot
        have hNe : scope ≠ other := by
          rintro rfl
          exact hNot hHead
        unfold bound withSymbols
        simp [Array.getElem?_modify, hNe]
      innermost := by
        intro other old hOther hOld
        rw [hHead] at hOther
        cases hOther
        unfold bound withSymbols
        simp [Array.getElem?_modify, hOld, Scope.insert]
      nodup := by
        intro other old hOther hOld hNodup
        rw [hHead] at hOther
        cases hOther
        refine List.nodup_cons.2 ⟨?_, hNodup⟩
        intro hMember
        rcases List.mem_map.1 hMember with ⟨x, hx, hName⟩
        have hNone : old.bindings.lookup d.name = none := by
          simpa [Symbols.hasLocal, Symbols.local?, hOld,
            Scope.get?] using hFree
        rw [List.lookup_eq_none_iff] at hNone
        have hNe := bne_iff_ne.1 (hNone x hx)
        exact hNe hName.symm }

theorem Leads.andThen
    {bs : List Binding}
    (hFirst : Leads s t bs)
    (hSecond : Leads t u []) :
    Leads s u bs := by
  have hBoth := hFirst.trans hSecond
  rw [List.append_nil] at hBoth
  exact hBoth

end ParserState

open ParserState

------------------------------------------------------------
-- What phrases lead to
------------------------------------------------------------

/- Types declare nothing. -/
theorem DerivesType.leads
    {phrase : TypePhrase}
    {s t : ParserState}
    {x : TypeExpr}
    (hDerives : DerivesType phrase s x t) :
    s.Regular → Leads s t [] := by
  induction hDerives with
  | name _ => exact Leads.next
  | joined _ _ ihFirst ihMore =>
      intro hRegular
      have hFirst := ihFirst hRegular
      exact hFirst.trans (ihMore hFirst.regular)
  | stop _ => exact Leads.refl
  | more _ _ _ ihRight ihMore =>
      intro hRegular
      have hRight := ihRight hRegular.next
      exact ((Leads.next hRegular).trans hRight).trans
        (ihMore hRight.regular)
  | present _ _ ih =>
      intro hRegular
      exact (Leads.next hRegular).trans (ih hRegular.next)
  | absent _ => exact Leads.refl

/- What an item declares. -/
def Item.bindings : (i : Item) → i.Result → List Binding
  | .argument, _ => []
  | .parameter, p => [p.binding]
  | .lambdaParameter, p => [p.binding]
  | .entry, _ => []

/- What a phrase declares in the scope that it lies in. -/
def Phrase.bindings :
    (phrase : Phrase) → phrase.Result → List Binding
  | .item i, x => i.bindings x
  | .items i, xs => xs.flatMap i.bindings
  | .moreItems i, xs => xs.flatMap i.bindings
  | .signature, r => r.1.flatMap (Item.bindings .parameter)
  | .statements, xs => xs.flatMap Statement.bindings
  | .statement, x => x.bindings
  | .variableDecl _, v => [(v.name, v.definition)]
  | .functionDecl, f => [(f.name, f.definition)]
  | _, _ => []

/- Arguments declare nothing. -/
theorem bindings_arguments (xs : List Argument) :
    (Phrase.items .argument).bindings xs = [] := by
  induction xs with
  | nil => rfl
  | cons x xs ih => exact ih

/-
  A phrase leads from the state before it to the state
  behind it.
-/
theorem Derives.leads
    {phrase : Phrase}
    {s t : ParserState}
    {r : phrase.Result}
    (hDerives : Derives phrase s r t) :
    s.Regular → Leads s t (phrase.bindings r) := by
  induction hDerives with
  | expression _ _ _ ihFirst ihMore =>
      intro hRegular
      have hFirst := ihFirst hRegular.next
      exact ((Leads.next hRegular).trans hFirst).trans
        (ihMore hFirst.regular)
  | stop _ => exact Leads.refl
  | more _ _ _ _ ihExtension ihMore =>
      intro hRegular
      have hFirst := ihExtension hRegular.next
      exact ((Leads.next hRegular).trans hFirst).trans
        (ihMore hFirst.regular)
  | int _ => exact Leads.refl
  | boolean => exact Leads.refl
  | string _ _ ih => exact fun hRegular => (ih hRegular).andNext
  | reference _ => exact Leads.refl
  | invocation _ _ _ ih =>
      intro hRegular
      have hItems := (ih hRegular.next).andNext
      rw [bindings_arguments] at hItems
      exact (Leads.next hRegular).trans hItems
  | unary _ ih => exact ih
  | grouping _ _ ih =>
      exact fun hRegular => (ih hRegular).andNext
  | startBlock _ ih => exact ih
  | conditional _ _ _ _ _ ihCondition ihThen ihElse =>
      intro hRegular
      have hCondition := (ihCondition hRegular.next).andNext
      have hThen := ihThen hCondition.regular
      exact (((Leads.next hRegular).trans hCondition).trans
        hThen).trans (ihElse hThen.regular)
  | functionLiteral _ _ _ ihSignature ihBody =>
      intro hRegular
      have hSignature := ihSignature hRegular.opened
      exact .scoped hRegular
        (hSignature.andThen (ihBody hSignature.regular))
  | lambda _ _ _ ihItems ihBody =>
      intro hRegular
      have hItems := (ihItems hRegular.opened).andNext
      exact .scoped hRegular
        (hItems.andThen (ihBody hItems.regular))
  | retValue _ ih => exact ih
  | retNothing _ => exact Leads.refl
  | binary _ _ ih => exact ih
  | assignment _ _ ih => exact ih
  | member _ _ _ ih => exact ih
  | call _ _ ih =>
      intro hRegular
      have hItems := (ih hRegular).andNext
      rw [bindings_arguments] at hItems
      exact hItems
  | present _ _ ih =>
      intro hRegular
      exact (Leads.next hRegular).trans (ih hRegular.next)
  | absent _ => exact Leads.refl
  | named _ _ ih =>
      intro hRegular
      exact (Leads.next hRegular).andNext.trans
        (ih hRegular.next.next)
  | positional _ _ ih => exact ih
  | parameter _ _ hType _ _ hDeclares ihFallback =>
      intro hRegular
      have hColon := (Leads.next hRegular).andNext
      have hTyped := hColon.trans (hType.leads hColon.regular)
      have hFallback :=
        hTyped.trans (ihFallback hTyped.regular)
      exact hFallback.trans
        (.declares hFallback.regular hDeclares rfl)
  | lambdaParameter _ hType _ hDeclares =>
      intro hRegular
      have hTyped :=
        (Leads.next hRegular).trans
          (hType.leads hRegular.next)
      exact hTyped.trans
        (.declares hTyped.regular hDeclares rfl)
  | entry _ _ => exact Leads.next
  | renamedEntry _ _ _ =>
      exact fun hRegular =>
        (Leads.next hRegular).andNext.andNext
  | noItems _ => exact Leads.refl
  | someItems _ _ _ ihFirst ihMore =>
      intro hRegular
      have hFirst := ihFirst hRegular
      exact hFirst.trans (ihMore hFirst.regular)
  | lastItem _ => exact Leads.refl
  | trailingComma _ _ => exact Leads.next
  | nextItem _ _ _ _ ihItem ihMore =>
      intro hRegular
      have hItem := ihItem hRegular.next
      exact ((Leads.next hRegular).trans hItem).trans
        (ihMore hItem.regular)
  | signature _ _ _ hType ih =>
      intro hRegular
      have hItems := (ih hRegular.next).andNext
      exact ((Leads.next hRegular).trans hItems).andThen
        (hType.leads hItems.regular)
  | bodyValue _ _ ih =>
      intro hRegular
      exact (Leads.next hRegular).trans (ih hRegular.next)
  | bodyBlock _ _ ih =>
      intro hRegular
      exact (Leads.next hRegular).trans (ih hRegular.next)
  | namedValue _ _ _ ih =>
      intro hRegular
      exact ((Leads.next hRegular).trans
        (ih hRegular.next)).andNext
  | namedBlock _ _ ih =>
      intro hRegular
      exact (Leads.next hRegular).trans (ih hRegular.next)
  | namedNone _ => exact Leads.next
  | namedNothing _ => exact Leads.refl
  | noParts _ => exact Leads.refl
  | textPart _ _ ih =>
      intro hRegular
      exact (Leads.next hRegular).trans (ih hRegular.next)
  | escapePart _ _ _ ih =>
      intro hRegular
      exact (Leads.next hRegular).trans (ih hRegular.next)
  | embeddedPart _ _ _ _ ihExpr ihMore =>
      intro hRegular
      have hExpr := (ihExpr hRegular.next).andNext
      exact ((Leads.next hRegular).trans hExpr).trans
        (ihMore hExpr.regular)
  | block _ _ ih =>
      intro hRegular
      exact .scoped hRegular (ih hRegular.opened).andNext
  | noStatements _ => exact Leads.refl
  | someStatements _ _ _ _ ihFirst ihMore =>
      intro hRegular
      have hFirst := ihFirst hRegular
      exact hFirst.trans (ihMore hFirst.regular)
  | variableStatement _ _ ih => exact ih
  | functionStatement _ _ ih => exact ih
  | endedStatement _ _ _ _ _ ih =>
      exact fun hRegular => (ih hRegular).andNext
  | openStatement _ _ _ _ _ _ ih => exact ih
  | variableDecl _ _ hType _ _ _ hDeclares ih =>
      intro hRegular
      have hName := (Leads.next hRegular).andNext
      have hTyped := hName.trans (hType.leads hName.regular)
      have hStop :=
        (hTyped.trans (ih hTyped.regular)).andNext
      exact hStop.trans
        (.declares hStop.regular hDeclares rfl)
  | functionDecl _ _ _ _ _ hDeclares ihSignature ihBody =>
      intro hRegular
      have hName := (Leads.next hRegular).andNext
      have hSignature := ihSignature hName.regular.opened
      have hInside :=
        hSignature.andThen (ihBody hSignature.regular)
      have hClosed :=
        hName.trans (.scoped hName.regular hInside)
      exact hClosed.trans
        (.declares hClosed.regular hDeclares rfl)

------------------------------------------------------------
-- Whole programs
------------------------------------------------------------

/- Entries of imports declare nothing. -/
theorem bindings_entries (xs : List ImportEntry) :
    (Phrase.items .entry).bindings xs = [] := by
  induction xs with
  | nil => rfl
  | cons x xs ih => exact ih

theorem DerivesImport.leads
    {s t : ParserState}
    {i : Import}
    (hDerives : DerivesImport s i t)
    (hRegular : s.Regular) :
    Leads s t [] := by
  cases hDerives with
  | intro _ _ hPath _ hEntries _ _ =>
      have hQuote := (Leads.next hRegular).andNext
      have hOpen :=
        (hQuote.trans (hPath.leads hQuote.regular)).andNext
      have hItems := hEntries.leads hOpen.regular
      rw [bindings_entries] at hItems
      exact (hOpen.trans hItems).andNext

theorem DerivesImports.leads
    {s t : ParserState}
    {is : List Import}
    (hDerives : DerivesImports s is t) :
    s.Regular → Leads s t [] := by
  induction hDerives with
  | stop _ => exact Leads.refl
  | more hImport _ ih =>
      intro hRegular
      have hFirst := hImport.leads hRegular
      exact hFirst.trans (ih hFirst.regular)

theorem DerivesDeclaration.leads
    {s t : ParserState}
    {d : Declaration}
    (hDerives : DerivesDeclaration s d t) :
    s.Regular → Leads s t d.bindings := by
  cases hDerives with
  | function hFunction => exact hFunction.leads
  | property _ hVariable => exact hVariable.leads

theorem DerivesDeclarations.leads
    {s t : ParserState}
    {ds : List Declaration}
    (hDerives : DerivesDeclarations s ds t) :
    s.Regular →
      Leads s t (ds.flatMap Declaration.bindings) := by
  induction hDerives with
  | stop _ => exact Leads.refl
  | more hDeclaration _ ih =>
      intro hRegular
      have hFirst := hDeclaration.leads hRegular
      exact hFirst.trans (ih hFirst.regular)

/- Texts start with tokens in order and with no scopes. -/
theorem regular_initial (source file : String) :
    (ParserState.initial source file).Regular := by
  have hOrder := tokensInOrder_tokenize source (some file)
  have hStream := ofSource_eq source file
  have hTokens := tokens_initial source file
  rcases hOrder.ends with ⟨front, last, hEnd, hKind, hSpan⟩
  have hLast :
      (ParserState.initial source file).stream.last =
        last := by
    have hFinal := hStream.2.2
    rw [hEnd, List.getLast?_concat] at hFinal
    exact (Option.some.inj hFinal).symm
  have hPairwise := hOrder.pairwise
  rw [hEnd] at hPairwise hTokens
  have hFront (t : Token) (hMember : t ∈ front) :
      t.StopsBefore last :=
    (List.pairwise_append.1 hPairwise).2.2 t hMember last
      (List.mem_singleton_self last)
  exact
    { pairwise := by
        rw [hTokens]
        exact hPairwise
      start_le := by
        intro t hMember
        rw [hTokens] at hMember
        rcases List.mem_append.1 hMember with
          hMember | hMember
        · exact Nat.le_of_lt (hFront t hMember).start_lt
        · exact Nat.le_of_eq
            (by rw [List.mem_singleton.1 hMember, hSpan])
      start_lt := by
        intro t hMember hMore
        rw [hTokens] at hMember
        rcases List.mem_append.1 hMember with
          hMember | hMember
        · exact (hFront t hMember).start_lt
        · rw [List.mem_singleton.1 hMember] at hMore
          exact absurd hKind hMore
      stop_le := by
        intro t hMember
        rw [hTokens] at hMember
        rw [hLast]
        rcases List.mem_append.1 hMember with
          hMember | hMember
        · exact (hFront t hMember).stop_le
        · exact Nat.le_of_eq
            (by rw [List.mem_singleton.1 hMember, hSpan])
      scopes_lt := nofun }

end SourceCheck
