import Mathlib.Data.List.Nodup
import SourceCheck.Proofs.Resolution.Declaring
import SourceCheck.Proofs.Syntax.Extent

/-
  What the parser accepts is resolved lexically.

  Along a derivation the scopes and the definitions are
  those of the whole program as soon as they are complete,
  and each tree stands in the window of its tokens.  So the
  walk over each tree settles the uses of its names.

  Key definitions include:
    * `Symbols.Completes`
    * `Phrase.Resolved`
    * `Phrase.Settles`

  Key theorems include:
    * `Derives.resolved`
    * `DerivesDeclarations.resolved`
-/

namespace SourceCheck

open SourceCheck.Parser
open SourceCheck.ParserState

------------------------------------------------------------
-- Symbols of whole programs
------------------------------------------------------------

/- How many definitions there are. -/
def ParserState.defined (s : ParserState) : Nat :=
  s.symbols.definitions.size

theorem ParserState.Leads.defined_le
    {s t : ParserState}
    {bs : List Binding}
    (hLeads : s.Leads t bs) :
    s.defined ≤ t.defined := by
  rcases hLeads.definitions with ⟨new, hNew, -⟩
  have hLength := congrArg List.length hNew
  rw [List.length_append] at hLength
  unfold ParserState.defined
  rw [← Array.length_toList, ← Array.length_toList, hLength]
  exact Nat.le_add_right _ _

/-
  The symbols go on from those of the state; scopes that are
  closed stay as they are.
-/
structure Symbols.Completes
    (y : Symbols)
    (s : ParserState) :
    Prop where
  definitions :
    ∃ later,
      y.definitions.toList =
        s.symbols.definitions.toList ++ later
  scopes :
    ∀ scope,
      scope < s.symbols.scopes.size →
        scope ∉ s.scopes →
          y.scopes[scope]? = s.symbols.scopes[scope]?

namespace Symbols.Completes

variable {y : Symbols}
variable {s t u : ParserState}
variable {bs : List Binding}

/- What completes a later state completes an earlier one. -/
theorem before
    (hCompletes : y.Completes t)
    (hLeads : s.Leads t bs) :
    y.Completes s where
  definitions := by
    rcases hCompletes.definitions with ⟨later, hLater⟩
    rcases hLeads.definitions with ⟨new, hNew, -⟩
    refine ⟨new ++ later, ?_⟩
    rw [hLater, hNew, List.append_assoc]
  scopes scope hLess hNot := by
    have hHead : s.scopes.head? ≠ some scope := by
      intro hHead
      exact hNot (List.mem_of_mem_head? hHead)
    rw [← hLeads.others scope hLess hHead]
    refine hCompletes.scopes scope ?_ ?_
    · exact Nat.lt_of_lt_of_le hLess hLeads.size_le
    · rw [hLeads.scopes_eq]
      exact hNot

theorem of_next (hCompletes : y.Completes s.next) :
    y.Completes s :=
  ⟨hCompletes.definitions, hCompletes.scopes⟩

theorem of_closed (hCompletes : y.Completes s.closed) :
    y.Completes s where
  definitions := hCompletes.definitions
  scopes scope hLess hNot :=
    hCompletes.scopes scope hLess fun hMember =>
      hNot (List.mem_of_mem_tail hMember)

/- A scope that was closed holds what was declared in it. -/
theorem holds
    (hRegular : s.Regular)
    (hLeads : s.opened.Leads t bs)
    (hCompletes : y.Completes t.closed) :
    y.Holds s.newScope s.scopes.head? bs := by
  have hSize :
      s.opened.symbols.scopes.size =
        s.symbols.scopes.size + 1 :=
    Array.size_push _
  have hSizes := hLeads.size_le
  rw [hSize] at hSizes
  have hOpened :
      s.opened.symbols.scopes[s.newScope]? =
        some ⟨s.scopes.head?, []⟩ := by
    unfold opened newScope Symbols.openScope
    dsimp only
    rw [Array.getElem?_push, if_pos rfl]
  have hBound := hLeads.innermost s.newScope _ rfl hOpened
  have hNodup :=
    hLeads.nodup s.newScope _ rfl hOpened List.nodup_nil
  rw [List.append_nil] at hBound hNodup
  refine ⟨?_, ?_, ?_⟩
  · rw [← hBound]
    refine hCompletes.scopes _ ?_ ?_
    · exact Nat.lt_of_succ_le hSizes
    · intro hMember
      unfold closed at hMember
      rw [hLeads.scopes_eq] at hMember
      have hLess := hRegular.scopes_lt _ hMember
      exact absurd hLess (Nat.lt_irrefl _)
  · rw [List.map_reverse] at hNodup
    exact List.nodup_reverse.1 hNodup
  · intro outer hOuter
    exact hRegular.scopes_lt _ (List.mem_of_mem_head? hOuter)

/- What is declared is in the symbols. -/
theorem definition
    {d : Definition}
    {id : DefinitionId}
    (hDeclares : s.Declares d id t)
    (hCompletes : y.Completes t) :
    y.definitions[id]? = some d := by
  rcases hDeclares with ⟨rfl, scope, -, -, rfl⟩
  rcases hCompletes.definitions with ⟨later, hLater⟩
  rw [← Array.getElem?_toList, hLater]
  simp [bound, withSymbols]

/- A declared name is visible from its place on. -/
theorem visibleFrom
    {d : Definition}
    {id : DefinitionId}
    (hDeclares : s.Declares d id t)
    (hCompletes : y.Completes t) :
    y.VisibleFrom id d.visibleFrom :=
  ⟨d, definition hDeclares hCompletes, rfl⟩

end Symbols.Completes

theorem ParserState.Declares.defined_eq
    {s t : ParserState}
    {d : Definition}
    {id : DefinitionId}
    (hDeclares : s.Declares d id t) :
    id = s.defined ∧ t.defined = s.defined + 1 := by
  rcases hDeclares with ⟨rfl, scope, -, -, rfl⟩
  refine ⟨rfl, ?_⟩
  unfold ParserState.defined
  simp [bound, withSymbols]

------------------------------------------------------------
-- Runs within a scope
------------------------------------------------------------

/-
  The run lies within a scope, and the symbols go on from
  those at its end.
-/
structure Symbols.Covers
    (y : Symbols)
    (scope : ScopeId)
    (s t : ParserState) :
    Prop where
  regular : s.Regular
  head : s.scopes.head? = some scope
  completes : y.Completes t

namespace Symbols.Covers

variable {y : Symbols}
variable {scope : ScopeId}
variable {s t u : ParserState}
variable {bs : List Binding}

theorem next
    (hCovers : y.Covers scope s t) :
    y.Covers scope s.next t :=
  ⟨hCovers.regular.next, hCovers.head, hCovers.completes⟩

theorem of_next
    (hCovers : y.Covers scope s t.next) :
    y.Covers scope s t :=
  ⟨hCovers.regular, hCovers.head, hCovers.completes.of_next⟩

/- The first part of a run that is covered. -/
theorem first
    (hCovers : y.Covers scope s u)
    (hRest : t.Leads u bs) :
    y.Covers scope s t :=
  ⟨hCovers.regular, hCovers.head,
    hCovers.completes.before hRest⟩

/- The rest of a run that is covered. -/
theorem rest
    (hCovers : y.Covers scope s u)
    (hFirst : s.Leads t bs) :
    y.Covers scope t u :=
  ⟨hFirst.regular, by rw [hFirst.scopes_eq, hCovers.head],
    hCovers.completes⟩

/- A run in a scope of its own. -/
theorem inside
    (hCovers : y.Covers scope s t.closed) :
    y.Covers s.newScope s.opened t :=
  ⟨hCovers.regular.opened, rfl, hCovers.completes.of_closed⟩

theorem holds
    (hCovers : y.Covers scope s t.closed)
    (hLeads : s.opened.Leads t bs) :
    y.Holds s.newScope (some scope) bs := by
  rw [← hCovers.head]
  exact Completes.holds hCovers.regular hLeads
    hCovers.completes

end Symbols.Covers

------------------------------------------------------------
-- What derivations say about walks
------------------------------------------------------------

section Resolved

variable (y : Symbols) (scope : ScopeId)

/- The walk over an item settles its uses. -/
def Item.Resolved :
    (i : Item) →
      ParserState → i.Result → ParserState → Prop
  | .argument, s, x, t =>
      Resolves y scope s.offset t.reach s.defined t.defined
        x.value
  | .parameter, s, p, t =>
      ResolvesParameter y scope s.offset t.offset s.defined
        t.defined p
  | .lambdaParameter, s, p, t =>
      ResolvesParameter y scope s.offset t.offset s.defined
        t.defined p
  | .entry, _, _, _ => True

/- The walk over items settles their uses. -/
def Item.AllResolved :
    (i : Item) →
      ParserState → List i.Result → ParserState → Prop
  | .argument, s, xs, t =>
      ResolvesArguments y scope s.offset t.reach s.defined
        t.defined xs
  | .parameter, s, ps, t =>
      ResolvesParameters y scope t.offset t.defined s.offset
        s.defined ps
  | .lambdaParameter, s, ps, t =>
      ResolvesParameters y scope t.offset t.defined s.offset
        s.defined ps
  | .entry, _, _, _ => True

/-
  The walk over the tree of a phrase settles its uses in the
  window of its tokens.
-/
def Phrase.Resolved :
    (phrase : Phrase) →
      ParserState → phrase.Result → ParserState → Prop
  | .expression _, s, e, t =>
      Resolves y scope s.offset t.reach s.defined t.defined e
  | .extensions _ left, s, e, t =>
      ∀ a lo,
        a ≤ s.reach →
          Resolves y scope a s.reach lo s.defined left →
            Resolves y scope a t.reach lo t.defined e
  | .start _ token, s, e, t =>
      ∀ a,
        a ≤ token.span.start.offset →
          token.span.start.offset < s.reach →
            Resolves y scope a t.reach s.defined t.defined e
  | .extension _ left _ _, s, e, t =>
      ∀ a lo,
        a ≤ s.reach →
          Resolves y scope a s.reach lo s.defined left →
            Resolves y scope a t.reach lo t.defined e
  | .behind _, s, o, t =>
      ResolvesOption y scope s.offset t.reach s.defined
        t.defined o
  | .item i, s, x, t => i.Resolved y scope s x t
  | .items i, s, xs, t => i.AllResolved y scope s xs t
  | .moreItems i, s, xs, t => i.AllResolved y scope s xs t
  | .signature, s, r, t =>
      ResolvesParameters y scope t.offset t.defined s.offset
        s.defined r.1
  | .body, s, e, t =>
      s.offset ≤ t.reach ∧
        Resolves y scope s.offset t.reach s.defined t.defined
          e
  | .namedBody, s, o, t =>
      ResolvesOption y scope s.offset t.offset s.defined
        t.defined o
  | .parts, s, ps, t =>
      ResolvesExprs y scope s.offset t.reach t.defined
        s.defined (ps.map (·.expression))
  | .block _, s, e, t =>
      Resolves y scope s.offset t.reach s.defined t.defined e
  | .statements, s, xs, t =>
      ResolvesStatements y scope t.offset t.defined s.offset
        s.defined xs
  | .statement, s, x, t =>
      ResolvesStatement y scope s.offset t.offset s.defined
        t.defined x
  | .variableDecl _, s, v, t =>
      ResolvesVariable y scope s.offset t.offset s.defined
        t.defined v
  | .functionDecl, s, f, t =>
      ResolvesFunction y scope s.offset t.offset s.defined
        t.defined f

end Resolved

section Cases

variable {y : Symbols}
variable {scope : ScopeId}
variable {s t u v : ParserState}

/- No items are resolved. -/
theorem Item.AllResolved.nil
    (i : Item)
    (hLeads : s.Leads t []) :
    i.AllResolved y scope s [] t := by
  have hLe := hLeads.defined_le
  cases i with
  | argument => exact resolvesArguments_nil hLe
  | parameter => exact InOrder.nil hLeads.offset_le hLe
  | lambdaParameter => exact InOrder.nil hLeads.offset_le hLe
  | entry => trivial

/- An item and those behind it. -/
theorem Item.AllResolved.cons
    {i : Item}
    {x : i.Result}
    {xs : List i.Result}
    {bs : List Binding}
    (hBefore : s.Leads t [])
    (hSame : s.defined = t.defined)
    (hItem : t.Leads u bs)
    (hRest : u.Leads v (xs.flatMap i.bindings))
    (hFirst : i.Resolved y scope t x u)
    (hMore : i.AllResolved y scope u xs v) :
    i.AllResolved y scope s (x :: xs) v := by
  have hStart := hBefore.offset_le
  have hMiddle := hItem.offset_le
  cases i with
  | argument =>
      have hOwn :=
        hFirst.mono hStart hRest.reach_le
          (Nat.le_of_eq hSame) (Nat.le_refl _)
      have hOthers :=
        Lexical.mono hMore (Nat.le_trans hStart hMiddle)
          (Nat.le_refl _) (Nat.le_refl _) (Nat.le_refl _)
      exact resolvesArguments_cons hOwn hOthers
  | parameter =>
      have hOwn := hFirst.mono hStart (Nat.le_refl _)
      rw [← hSame] at hOwn
      exact InOrder.cons hOwn hMore
  | lambdaParameter =>
      have hOwn := hFirst.mono hStart (Nat.le_refl _)
      rw [← hSame] at hOwn
      exact InOrder.cons hOwn hMore
  | entry => trivial

/- Strings are texts or templates. -/
theorem resolves_string
    {a b lo hi : Nat}
    {parts : List StringPart}
    (hParts :
      ResolvesExprs y scope a b hi lo
        (parts.map (·.expression)))
    (span : Span) :
    Resolves y scope a b lo hi
      (.new (stringForm parts) span) := by
  unfold stringForm
  split
  · exact (ResolvesForm.template hParts.mergeTexts).expr rfl
  · exact (ResolvesForm.string _ hParts.le).expr rfl

theorem resolves_int
    {a b lo hi : Nat}
    {text : String}
    {form : ExprForm}
    (hForm : intForm? text = some form)
    (hLe : lo ≤ hi)
    (span : Span) :
    Resolves y scope a b lo hi (.new form span) := by
  unfold intForm? at hForm
  dsimp only at hForm
  split at hForm
  · rcases Option.map_eq_some_iff.1 hForm with ⟨n, -, rfl⟩
    exact (ResolvesForm.long n hLe).expr rfl
  · rcases Option.map_eq_some_iff.1 hForm with ⟨n, -, rfl⟩
    exact (ResolvesForm.int n hLe).expr rfl

end Cases

theorem bindings_parameters (ps : List Parameter) :
    ps.flatMap (Item.bindings .parameter) =
      ps.map Parameter.binding :=
  List.map_eq_flatMap.symm

theorem bindings_lambdaParameters (ps : List Parameter) :
    ps.flatMap (Item.bindings .lambdaParameter) =
      ps.map Parameter.binding :=
  List.map_eq_flatMap.symm

/-
  The walk over the tree settles its uses, in each scope that
  covers what is read.
-/
def Phrase.Settles
    (y : Symbols)
    (phrase : Phrase)
    (s : ParserState)
    (r : phrase.Result)
    (t : ParserState) :
    Prop :=
  ∀ {scope},
    y.Covers scope s t → phrase.Resolved y scope s r t

section Walks

variable {y : Symbols}
variable {s t u v : ParserState}

/-
  The first part starts at its token, and the others go
  on.
-/
theorem Phrase.Settles.expression
    {power : Power}
    {starter : Starter}
    {first e : Expr}
    (hStart : s.token.kind.starter? = some starter)
    (hFirst : Derives (.start starter s.token) s.next first t)
    (hMore : Derives (.extensions power first) t e u)
    (ihFirst :
      Phrase.Settles y (.start starter s.token) s.next first
        t)
    (ihMore :
      Phrase.Settles y (.extensions power first) t e u) :
    Phrase.Settles y (.expression power) s e u := by
  intro scope hCovers
  have hRegular := hCovers.regular
  have hToken :=
    hRegular.offset_lt_reach_next
      (ne_eof_of_starter hStart)
  have hLeft := hFirst.leads hRegular.next
  have hRight := hMore.leads hLeft.regular
  have hOwn :=
    ihFirst (hCovers.next.first hRight) s.offset
      (Nat.le_refl _) hToken
  have hReach := hLeft.reach_le
  exact ihMore (hCovers.next.rest hLeft) s.offset
    s.defined (by omega) hOwn

theorem Phrase.Settles.more
    {power : Power}
    {left : Expr}
    {extender : Extender}
    {q : Power}
    {e f : Expr}
    (hExtension :
      Derives (.extension extender left s.token q) s.next e
        t)
    (hMore : Derives (.extensions power e) t f u)
    (ihExtension :
      Phrase.Settles y (.extension extender left s.token q)
        s.next e t)
    (ihMore : Phrase.Settles y (.extensions power e) t f u) :
    Phrase.Settles y (.extensions power left) s f u := by
  intro scope hCovers a lo hStart hLeft
  have hRegular := hCovers.regular
  have hPassed := hRegular.reach_le_next
  have hFirst := hExtension.leads hRegular.next
  have hRight := hMore.leads hFirst.regular
  have hOwn :=
    ihExtension (hCovers.next.first hRight) a lo
      (by omega)
      (hLeft.mono (Nat.le_refl a) hPassed
        (Nat.le_refl lo) (Nat.le_refl _))
  have hReach := hFirst.reach_le
  exact ihMore (hCovers.next.rest hFirst) a lo
    (by omega) hOwn

theorem Phrase.Settles.string
    {token : Token}
    {parts : List StringPart}
    (hParts : Derives .parts s parts t)
    (ih : Phrase.Settles y .parts s parts t) :
    Phrase.Settles y (.start .string token) s
      (.new (stringForm parts)
        (token.span.between t.token.span))
      t.next := by
  intro scope hCovers a hStart hStop
  have hOwn := ih hCovers.of_next
  have hLess := hCovers.regular.reach_le_offset
  have hLeads := hParts.leads hCovers.regular
  have hPassed := hLeads.regular.reach_le_next
  exact resolves_string
    (hOwn.mono (by omega) hPassed) _

theorem Phrase.Settles.invocation
    {token : Token}
    {arguments : List Argument}
    (hItems : Derives (.items .argument) s.next arguments t)
    (ih :
      Phrase.Settles y (.items .argument) s.next arguments
        t) :
    Phrase.Settles y (.start .reference token) s
      (.invocation token.name arguments
        (token.span.between t.token.span))
      t.next := by
  intro scope hCovers a hStart hStop
  have hRegular := hCovers.regular
  have hOwn := ih hCovers.next.of_next
  have hLeads := hItems.leads hRegular.next
  have hLess := hRegular.reach_le_offset
  have hNext := hRegular.offset_le_next
  have hFrom := hRegular.reach_le_next
  have hReach := hLeads.reach_le
  have hPassed := hLeads.regular.reach_le_next
  exact resolves_invocation _ hStart
    (Nat.lt_of_lt_of_le hStop (by omega))
    (Lexical.mono hOwn (by omega) hPassed
      (Nat.le_refl _) (Nat.le_refl _))

theorem Phrase.Settles.grouping
    {token : Token}
    {inner : Expr}
    (hInner : Derives (.expression .loosest) s inner t)
    (ih : Phrase.Settles y (.expression .loosest) s inner t) :
    Phrase.Settles y (.start .grouping token) s
      (.new (.parenthesized inner)
        (token.span.between t.token.span))
      t.next := by
  intro scope hCovers a hStart hStop
  have hLess := hCovers.regular.reach_le_offset
  have hLeads := hInner.leads hCovers.regular
  have hPassed := hLeads.regular.reach_le_next
  have hOwn :=
    (ih hCovers.of_next).mono (c := a) (by omega)
      hPassed (Nat.le_refl _) (Nat.le_refl _)
  exact (ResolvesForm.parenthesized hOwn).expr rfl

/- The parts of a conditional come one after the other. -/
theorem Phrase.Settles.conditional
    {token : Token}
    {condition thenBranch : Expr}
    {elseBranch : Option Expr}
    (hCondition :
      Derives (.expression .loosest) s.next condition t)
    (hThen :
      Derives (.expression .loosest) t.next thenBranch u)
    (hElse : Derives (.behind .kwElse) u elseBranch v)
    (ihCondition :
      Phrase.Settles y (.expression .loosest) s.next
        condition t)
    (ihThen :
      Phrase.Settles y (.expression .loosest) t.next
        thenBranch u)
    (ihElse :
      Phrase.Settles y (.behind .kwElse) u elseBranch v) :
    Phrase.Settles y (.start .conditional token) s
      (.new (.conditional condition thenBranch elseBranch)
        (token.span.between
          ((elseBranch.map (·.span)).getD thenBranch.span)))
      v := by
  intro scope hCovers a hStart hStop
  have hRegular := hCovers.regular
  have hFirst := hCondition.leads hRegular.next
  have hSecond := hThen.leads hFirst.regular.next
  have hThird := hElse.leads hSecond.regular
  have hLess := hRegular.reach_le_offset
  have hNext := hRegular.offset_le_next
  have hOffset := hFirst.offset_le
  have hOffset' := hFirst.regular.offset_le_next
  have hOffset'' := hSecond.offset_le
  have hReach := hFirst.regular.reach_le_next
  have hReach' := hSecond.reach_le
  have hReach'' := hThird.reach_le
  have hAfter := hCovers.next.rest hFirst.andNext
  have hOwn :=
    (ihCondition (hCovers.next.first
      (.trans (.next hFirst.regular)
        (hSecond.trans hThird)))).mono (c := a) (d := v.reach)
      (by omega) (by omega) (Nat.le_refl _)
      (Nat.le_refl _)
  have hOwn' :=
    (ihThen (hAfter.first hThird)).mono (c := a)
      (d := v.reach) (by omega) (by omega) (Nat.le_refl _)
      (Nat.le_refl _)
  have hOwn'' :=
    (ihElse (hAfter.rest hSecond)).mono (c := a)
      (by omega) (Nat.le_refl _) (Nat.le_refl _)
      (Nat.le_refl _)
  exact (ResolvesForm.conditional hOwn hOwn'
    hOwn'').expr rfl

/-
  The scope of a function holds what its parameters make.
-/
theorem Phrase.Settles.functionLiteral
    {token : Token}
    {parameters : List Parameter}
    {returnType : TypeExpr}
    {body : Expr}
    (hSignature :
      Derives .signature s.opened (parameters, returnType)
        t)
    (hBody : Derives .body t body u)
    (ihSignature :
      Phrase.Settles y .signature s.opened
        (parameters, returnType) t)
    (ihBody : Phrase.Settles y .body t body u) :
    Phrase.Settles y (.start .function token) s
      (.new
        (.function parameters returnType body s.newScope)
        (token.span.between body.span))
      u.closed := by
  intro scope hCovers a hStart hStop
  have hLess := hCovers.regular.reach_le_offset
  have hFirst :=
    hSignature.leads hCovers.regular.opened
  have hSecond := hBody.leads hFirst.regular
  have hInside := hCovers.inside
  have hHolds := hCovers.holds (hFirst.andThen hSecond)
  dsimp only [Phrase.bindings] at hHolds
  rw [bindings_parameters] at hHolds
  have hOwn := ihSignature (hInside.first hSecond)
  have hLast := ihBody (hInside.rest hFirst)
  have hForm (span : Span) :
      ResolvesForm y scope s.offset u.reach s.defined
        u.defined span
        (.function parameters returnType body
          s.newScope) :=
    .function hHolds hOwn hLast.2 hLast.1
  exact ((hForm _).expr rfl).mono
    (Nat.le_trans hStart
      (Nat.le_trans (Nat.le_of_lt hStop) hLess))
    (Nat.le_refl _) (Nat.le_refl _) (Nat.le_refl _)

theorem Phrase.Settles.lambda
    {token : Token}
    {parameters : List Parameter}
    {body : Expr}
    (hItems :
      Derives (.items .lambdaParameter) s.opened parameters
        t)
    (hClose : t.token.kind = .pipe)
    (hBody : Derives (.expression .loosest) t.next body u)
    (ihItems :
      Phrase.Settles y (.items .lambdaParameter) s.opened
        parameters t)
    (ihBody :
      Phrase.Settles y (.expression .loosest) t.next body
        u) :
    Phrase.Settles y (.start .lambda token) s
      (.new (.lambda parameters body s.newScope)
        (token.span.between body.span))
      u.closed := by
  intro scope hCovers a hStart hStop
  have hLess := hCovers.regular.reach_le_offset
  have hFirst := hItems.leads hCovers.regular.opened
  have hSecond := hBody.leads hFirst.regular.next
  have hInside := hCovers.inside
  have hHolds :=
    hCovers.holds (hFirst.andNext.andThen hSecond)
  dsimp only [Phrase.bindings] at hHolds
  rw [bindings_lambdaParameters] at hHolds
  have hOwn :=
    ihItems (hInside.first
      (.trans (.next hFirst.regular) hSecond))
  have hPassed :=
    hFirst.regular.offset_lt_reach_next
      (by rw [hClose]; nofun)
  have hReach := hSecond.reach_le
  have hLast :=
    (ihBody (hInside.rest hFirst.andNext)).mono
      hFirst.regular.offset_le_next (Nat.le_refl _)
      (Nat.le_refl _) (Nat.le_refl _)
  have hForm (span : Span) :
      ResolvesForm y scope s.offset u.reach s.defined
        u.defined span
        (.lambda parameters body s.newScope) :=
    .lambda hHolds hOwn hLast (by omega)
  exact ((hForm _).expr rfl).mono
    (Nat.le_trans hStart
      (Nat.le_trans (Nat.le_of_lt hStop) hLess))
    (Nat.le_refl _) (Nat.le_refl _) (Nat.le_refl _)

/- An operator hands both of its sides to the walk. -/
theorem Phrase.Settles.sides
    {power : Power}
    {scope : ScopeId}
    {left right : Expr}
    {a lo : Nat}
    (hSettles : Phrase.Settles y (.expression power) s right t)
    (hRight : Derives (.expression power) s right t)
    (hCovers : y.Covers scope s t)
    (hStart : a ≤ s.reach)
    (hLeft : Resolves y scope a s.reach lo s.defined left) :
    Resolves y scope a t.reach lo s.defined left ∧
      Resolves y scope a t.reach s.defined t.defined right := by
  have hLess := hCovers.regular.reach_le_offset
  have hReach := (hRight.leads hCovers.regular).reach_le
  have hFirst :=
    hLeft.mono (Nat.le_refl a) hReach (Nat.le_refl lo)
      (Nat.le_refl _)
  have hSecond :=
    (hSettles hCovers).mono (c := a) (by omega)
      (Nat.le_refl _) (Nat.le_refl _) (Nat.le_refl _)
  exact ⟨hFirst, hSecond⟩

theorem Phrase.Settles.call
    {left : Expr}
    {operator : Token}
    {q : Power}
    {arguments : List Argument}
    (hItems : Derives (.items .argument) s arguments t)
    (ih : Phrase.Settles y (.items .argument) s arguments t) :
    Phrase.Settles y (.extension .call left operator q) s
      (.new (.call left arguments)
        (left.span.between t.token.span))
      t.next := by
  intro scope hCovers a lo hStart hLeft
  have hLess := hCovers.regular.reach_le_offset
  have hLeads := hItems.leads hCovers.regular
  have hReach := hLeads.reach_le
  have hPassed := hLeads.regular.reach_le_next
  have hFirst :=
    hLeft.mono (Nat.le_refl a)
      (Nat.le_trans hReach hPassed) (Nat.le_refl lo)
      (Nat.le_refl _)
  have hSecond :=
    Lexical.mono (c := a) (ih hCovers.of_next) (by omega)
      hPassed (Nat.le_refl _) (Nat.le_refl _)
  exact (ResolvesForm.call hFirst hSecond).expr rfl

------------------------------------------------------------
-- Items of lists
------------------------------------------------------------

/- A parameter is seen from the end of its span on. -/
theorem Phrase.Settles.parameter
    {type : TypeExpr}
    {fallback : Option Expr}
    {span : Span}
    {id : DefinitionId}
    (hName : s.token.kind.isName)
    (hType :
      DerivesType (.operand (joinsAbove .loosest))
        s.next.next type t)
    (hFallback : Derives (.behind .assignment) t fallback u)
    (hSpan :
      span =
        s.token.span.between
          ((fallback.map (·.span)).getD type.span))
    (hDeclares :
      u.Declares
        ⟨s.token.name, .argument, span, span.stop.offset,
         false, none⟩
        id v)
    (ih :
      Phrase.Settles y (.behind .assignment) t fallback u) :
    Phrase.Settles y (.item .parameter) s
      ⟨s.token.name, type, fallback, id, span⟩ v := by
  intro scope hCovers
  have hRegular := hCovers.regular
  have hTwo := (Leads.next hRegular).andNext
  have hTyped := hType.leads hTwo.regular
  have hOption := hFallback.leads hTyped.regular
  have hDeclared :=
    Leads.declares hOption.regular hDeclares rfl
  have hStop : u.EndsAt span := by
    have hTypeStop := hType.stop_eq trivial
    rw [hSpan]
    exact hFallback.extent _ hTypeStop
  have hVisible :=
    hCovers.completes.visibleFrom hDeclares
  rcases hDeclares.defined_eq with ⟨rfl, hDefined⟩
  have hAfter :=
    (hCovers.next.next.rest hTyped).first hDeclared
  have hFrom := (hTwo.trans hTyped).offset_le
  have hReach := hOption.reach_le
  have hBehind := hDeclared.offset_le
  have hLess := hOption.regular.reach_le_offset
  have hFirst :=
    hRegular.offset_lt_reach_next
      (ne_eof_of_isName hName)
  have hSecond := (Leads.next hRegular.next).reach_le
  have hThird := hTyped.reach_le
  unfold EndsAt at hStop
  dsimp only at hVisible
  refine ⟨by rw [hDefined]; exact Nat.lt_succ_self _,
    _, hVisible, by omega, by omega, ?_⟩
  exact (ih hAfter).mono hFrom (Nat.le_of_eq hStop.symm)
    (hTwo.trans hTyped).defined_le (Nat.le_refl _)

theorem Phrase.Settles.lambdaParameter
    {type : TypeExpr}
    {span : Span}
    {id : DefinitionId}
    (hType :
      DerivesType (.behind .colon .logicalOr s.token.span)
        s.next type t)
    (hDeclares :
      t.Declares
        ⟨s.token.name, .argument, span,
         s.token.span.start.offset, false, none⟩
        id u) :
    Phrase.Settles y (.item .lambdaParameter) s
      ⟨s.token.name, type, none, id, span⟩ u := by
  intro scope hCovers
  have hRegular := hCovers.regular
  have hTyped := hType.leads hRegular.next
  have hDeclared :=
    Leads.declares hTyped.regular hDeclares rfl
  have hVisible :=
    hCovers.completes.visibleFrom hDeclares
  rcases hDeclares.defined_eq with ⟨rfl, hDefined⟩
  have hTo :=
    (((Leads.next hRegular).trans hTyped).trans
      hDeclared).offset_le
  refine ⟨by rw [hDefined]; exact Nat.lt_succ_self _,
    _, hVisible, Nat.le_refl _, hTo, ?_⟩
  exact .none hTyped.defined_le

------------------------------------------------------------
-- Functions and strings
------------------------------------------------------------

theorem Phrase.Settles.signature
    {parameters : List Parameter}
    {returnType : TypeExpr}
    (hItems : Derives (.items .parameter) s.next parameters t)
    (hType :
      DerivesType (.behind .arrow .loosest t.token.span)
        t.next returnType u)
    (ih :
      Phrase.Settles y (.items .parameter) s.next parameters
        t) :
    Phrase.Settles y .signature s (parameters, returnType)
      u := by
  intro scope hCovers
  have hNext := hCovers.regular.offset_le_next
  have hOwn := hItems.leads hCovers.regular.next
  have hRest := hType.leads hOwn.regular.next
  have hLast := (Leads.next hOwn.regular).trans hRest
  exact (ih (hCovers.next.first hLast)).mono hNext
    hLast.offset_le hLast.defined_le

/- What is behind a token starts where the token does. -/
theorem Resolves.behind_token
    {scope : ScopeId}
    {e : Expr}
    {bs : List Binding}
    (hRegular : s.Regular)
    (hMore : s.token.kind ≠ .eof)
    (hLeads : s.next.Leads t bs)
    (hOwn :
      Resolves y scope s.next.offset t.reach s.next.defined
        t.defined e) :
    s.offset ≤ t.reach ∧
      Resolves y scope s.offset t.reach s.defined t.defined
        e := by
  have hPassed := hRegular.offset_lt_reach_next hMore
  have hReach := hLeads.reach_le
  exact ⟨by omega,
    hOwn.mono hRegular.offset_le_next (Nat.le_refl _)
      (Nat.le_refl _) (Nat.le_refl _)⟩

theorem Phrase.Settles.namedValue
    {e : Expr}
    (hValue : Derives (.expression .loosest) s.next e t)
    (ih :
      Phrase.Settles y (.expression .loosest) s.next e t) :
    Phrase.Settles y .namedBody s (some e) t.next := by
  intro scope hCovers
  have hOwn := hValue.leads hCovers.regular.next
  have hReach := hOwn.regular.reach_le_offset
  have hNext := hOwn.regular.offset_le_next
  exact .some ((ih hCovers.next.of_next).mono
    hCovers.regular.offset_le_next (by omega)
    (Nat.le_refl _) (Nat.le_refl _))

theorem Phrase.Settles.embeddedPart
    {e : Expr}
    {parts : List StringPart}
    (hExpr : Derives (.expression .loosest) s.next e t)
    (hMore : Derives .parts t.next parts u)
    (ihExpr :
      Phrase.Settles y (.expression .loosest) s.next e t)
    (ihMore : Phrase.Settles y .parts t.next parts u) :
    Phrase.Settles y .parts s (.embedded e :: parts) u := by
  intro scope hCovers
  have hFirst := hExpr.leads hCovers.regular.next
  have hRest := hMore.leads hFirst.regular.next
  have hLast := (Leads.next hFirst.regular).trans hRest
  have hAfter := hCovers.next.rest hFirst.andNext
  have hNext := (Leads.next hCovers.regular).offset_le
  have hOffset := hFirst.andNext.offset_le
  exact .cons
    ((ihExpr (hCovers.next.first hLast)).mono hNext
      hLast.reach_le (Nat.le_refl _) (Nat.le_refl _))
    ((ihMore hAfter).mono (by omega) (Nat.le_refl _))

------------------------------------------------------------
-- Blocks and statements
------------------------------------------------------------

theorem Phrase.Settles.block
    {start : Token}
    {statements : List Statement}
    (hStatements : Derives .statements s.opened statements t)
    (hClose : t.token.kind = .closeCurly)
    (ih :
      Phrase.Settles y .statements s.opened statements t) :
    Phrase.Settles y (.block start) s
      (.new (.block statements s.newScope)
        (start.span.between t.token.span))
      t.next.closed := by
  intro scope hCovers
  have hOwn := hStatements.leads hCovers.regular.opened
  have hHolds := hCovers.holds hOwn.andNext
  have hInside := ih hCovers.inside.of_next
  have hPassed :=
    hOwn.regular.offset_lt_reach_next
      (by rw [hClose]; nofun)
  have hForm (span : Span) :
      ResolvesForm y scope s.offset t.offset s.defined
        t.defined span (.block statements s.newScope) :=
    .block hHolds hInside
  exact ((hForm _).expr rfl).mono (Nat.le_refl _)
    (Nat.le_of_lt hPassed) (Nat.le_refl _)
    (Nat.le_refl _)

theorem Phrase.Settles.endedStatement
    {e : Expr}
    (hExpr : Derives (.expression .loosest) s e t)
    (ih : Phrase.Settles y (.expression .loosest) s e t) :
    Phrase.Settles y .statement s (.expression e)
      t.next := by
  intro scope hCovers
  have hOwn := hExpr.leads hCovers.regular
  have hReach := hOwn.regular.reach_le_offset
  have hNext := hOwn.regular.offset_le_next
  have hValue :=
    (ih hCovers.of_next).mono (d := t.next.offset)
      (Nat.le_refl _) (by omega) (Nat.le_refl _)
      (Nat.le_refl _)
  exact .expression hValue hOwn.andNext.offset_le

theorem Phrase.Settles.openStatement
    {e : Expr}
    (hExpr : Derives (.expression .loosest) s e t)
    (ih : Phrase.Settles y (.expression .loosest) s e t) :
    Phrase.Settles y .statement s (.expression e) t := by
  intro scope hCovers
  have hOwn := hExpr.leads hCovers.regular
  have hValue :=
    (ih hCovers).mono (Nat.le_refl _)
      hOwn.regular.reach_le_offset (Nat.le_refl _)
      (Nat.le_refl _)
  exact .expression hValue hOwn.offset_le

------------------------------------------------------------
-- Declarations
------------------------------------------------------------

theorem Phrase.Settles.variableDecl
    {kind : DefinitionKind}
    {type : TypeExpr}
    {initializer : Option Expr}
    {span : Span}
    {id : DefinitionId}
    (hType :
      DerivesType
        (.behind .colon .loosest s.next.token.span)
        s.next.next type t)
    (hInitializer :
      Derives (.behind .assignment) t initializer u)
    (hStop : u.token.kind = .semicolon)
    (hSpan : span = s.token.span.between u.token.span)
    (hDeclares :
      u.next.Declares
        ⟨s.next.token.name, kind, span, span.stop.offset,
         s.token.kind = .kwVar, none⟩
        id v)
    (ih :
      Phrase.Settles y (.behind .assignment) t initializer
        u) :
    Phrase.Settles y (.variableDecl kind) s
      ⟨s.token.kind = .kwVar, s.next.token.name, type,
       initializer, id, span⟩
      v := by
  intro scope hCovers
  have hRegular := hCovers.regular
  have hTwo := (Leads.next hRegular).andNext
  have hTyped := hType.leads hTwo.regular
  have hValue := hInitializer.leads hTyped.regular
  have hDeclared :=
    Leads.declares hValue.regular.next hDeclares rfl
  have hVisible :=
    hCovers.completes.visibleFrom hDeclares
  rcases hDeclares.defined_eq with ⟨rfl, hDefined⟩
  have hAfter :=
    (hCovers.next.next.rest hTyped).first
      ((Leads.next hValue.regular).trans hDeclared)
  have hEnd :
      span.stop.offset = u.next.reach := by
    rw [hSpan]
    exact (reach_next (by rw [hStop]; nofun)).symm
  have hFrom := (hTwo.trans hTyped).offset_le
  have hReach := hValue.offset_le
  have hPassed :=
    hValue.regular.offset_lt_reach_next
      (by rw [hStop]; nofun)
  have hLess := hValue.regular.reach_le_offset
  have hLast := hValue.regular.next.reach_le_offset
  have hTo := hDeclared.offset_le
  dsimp only at hVisible
  have hOption :=
    (ih hAfter).mono hFrom (Nat.le_refl _)
      (hTwo.trans hTyped).defined_le (Nat.le_refl _)
  rw [hEnd] at hVisible
  have hVariable :
      ResolvesVariable y scope s.offset v.offset s.defined
        (u.next.defined + 1)
        ⟨s.token.kind = .kwVar, s.next.token.name, type,
          initializer, u.next.defined, span⟩ :=
    .intro hOption hVisible (by omega) (by omega)
      (hLast.trans hTo)
  rw [← hDefined] at hVariable
  exact hVariable

/-
  A function is seen from its name on, its own body
  included.
-/
theorem Phrase.Settles.functionDecl
    {parameters : List Parameter}
    {returnType : TypeExpr}
    {body : Option Expr}
    {span : Span}
    {id : DefinitionId}
    (hSignature :
      Derives .signature s.next.next.opened
        (parameters, returnType) t)
    (hBody : Derives .namedBody t body u)
    (hDeclares :
      u.closed.Declares
        ⟨s.next.token.name, .function, span,
         s.next.token.span.start.offset, false, none⟩
        id v)
    (ihSignature :
      Phrase.Settles y .signature s.next.next.opened
        (parameters, returnType) t)
    (ihBody : Phrase.Settles y .namedBody t body u) :
    Phrase.Settles y .functionDecl s
      ⟨s.next.token.name, parameters, returnType, body,
       s.next.next.newScope, id, span⟩
      v := by
  intro scope hCovers
  have hRegular := hCovers.regular
  have hTwo := (Leads.next hRegular).andNext
  have hFirst := hSignature.leads hTwo.regular.opened
  have hSecond := hBody.leads hFirst.regular
  have hBoth := hFirst.andThen hSecond
  have hScoped := Leads.scoped hTwo.regular hBoth
  have hDeclared :=
    Leads.declares hScoped.regular hDeclares rfl
  have hVisible :=
    hCovers.completes.visibleFrom hDeclares
  rcases hDeclares.defined_eq with ⟨rfl, hDefined⟩
  have hAround := hCovers.next.next.first hDeclared
  have hInside := hAround.inside
  have hHolds := hAround.holds hBoth
  dsimp only [Phrase.bindings] at hHolds
  rw [bindings_parameters] at hHolds
  have hOwn := ihSignature (hInside.first hSecond)
  have hLast :=
    (ihBody (hInside.rest hFirst)).mono (Nat.le_refl _)
      hDeclared.offset_le (Nat.le_refl _) (Nat.le_refl _)
  have hStop :=
    Nat.le_trans hSecond.offset_le hDeclared.offset_le
  have hFunction :
      ResolvesFunction y scope s.offset v.offset s.defined
        (u.closed.defined + 1)
        ⟨s.next.token.name, parameters, returnType, body,
          s.next.next.newScope, u.closed.defined,
          span⟩ :=
    .intro hHolds hOwn hLast hVisible
      hRegular.offset_le_next
      hRegular.next.offset_le_next hStop
  rw [← hDefined] at hFunction
  exact hFunction

end Walks

/- The walk over each tree settles its uses. -/
theorem Derives.resolved
    {y : Symbols}
    {phrase : Phrase}
    {s t : ParserState}
    {r : phrase.Result}
    (hDerives : Derives phrase s r t) :
    phrase.Settles y s r t := by
  induction hDerives with
  | expression hStart hFirst hMore ihFirst ihMore =>
      exact Phrase.Settles.expression hStart hFirst hMore
        ihFirst ihMore
  | stop _ => exact fun _ a lo _ hLeft => hLeft
  | more _ _ hExtension hMore ihExtension ihMore =>
      exact Phrase.Settles.more hExtension hMore ihExtension
        ihMore
  | int hForm =>
      exact fun _ a _ _ =>
        resolves_int hForm (Nat.le_refl _) _
  | boolean =>
      exact fun _ a _ _ =>
        (ResolvesForm.boolean _ (Nat.le_refl _)).expr rfl
  | string hParts _ ih =>
      exact Phrase.Settles.string hParts ih
  | reference _ =>
      exact fun _ a hStart hStop =>
        resolves_reference _ hStart hStop (Nat.le_refl _)
  | invocation _ hItems _ ih =>
      exact Phrase.Settles.invocation hItems ih
  | @unary token s operand t hOperand ih =>
      intro scope hCovers a hStart hStop
      have hLess := hCovers.regular.reach_le_offset
      have hOwn :=
        (ih hCovers).mono (c := a) (by omega)
          (Nat.le_refl _) (Nat.le_refl _) (Nat.le_refl _)
      exact (ResolvesForm.unary hOwn).expr rfl
  | grouping hInner _ ih =>
      exact Phrase.Settles.grouping hInner ih
  | startBlock _ ih =>
      intro scope hCovers a hStart hStop
      have hLess := hCovers.regular.reach_le_offset
      exact (ih hCovers).mono (by omega) (Nat.le_refl _)
        (Nat.le_refl _) (Nat.le_refl _)
  | conditional _ hCondition _ hThen hElse ihCondition
      ihThen ihElse =>
      exact Phrase.Settles.conditional hCondition hThen
        hElse ihCondition ihThen ihElse
  | functionLiteral _ hSignature hBody ihSignature ihBody =>
      exact Phrase.Settles.functionLiteral hSignature hBody
        ihSignature ihBody
  | lambda hItems hClose hBody ihItems ihBody =>
      exact Phrase.Settles.lambda hItems hClose hBody
        ihItems ihBody
  | retValue _ ih =>
      intro scope hCovers a hStart hStop
      have hLess := hCovers.regular.reach_le_offset
      have hOwn :=
        (ih hCovers).mono (c := a) (by omega)
          (Nat.le_refl _) (Nat.le_refl _) (Nat.le_refl _)
      exact (ResolvesForm.ret (.some hOwn)).expr rfl
  | retNothing _ =>
      exact fun _ a _ _ =>
        (ResolvesForm.ret (.none (Nat.le_refl _))).expr rfl
  | binary _ hRight ih =>
      intro scope hCovers a lo hStart hLeft
      rcases ih.sides hRight hCovers hStart hLeft with
        ⟨hFirst, hSecond⟩
      exact (ResolvesForm.binary hFirst hSecond).expr rfl
  | assignment _ hValue ih =>
      intro scope hCovers a lo hStart hLeft
      rcases ih.sides hValue hCovers hStart hLeft with
        ⟨hFirst, hSecond⟩
      exact (ResolvesForm.assignment hFirst hSecond).expr rfl
  | member _ hRight hIs ih =>
      intro scope hCovers a lo hStart hLeft
      rcases ih.sides hRight hCovers hStart hLeft with
        ⟨hFirst, hSecond⟩
      exact (ResolvesForm.access hFirst hSecond hIs).expr rfl
  | call hItems _ ih => exact Phrase.Settles.call hItems ih
  | present _ _ ih =>
      intro scope hCovers
      have hNext := hCovers.regular.offset_le_next
      exact .some ((ih hCovers.next).mono hNext
        (Nat.le_refl _) (Nat.le_refl _) (Nat.le_refl _))
  | absent _ => exact fun _ => .none (Nat.le_refl _)
  | @named s value t _ _ ih =>
      intro scope hCovers
      have hNext := hCovers.regular.offset_le_next
      have hNext' := hCovers.regular.next.offset_le_next
      exact (ih hCovers.next.next).mono
        (Nat.le_trans hNext hNext') (Nat.le_refl _)
        (Nat.le_refl _) (Nat.le_refl _)
  | positional _ _ ih => exact fun hCovers => ih hCovers
  | parameter hName _ hType hFallback hSpan hDeclares ih =>
      exact Phrase.Settles.parameter hName hType hFallback
        hSpan hDeclares ih
  | lambdaParameter _ hType _ hDeclares =>
      exact Phrase.Settles.lambdaParameter hType hDeclares
  | entry _ _ => exact fun _ => trivial
  | renamedEntry _ _ _ => exact fun _ => trivial
  | noItems _ =>
      exact fun hCovers =>
        Item.AllResolved.nil _ (.refl hCovers.regular)
  | @someItems i s x t xs u _ hFirst hMore ihFirst ihMore =>
      intro scope hCovers
      have hItem := hFirst.leads hCovers.regular
      have hRest := hMore.leads hItem.regular
      exact .cons (.refl hCovers.regular) rfl hItem hRest
        (ihFirst (hCovers.first hRest))
        (ihMore (hCovers.rest hItem))
  | lastItem _ =>
      exact fun hCovers =>
        Item.AllResolved.nil _ (.refl hCovers.regular)
  | trailingComma _ _ =>
      exact fun hCovers =>
        Item.AllResolved.nil _ (.next hCovers.regular)
  | @nextItem i s x t xs u _ _ hFirst hMore ihFirst ihMore =>
      intro scope hCovers
      have hItem := hFirst.leads hCovers.regular.next
      have hRest := hMore.leads hItem.regular
      exact .cons (.next hCovers.regular) rfl hItem hRest
        (ihFirst (hCovers.next.first hRest))
        (ihMore (hCovers.next.rest hItem))
  | signature _ hItems _ hType ih =>
      exact Phrase.Settles.signature hItems hType ih
  | bodyValue hAssign hValue ih =>
      intro scope hCovers
      exact Resolves.behind_token hCovers.regular
        (by rw [hAssign]; nofun)
        (hValue.leads hCovers.regular.next)
        (ih hCovers.next)
  | bodyBlock hOpen hBlock ih =>
      intro scope hCovers
      exact Resolves.behind_token hCovers.regular
        (by rw [hOpen]; nofun)
        (hBlock.leads hCovers.regular.next)
        (ih hCovers.next)
  | namedValue _ hValue _ ih =>
      exact Phrase.Settles.namedValue hValue ih
  | @namedBlock s e t _ hBlock ih =>
      intro scope hCovers
      have hOwn := hBlock.leads hCovers.regular.next
      exact .some ((ih hCovers.next).mono
        hCovers.regular.offset_le_next
        hOwn.regular.reach_le_offset (Nat.le_refl _)
        (Nat.le_refl _))
  | namedNone _ => exact fun _ => .none (Nat.le_refl _)
  | namedNothing _ => exact fun _ => .none (Nat.le_refl _)
  | noParts _ => exact fun _ => .nil (Nat.le_refl _)
  | textPart _ _ ih =>
      intro scope hCovers
      exact .cons
        ((ResolvesForm.string _ (Nat.le_refl _)).expr rfl)
        ((ih hCovers.next).mono
          hCovers.regular.offset_le_next (Nat.le_refl _))
  | escapePart _ _ _ ih =>
      intro scope hCovers
      exact .cons
        ((ResolvesForm.string _ (Nat.le_refl _)).expr rfl)
        ((ih hCovers.next).mono
          hCovers.regular.offset_le_next (Nat.le_refl _))
  | embeddedPart _ hExpr _ hMore ihExpr ihMore =>
      exact Phrase.Settles.embeddedPart hExpr hMore ihExpr
        ihMore
  | block hStatements hClose ih =>
      exact Phrase.Settles.block hStatements hClose ih
  | noStatements _ =>
      exact fun _ =>
        InOrder.nil (Nat.le_refl _) (Nat.le_refl _)
  | @someStatements s x t xs u _ _ hFirst hMore ihFirst
      ihMore =>
      intro scope hCovers
      have hOwn := hFirst.leads hCovers.regular
      have hRest := hMore.leads hOwn.regular
      exact InOrder.cons (ihFirst (hCovers.first hRest))
        (ihMore (hCovers.rest hOwn))
  | variableStatement _ _ ih =>
      exact fun hCovers => .variable (ih hCovers)
  | functionStatement _ _ ih =>
      exact fun hCovers => .function (ih hCovers)
  | endedStatement _ _ _ hExpr _ ih =>
      exact Phrase.Settles.endedStatement hExpr ih
  | openStatement _ _ _ hExpr _ _ ih =>
      exact Phrase.Settles.openStatement hExpr ih
  | variableDecl _ _ hType hInitializer hStop hSpan
      hDeclares ih =>
      exact Phrase.Settles.variableDecl hType hInitializer
        hStop hSpan hDeclares ih
  | functionDecl _ _ hSignature hBody _ hDeclares
      ihSignature ihBody =>
      exact Phrase.Settles.functionDecl hSignature hBody
        hDeclares ihSignature ihBody

------------------------------------------------------------
-- Whole programs
------------------------------------------------------------

theorem DerivesDeclaration.resolved
    {y : Symbols}
    {scope : ScopeId}
    {s t : ParserState}
    {d : Declaration}
    (hDerives : DerivesDeclaration s d t)
    (hCovers : y.Covers scope s t) :
    ResolvesDeclaration y scope s.offset t.offset s.defined
      t.defined d := by
  cases hDerives with
  | function hFunction =>
      exact .function (hFunction.resolved hCovers)
  | property _ hVariable =>
      exact .property (hVariable.resolved hCovers)

theorem DerivesDeclarations.resolved
    {y : Symbols}
    {scope : ScopeId}
    {s t : ParserState}
    {ds : List Declaration}
    (hDerives : DerivesDeclarations s ds t) :
    y.Covers scope s t →
      ResolvesDeclarations y scope t.offset t.defined s.offset
        s.defined ds := by
  induction hDerives with
  | stop _ =>
      exact fun _ =>
        InOrder.nil (Nat.le_refl _) (Nat.le_refl _)
  | more hFirst hMore ih =>
      intro hCovers
      have hOwn := hFirst.leads hCovers.regular
      have hRest := hMore.leads hOwn.regular
      exact InOrder.cons
        (hFirst.resolved (hCovers.first hRest))
        (ih (hCovers.rest hOwn))

/- Symbols without types stay the same without them. -/
theorem untyped_of_types_none
    {y : Symbols}
    (hNone : ∀ d ∈ y.definitions.toList, d.type = none) :
    y.untyped = y := by
  unfold Symbols.untyped
  have hSame :
      y.definitions.map (fun d => { d with type := none }) =
        y.definitions := by
    apply Array.ext'
    rw [Array.toList_map]
    conv => rhs; rw [← List.map_id y.definitions.toList]
    refine List.map_congr_left fun d hMember => ?_
    have hType := hNone d hMember
    rcases d with ⟨name, kind, span, visible, isMutable, type⟩
    cases hType
    rfl
  rw [hSame]

theorem type?_of_types_none
    {y : Symbols}
    (hNone : ∀ d ∈ y.definitions.toList, d.type = none)
    (id : DefinitionId) :
    y.type? id = none := by
  unfold Symbols.type?
  cases hFound : y.definitions[id]? with
  | none => rfl
  | some d =>
      rw [← Array.getElem?_toList] at hFound
      exact hNone d (List.mem_of_getElem? hFound)

/- No definition of a program that was read has a type. -/
theorem DerivesProgram.types_none
    {source file : String}
    {program : Program}
    (hDerives :
      DerivesProgram (.initial source file) program) :
    ∀ d ∈ program.symbols.definitions.toList,
      d.type = none := by
  have hRegular := regular_initial source file
  cases hDerives with
  | @intro imports t ds u hImports hDeclarations =>
      have hFirst := hImports.leads hRegular.opened
      have hSecond := hDeclarations.leads hFirst.regular
      rcases (hFirst.trans hSecond).definitions with
        ⟨new, hNew, hTypes⟩
      rw [hNew]
      exact hTypes

/-
  In the resolved program each use of a name is bound as the
  environment says, and all problems concern the source.
-/
theorem settled_of_derivesProgram
    {source file : String}
    {program : Program}
    (hDerives :
      DerivesProgram (.initial source file) program)
    (library : Library) :
    (resolveProgram library program).1.uses =
        program.uses.map Use.settled ∧
      ∀ d ∈ (resolveProgram library program).2,
        d.problem.concernsSource := by
  have hRegular := regular_initial source file
  have hNone := hDerives.types_none
  cases hDerives with
  | @intro imports t ds u hImports hDeclarations =>
      have hFirst := hImports.leads hRegular.opened
      have hSecond := hDeclarations.leads hFirst.regular
      have hBoth := hFirst.trans hSecond
      rw [List.nil_append] at hBoth
      have hUntyped := untyped_of_types_none hNone
      have hCompletes : u.symbols.Completes u :=
        ⟨⟨[], (List.append_nil _).symm⟩, fun _ _ _ => rfl⟩
      have hHead :
          t.scopes.head? =
            some (ParserState.initial source file).newScope := by
        rw [hFirst.scopes_eq]
        rfl
      have hHolds :=
        Symbols.Completes.holds hRegular hBoth
          ⟨hCompletes.definitions, fun _ _ _ => rfl⟩
      have hReaches :=
        Symbols.Reaches.enter (a := t.offset) (b := u.offset)
          hHolds .nowhere
      have hResolved :=
        hDeclarations.resolved
          ⟨hFirst.regular, hHead, hCompletes⟩
      have hWalk :=
        @ResolvesDeclarations.settles _ _ _ _ _ _ _ _
          (Surroundings.nowhere.within
            (ParserState.initial source file).newScope)
          _ hResolved rfl hReaches
      have hParts :
          Settles u.symbols (Set.Ico t.defined u.defined)
            (Environment.push [])
            (resolveParts library
              ⟨imports, ds,
                (ParserState.initial source file).newScope,
                u.symbols,
                Grammar.programSpan imports ds u.token.span⟩)
            (ds.flatMap Declaration.bindings)
            (fun r =>
              usesInDeclarations (Environment.push [])
                  r.declarations =
                (usesInDeclarations (Environment.push [])
                  ds).map Use.settled) := by
        unfold resolveParts
        refine Alignment.Helps.settles
          (Alignment.helps_mapM
            (Alignment.imports_identity imports)
            fun _ _ hSame =>
              Alignment.helps_resolveImport library hSame)
          fun is => ?_
        exact hWalk.last fun rs hrs => settles_pure hrs
      have hPending :
          Pending u.symbols (Set.Ico t.defined u.defined)
            (Environment.push []) (.start u.symbols) :=
        ⟨hUntyped, fun id _ => type?_of_types_none hNone id,
          nofun⟩
      rcases hParts _ hPending with
        ⟨hChanges, -, hUses⟩
      refine ⟨hUses, ?_⟩
      rcases hChanges.reports with ⟨new, hNew, hSource⟩
      intro d hMember
      apply hSource
      have hReported :
          (resolveProgram library
            ⟨imports, ds,
              (ParserState.initial source file).newScope,
              u.symbols,
              Grammar.programSpan imports ds u.token.span⟩).2 =
            new :=
        hNew
      rw [← hReported]
      exact hMember

end SourceCheck
