import Mathlib
import SourceCheck.Proofs.Scoping.Openings

/-
  The symbols of a program mirror its tree.

  Each scope belongs to a node that opens it, lies in the
  scope of the nearest such node around, and binds what is
  declared there and nothing else.  Each definition belongs
  to the node that makes it, and has its name, its kind and
  its mutability.

  Key definitions include:
    * `Symbols.Introduces`
    * `Symbols.Mirrors`
    * `Program.IsMirrored`

  Key theorems include:
    * `Derives.mirrored`
    * `DerivesProgram.mirrors`
    * `isMirrored_of_parseProgram`
-/

namespace SourceCheck

open SourceCheck.Parser
open SourceCheck.ParserState

------------------------------------------------------------
-- Mirrors
------------------------------------------------------------

namespace Symbols

/- The symbols have what a node says of its definition. -/
def Introduces (y : Symbols) (i : Introduction) : Prop :=
  ∃ visibleFrom,
    y.definitions[i.id]? =
      some
        ⟨i.name, i.kind, i.span, visibleFrom, i.isMutable,
          none⟩

/-
  The symbols have the scope of an opening within a scope,
  with exactly what is declared there, and so they do for
  all openings within.
-/
inductive Mirrors (y : Symbols) :
    Option ScopeId → Opening → Prop where
  | mk {parent scope introductions inner}
      (hHolds :
        y.Holds scope parent
          (introductions.map Introduction.binding))
      (hIntroduced :
        ∀ i ∈ introductions, y.Introduces i)
      (hInner : ∀ o ∈ inner, Mirrors y (some scope) o) :
      Mirrors y parent (.mk scope introductions inner)

/- The symbols have all of the openings in a scope. -/
def MirrorsAll
    (y : Symbols)
    (scope : ScopeId)
    (os : List Opening) :
    Prop :=
  ∀ o ∈ os, y.Mirrors (some scope) o

section MirrorsAll

variable {y : Symbols}
variable {scope : ScopeId}
variable {os rest : List Opening}

theorem MirrorsAll.nil : y.MirrorsAll scope [] :=
  nofun

theorem MirrorsAll.append
    (hFirst : y.MirrorsAll scope os)
    (hRest : y.MirrorsAll scope rest) :
    y.MirrorsAll scope (os ++ rest) :=
  List.forall_mem_append.2 ⟨hFirst, hRest⟩

theorem Mirrors.single
    {o : Opening}
    (hMirrors : y.Mirrors (some scope) o) :
    y.MirrorsAll scope [o] :=
  List.forall_mem_singleton.2 hMirrors

end MirrorsAll

end Symbols

open Symbols

------------------------------------------------------------
-- Phrases
------------------------------------------------------------

/-
  The symbols have what a phrase defines and what it opens,
  if they have what stands before the phrase.
-/
structure Phrase.Mirrored
    (y : Symbols)
    (scope : ScopeId)
    (phrase : Phrase)
    (r : phrase.Result) :
    Prop where
  introduced : ∀ i ∈ phrase.introductions r, y.Introduces i
  mirrors :
    y.MirrorsAll scope phrase.openingsBefore →
      y.MirrorsAll scope (phrase.openings r)

section Phrases

variable {y : Symbols}
variable {s t u : ParserState}

theorem map_binding_parameters (ps : List Parameter) :
    (ps.map Parameter.introduction).map
        Introduction.binding =
      ps.map Parameter.binding :=
  List.map_map

theorem map_binding_statements (xs : List Statement) :
    (xs.flatMap Statement.introductions).map
        Introduction.binding =
      xs.flatMap Statement.bindings := by
  rw [List.map_flatMap]
  refine congrArg (fun f => xs.flatMap f) (funext fun x => ?_)
  cases x with
  | _ => rfl

theorem introduces_of_declares
    {i : Introduction}
    {visibleFrom : Nat}
    (hDeclares :
      s.Declares
        ⟨i.name, i.kind, i.span, visibleFrom, i.isMutable,
          none⟩
        i.id t)
    (hCompletes : y.Completes t) :
    ∀ j ∈ [i], y.Introduces j :=
  List.forall_mem_singleton.2
    ⟨visibleFrom, Completes.definition hDeclares hCompletes⟩

theorem Phrase.Mirrored.noItems
    (i : Item)
    {scope : ScopeId} :
    (Phrase.items i).Mirrored y scope [] where
  introduced := by
    dsimp only [Phrase.introductions]
    rw [Item.allIntroductions_nil]
    exact nofun
  mirrors _ := by
    dsimp only [Phrase.openings]
    rw [Item.allOpenings_nil]
    exact .nil

theorem Phrase.Mirrored.someItems
    {i : Item}
    {x : i.Result}
    {xs : List i.Result}
    {scope : ScopeId}
    (hFirst : (Phrase.item i).Mirrored y scope x)
    (hMore : (Phrase.moreItems i).Mirrored y scope xs) :
    (Phrase.items i).Mirrored y scope (x :: xs) where
  introduced := by
    dsimp only [Phrase.introductions]
    rw [Item.allIntroductions_cons]
    exact List.forall_mem_append.2
      ⟨hFirst.introduced, hMore.introduced⟩
  mirrors hNone := by
    dsimp only [Phrase.openings]
    rw [Item.allOpenings_cons]
    exact (hFirst.mirrors hNone).append (hMore.mirrors hNone)

/- More items are items. -/
theorem Phrase.Mirrored.moreItems
    {i : Item}
    {xs : List i.Result}
    {scope : ScopeId}
    (hItems : (Phrase.items i).Mirrored y scope xs) :
    (Phrase.moreItems i).Mirrored y scope xs :=
  ⟨hItems.introduced, hItems.mirrors⟩

/- The symbols have what is read. -/
theorem Derives.mirrored
    {phrase : Phrase}
    {r : phrase.Result}
    (hDerives : Derives phrase s r t) :
    ∀ {scope},
      y.Covers scope s t → phrase.Mirrored y scope r := by
  -- Most phrases define nothing in their scope.
  have hNew : ∀ i ∈ [], y.Introduces i := nofun
  induction hDerives with
  | expression _ hFirst hMore ihFirst ihMore =>
      intro scope hCovers
      have hLeft := hFirst.leads hCovers.regular.next
      have hRight := hMore.leads hLeft.regular
      have hOwn := ihFirst (hCovers.next.first hRight)
      have hOthers := ihMore (hCovers.next.rest hLeft)
      exact ⟨hNew, fun hNone =>
        hOthers.mirrors (hOwn.mirrors hNone)⟩
  | stop _ => exact fun _ => ⟨hNew, id⟩
  | more _ _ hExtension hMore ihExtension ihMore =>
      intro scope hCovers
      have hFirst := hExtension.leads hCovers.regular.next
      have hRight := hMore.leads hFirst.regular
      have hOwn := ihExtension (hCovers.next.first hRight)
      have hOthers := ihMore (hCovers.next.rest hFirst)
      exact ⟨hNew, fun hLeft =>
        hOthers.mirrors (hOwn.mirrors hLeft)⟩
  | @int token form s hForm =>
      intro scope _
      refine ⟨hNew, fun _ => ?_⟩
      have hNone :
          (Phrase.start .int token).openings
              (.new form token.span) =
            [] :=
        openings_intForm hForm
      rw [hNone]
      exact .nil
  | boolean => exact fun _ => ⟨hNew, id⟩
  | @string token s parts t hParts hClose ih =>
      intro scope hCovers
      refine ⟨hNew, fun hNone => ?_⟩
      have hOwn := (ih hCovers.of_next).mirrors hNone
      have hSame :
          (Phrase.start .string token).openings
              (.new (stringForm parts)
                (token.span.between t.token.span)) =
            exprsOpenings (parts.map (·.expression)) :=
        openings_stringForm parts
      rw [hSame]
      exact hOwn
  | reference _ => exact fun _ => ⟨hNew, id⟩
  | invocation _ _ _ ih =>
      exact fun hCovers =>
        ⟨hNew, (ih hCovers.next.of_next).mirrors⟩
  | unary _ ih =>
      exact fun hCovers => ⟨hNew, (ih hCovers).mirrors⟩
  | grouping _ _ ih =>
      exact fun hCovers =>
        ⟨hNew, (ih hCovers.of_next).mirrors⟩
  | startBlock _ ih =>
      exact fun hCovers => ⟨hNew, (ih hCovers).mirrors⟩
  | conditional _ hCondition _ hThen hElse ihCondition ihThen
      ihElse =>
      intro scope hCovers
      have hFirst :=
        (hCondition.leads hCovers.regular.next).andNext
      have hSecond := hThen.leads hFirst.regular
      have hThird := hElse.leads hSecond.regular
      have hBefore :=
        hCovers.next.first (hSecond.trans hThird)
      have hAfter := hCovers.next.rest hFirst
      refine ⟨hNew, fun hNone => ?_⟩
      exact ((ihCondition hBefore.of_next).mirrors
        hNone).append
        (((ihThen (hAfter.first hThird)).mirrors
          hNone).append
          ((ihElse (hAfter.rest hSecond)).mirrors hNone))
  | functionLiteral _ hSignature hBody ihSignature ihBody =>
      intro scope hCovers
      have hInside := hCovers.inside
      have hFirst := hSignature.leads hInside.regular
      have hSecond := hBody.leads hFirst.regular
      have hHolds := hCovers.holds (hFirst.andThen hSecond)
      dsimp only [Phrase.bindings] at hHolds
      rw [bindings_parameters,
        ← map_binding_parameters] at hHolds
      have hOwn := ihSignature (hInside.first hSecond)
      have hLast := ihBody (hInside.rest hFirst)
      refine ⟨hNew, fun _ => Mirrors.single ?_⟩
      exact .mk hHolds hOwn.introduced
        ((hOwn.mirrors .nil).append (hLast.mirrors .nil))
  | lambda hItems _ hBody ihItems ihBody =>
      intro scope hCovers
      have hInside := hCovers.inside
      have hFirst := hItems.leads hInside.regular
      have hSecond := hBody.leads hFirst.regular.next
      have hHolds :=
        hCovers.holds (hFirst.andNext.andThen hSecond)
      dsimp only [Phrase.bindings] at hHolds
      rw [bindings_lambdaParameters,
        ← map_binding_parameters] at hHolds
      have hOwn :=
        ihItems (hInside.first
          (.trans (.next hFirst.regular) hSecond))
      have hLast := ihBody (hInside.rest hFirst.andNext)
      refine ⟨hNew, fun _ => Mirrors.single ?_⟩
      exact .mk hHolds hOwn.introduced
        ((hOwn.mirrors .nil).append (hLast.mirrors .nil))
  | retValue _ ih =>
      exact fun hCovers => ⟨hNew, (ih hCovers).mirrors⟩
  | retNothing _ => exact fun _ => ⟨hNew, id⟩
  | binary _ _ ih =>
      exact fun hCovers => ⟨hNew, fun hLeft =>
        hLeft.append ((ih hCovers).mirrors .nil)⟩
  | assignment _ _ ih =>
      exact fun hCovers => ⟨hNew, fun hLeft =>
        hLeft.append ((ih hCovers).mirrors .nil)⟩
  | member _ _ _ ih =>
      exact fun hCovers => ⟨hNew, fun hLeft =>
        hLeft.append ((ih hCovers).mirrors .nil)⟩
  | call _ _ ih =>
      exact fun hCovers => ⟨hNew, fun hLeft =>
        hLeft.append ((ih hCovers.of_next).mirrors .nil)⟩
  | present _ _ ih =>
      exact fun hCovers => ⟨hNew, (ih hCovers.next).mirrors⟩
  | absent _ => exact fun _ => ⟨hNew, id⟩
  | named _ _ ih =>
      exact fun hCovers =>
        ⟨hNew, (ih hCovers.next.next).mirrors⟩
  | positional _ _ ih =>
      exact fun hCovers => ⟨hNew, (ih hCovers).mirrors⟩
  | parameter _ _ hType hFallback _ hDeclares ih =>
      intro scope hCovers
      have hTyped := hType.leads hCovers.next.next.regular
      have hOption := hFallback.leads hTyped.regular
      have hDeclared :=
        Leads.declares hOption.regular hDeclares rfl
      have hAfter := hCovers.next.next.rest hTyped
      exact ⟨introduces_of_declares hDeclares
          hCovers.completes,
        (ih (hAfter.first hDeclared)).mirrors⟩
  | lambdaParameter _ _ _ hDeclares =>
      exact fun hCovers =>
        ⟨introduces_of_declares hDeclares hCovers.completes,
          id⟩
  | entry _ _ => exact fun _ => ⟨hNew, id⟩
  | renamedEntry _ _ _ => exact fun _ => ⟨hNew, id⟩
  | @noItems i _ _ => exact fun _ => .noItems i
  | someItems _ hFirst hMore ihFirst ihMore =>
      intro scope hCovers
      have hItem := hFirst.leads hCovers.regular
      have hRest := hMore.leads hItem.regular
      exact .someItems (ihFirst (hCovers.first hRest))
        (ihMore (hCovers.rest hItem))
  | @lastItem i _ _ =>
      exact fun _ => .moreItems (.noItems i)
  | @trailingComma i _ _ _ =>
      exact fun _ => .moreItems (.noItems i)
  | nextItem _ _ hFirst hMore ihFirst ihMore =>
      intro scope hCovers
      have hItem := hFirst.leads hCovers.next.regular
      have hRest := hMore.leads hItem.regular
      exact .moreItems
        (.someItems (ihFirst (hCovers.next.first hRest))
          (ihMore (hCovers.next.rest hItem)))
  | signature _ hItems _ hType ih =>
      intro scope hCovers
      have hOwn := hItems.leads hCovers.next.regular
      have hRest := hType.leads hOwn.regular.next
      have hParameters :=
        ih (hCovers.next.first
          ((Leads.next hOwn.regular).trans hRest))
      exact ⟨hParameters.introduced, hParameters.mirrors⟩
  | bodyValue _ _ ih =>
      exact fun hCovers => ⟨hNew, (ih hCovers.next).mirrors⟩
  | bodyBlock _ _ ih =>
      exact fun hCovers => ⟨hNew, (ih hCovers.next).mirrors⟩
  | namedValue _ _ _ ih =>
      exact fun hCovers =>
        ⟨hNew, (ih hCovers.next.of_next).mirrors⟩
  | namedBlock _ _ ih =>
      exact fun hCovers => ⟨hNew, (ih hCovers.next).mirrors⟩
  | namedNone _ => exact fun _ => ⟨hNew, id⟩
  | namedNothing _ => exact fun _ => ⟨hNew, id⟩
  | noParts _ => exact fun _ => ⟨hNew, id⟩
  | textPart _ _ ih =>
      exact fun hCovers => ⟨hNew, (ih hCovers.next).mirrors⟩
  | escapePart _ _ _ ih =>
      exact fun hCovers => ⟨hNew, (ih hCovers.next).mirrors⟩
  | embeddedPart _ hExpr _ hMore ihExpr ihMore =>
      intro scope hCovers
      have hFirst := hExpr.leads hCovers.next.regular
      have hRest := hMore.leads hFirst.regular.next
      have hLast := (Leads.next hFirst.regular).trans hRest
      have hOwn := ihExpr (hCovers.next.first hLast)
      have hOthers :=
        ihMore (hCovers.next.rest hFirst.andNext)
      exact ⟨hNew, fun hNone =>
        (hOwn.mirrors hNone).append (hOthers.mirrors hNone)⟩
  | block hStatements _ ih =>
      intro scope hCovers
      have hInside := hCovers.inside
      have hOwn := hStatements.leads hInside.regular
      have hHolds := hCovers.holds hOwn.andNext
      dsimp only [Phrase.bindings] at hHolds
      rw [← map_binding_statements] at hHolds
      have hAll := ih hInside.of_next
      refine ⟨hNew, fun _ => Mirrors.single ?_⟩
      exact .mk hHolds hAll.introduced (hAll.mirrors .nil)
  | noStatements _ => exact fun _ => ⟨hNew, id⟩
  | someStatements _ _ hFirst hMore ihFirst ihMore =>
      intro scope hCovers
      have hStatement := hFirst.leads hCovers.regular
      have hRest := hMore.leads hStatement.regular
      have hOwn := ihFirst (hCovers.first hRest)
      have hOthers := ihMore (hCovers.rest hStatement)
      exact ⟨List.forall_mem_append.2
          ⟨hOwn.introduced, hOthers.introduced⟩,
        fun hNone =>
          (hOwn.mirrors hNone).append (hOthers.mirrors hNone)⟩
  | variableStatement _ _ ih =>
      exact fun hCovers =>
        ⟨(ih hCovers).introduced, (ih hCovers).mirrors⟩
  | functionStatement _ _ ih =>
      exact fun hCovers =>
        ⟨(ih hCovers).introduced, (ih hCovers).mirrors⟩
  | endedStatement _ _ _ _ _ ih =>
      exact fun hCovers =>
        ⟨hNew, (ih hCovers.of_next).mirrors⟩
  | openStatement _ _ _ _ _ _ ih =>
      exact fun hCovers => ⟨hNew, (ih hCovers).mirrors⟩
  | variableDecl _ _ hType hInitializer _ _ hDeclares ih =>
      intro scope hCovers
      have hTyped := hType.leads hCovers.next.next.regular
      have hValue := hInitializer.leads hTyped.regular
      have hDeclared :=
        Leads.declares hValue.regular.next hDeclares rfl
      have hAfter := hCovers.next.next.rest hTyped
      exact ⟨introduces_of_declares hDeclares
          hCovers.completes,
        (ih (hAfter.first
          ((Leads.next hValue.regular).trans
            hDeclared))).mirrors⟩
  | functionDecl _ _ hSignature hBody _ hDeclares ihSignature
      ihBody =>
      intro scope hCovers
      have hBehind := hCovers.next.next
      have hFirst :=
        hSignature.leads hBehind.regular.opened
      have hSecond := hBody.leads hFirst.regular
      have hBoth := hFirst.andThen hSecond
      have hScoped := Leads.scoped hBehind.regular hBoth
      have hDeclared :=
        Leads.declares hScoped.regular hDeclares rfl
      have hAround := hBehind.first hDeclared
      have hInside := hAround.inside
      have hHolds := hAround.holds hBoth
      dsimp only [Phrase.bindings] at hHolds
      rw [bindings_parameters,
        ← map_binding_parameters] at hHolds
      have hOwn := ihSignature (hInside.first hSecond)
      have hLast := ihBody (hInside.rest hFirst)
      refine ⟨introduces_of_declares hDeclares
          hCovers.completes,
        fun _ => Mirrors.single ?_⟩
      exact .mk hHolds hOwn.introduced
        ((hOwn.mirrors .nil).append (hLast.mirrors .nil))

theorem DerivesDeclaration.mirrored
    {scope : ScopeId}
    {d : Declaration}
    (hDerives : DerivesDeclaration s d t)
    (hCovers : y.Covers scope s t) :
    y.Introduces d.introduction ∧
      y.MirrorsAll scope d.openings := by
  cases hDerives with
  | function hFunction =>
      have hOwn := hFunction.mirrored hCovers
      exact ⟨hOwn.introduced _ (List.mem_singleton_self _),
        hOwn.mirrors .nil⟩
  | property _ hVariable =>
      have hOwn := hVariable.mirrored hCovers
      exact ⟨hOwn.introduced _ (List.mem_singleton_self _),
        hOwn.mirrors .nil⟩

theorem DerivesDeclarations.mirrored
    {scope : ScopeId}
    {ds : List Declaration}
    (hDerives : DerivesDeclarations s ds t) :
    y.Covers scope s t →
      (∀ i ∈ ds.map Declaration.introduction,
          y.Introduces i) ∧
        y.MirrorsAll scope
          (ds.flatMap Declaration.openings) := by
  induction hDerives with
  | stop _ => exact fun _ => ⟨nofun, .nil⟩
  | more hFirst hMore ih =>
      intro hCovers
      have hDeclaration := hFirst.leads hCovers.regular
      have hRest := hMore.leads hDeclaration.regular
      have hOwn := hFirst.mirrored (hCovers.first hRest)
      have hOthers := ih (hCovers.rest hDeclaration)
      exact ⟨List.forall_mem_cons.2 ⟨hOwn.1, hOthers.1⟩,
        hOwn.2.append hOthers.2⟩

end Phrases

theorem map_binding_declarations (ds : List Declaration) :
    (ds.map Declaration.introduction).map
        Introduction.binding =
      ds.flatMap Declaration.bindings := by
  rw [List.map_map, List.map_eq_flatMap]
  refine congrArg (fun f => ds.flatMap f) (funext fun d => ?_)
  cases d with
  | _ => rfl

/- The symbols of a program mirror its outermost node. -/
theorem DerivesProgram.mirrors
    {source file : String}
    {p : Program}
    (hDerives : DerivesProgram (.initial source file) p) :
    p.symbols.Mirrors none p.opening := by
  have hRegular := regular_initial source file
  cases hDerives with
  | @intro imports t ds u hImports hDeclarations =>
      have hFirst := hImports.leads hRegular.opened
      have hSecond := hDeclarations.leads hFirst.regular
      have hBoth := hFirst.trans hSecond
      rw [List.nil_append] at hBoth
      have hCompletes : u.symbols.Completes u :=
        ⟨⟨[], (List.append_nil _).symm⟩, fun _ _ _ => rfl⟩
      have hHead :
          t.scopes.head? =
            some (ParserState.initial source file).newScope := by
        rw [hFirst.scopes_eq]
        rfl
      have hHolds :=
        Completes.holds hRegular hBoth
          ⟨hCompletes.definitions, fun _ _ _ => rfl⟩
      rw [← map_binding_declarations] at hHolds
      have hAll :=
        hDeclarations.mirrored
          ⟨hFirst.regular, hHead, hCompletes⟩
      exact .mk hHolds hAll.1 hAll.2

------------------------------------------------------------
-- Openings at any depth
------------------------------------------------------------

section Openings

variable {y : Symbols}
variable {parent : Option ScopeId}
variable {o : Opening}

theorem Symbols.Mirrors.holds (hMirrors : y.Mirrors parent o) :
    y.Holds o.scope parent
      (o.introductions.map Introduction.binding) := by
  cases hMirrors with
  | mk hHolds _ _ => exact hHolds

theorem Symbols.Mirrors.introduces
    (hMirrors : y.Mirrors parent o) :
    ∀ i ∈ o.introductions, y.Introduces i := by
  cases hMirrors with
  | mk _ hIntroduced _ => exact hIntroduced

theorem Symbols.Mirrors.within
    (hMirrors : y.Mirrors parent o) :
    y.MirrorsAll o.scope o.inner := by
  cases hMirrors with
  | mk _ _ hInner => exact hInner

/- Openings at any depth lie in some scope, or in none. -/
theorem Symbols.Mirrors.exists_outer
    (hMirrors : y.Mirrors parent o) :
    ∀ c ∈ o.all, ∃ outer, y.Mirrors outer c := by
  induction hMirrors with
  | mk hHolds hIntroduced hInner ih =>
      intro c hMember
      rw [Opening.all, List.mem_cons,
        allOpenings_eq] at hMember
      rcases hMember with rfl | hWithin
      · exact ⟨_, .mk hHolds hIntroduced hInner⟩
      · rcases List.mem_flatMap.1 hWithin with
          ⟨b, hDirect, hDeep⟩
        exact ih b hDirect c hDeep

theorem Symbols.Holds.parent?_eq
    {scope : ScopeId}
    {bindings : List Binding}
    (hHolds : y.Holds scope parent bindings) :
    y.parent? scope = parent := by
  unfold Symbols.parent?
  rw [hHolds.scope_eq]
  rfl

/- A scope binds a name to what was declared by that name. -/
theorem Symbols.Holds.local?_eq_some_iff
    {scope : ScopeId}
    {bindings : List Binding}
    (hHolds : y.Holds scope parent bindings)
    {name : String}
    {id : DefinitionId} :
    y.local? scope name = some id ↔ (name, id) ∈ bindings := by
  have hLocal :
      y.local? scope name = bindings.reverse.lookup name := by
    unfold Symbols.local?
    rw [hHolds.scope_eq]
    rfl
  rw [hLocal, List.lookup_eq_some_iff]
  constructor
  · rintro ⟨front, back, hSplit, -⟩
    rw [← List.mem_reverse, hSplit]
    exact List.mem_append_right _ List.mem_cons_self
  · intro hMember
    rcases List.append_of_mem (List.mem_reverse.2 hMember) with
      ⟨front, back, hSplit⟩
    refine ⟨front, back, hSplit, fun x hFront => ?_⟩
    have hNodup :=
      List.nodup_reverse.2 hHolds.nodup
    rw [← List.map_reverse, hSplit, List.map_append,
      List.nodup_append] at hNodup
    have hNe :=
      hNodup.2.2 x.1 (List.mem_map_of_mem hFront) name
        List.mem_cons_self
    exact bne_iff_ne.2 hNe.symm

/- A scope binds the definitions introduced in it. -/
theorem Symbols.Mirrors.local?_eq_some_iff
    (hMirrors : y.Mirrors parent o)
    {name : String}
    {id : DefinitionId} :
    y.local? o.scope name = some id ↔
      ∃ i ∈ o.introductions, i.name = name ∧ i.id = id := by
  rw [hMirrors.holds.local?_eq_some_iff, List.mem_map]
  refine exists_congr fun i => and_congr_right fun _ => ?_
  exact Prod.mk_inj

theorem Symbols.lt_size_of_local?_eq
    {scope : ScopeId}
    {name : String}
    {id : DefinitionId}
    (hBound : y.local? scope name = some id) :
    scope < y.scopes.size := by
  by_contra hLarge
  unfold Symbols.local? at hBound
  rw [Array.getElem?_eq_none (Nat.le_of_not_lt hLarge)]
    at hBound
  cases hBound

/- One definition has one name. -/
theorem Symbols.Introduces.name_eq
    {i j : Introduction}
    (hFirst : y.Introduces i)
    (hSecond : y.Introduces j)
    (hSame : i.id = j.id) :
    i.name = j.name := by
  rcases hFirst with ⟨_, hFirst⟩
  rcases hSecond with ⟨_, hSecond⟩
  rw [hSame, hSecond] at hFirst
  exact (congrArg Definition.name
    (Option.some.inj hFirst)).symm

end Openings

------------------------------------------------------------
-- Main result
------------------------------------------------------------

/-
  The symbols of the program mirror its tree.

  The scopes are those of the nodes that open scopes, each
  once; the outermost one lies in none, and each other one
  in the scope of the nearest such node around, which has a
  smaller number.  The definitions are those of the functions,
  parameters and variables, each once and as they are in the
  tree.  Each scope binds what is declared in it and nothing
  else, and each definition is bound in that scope only.
-/
structure Program.IsMirrored (p : Program) : Prop where
  scopes :
    (p.openings.map Opening.scope).Perm
      (List.range p.symbols.scopes.size)
  outermost : p.symbols.parent? p.opening.scope = none
  parents :
    ∀ o ∈ p.openings,
      ∀ c ∈ o.inner,
        p.symbols.parent? c.scope = some o.scope ∧
          o.scope < c.scope
  definitions :
    (p.introductions.map (·.id)).Perm
      (List.range p.symbols.definitions.size)
  introduced : ∀ i ∈ p.introductions, p.symbols.Introduces i
  bindings :
    ∀ o ∈ p.openings,
      ∃ s,
        p.symbols.scopes[o.scope]? = some s ∧
          s.bindings.Perm
            (o.introductions.map Introduction.binding)
  bound :
    ∀ o ∈ p.openings,
      ∀ i ∈ o.introductions,
        ∀ scope name,
          p.symbols.local? scope name = some i.id ↔
            scope = o.scope ∧ name = i.name

/- What two openings both introduce makes them the same. -/
theorem Program.opening_eq_of_id_eq
    {p : Program}
    (hNodup : (p.introductions.map (·.id)).Nodup)
    {o c : Opening}
    (hFirst : o ∈ p.openings)
    (hSecond : c ∈ p.openings)
    {i j : Introduction}
    (hIn : i ∈ o.introductions)
    (hOther : j ∈ c.introductions)
    (hSame : i.id = j.id) :
    o = c := by
  unfold Program.introductions at hNodup
  rw [List.map_flatMap, List.nodup_flatMap] at hNodup
  by_contra hNe
  have hSymm :
      Std.Symm
        (Function.onFun List.Disjoint fun o : Opening =>
          o.introductions.map (·.id)) :=
    ⟨fun _ _ => List.Disjoint.symm⟩
  have hApart := hNodup.2.forall hFirst hSecond hNe
  refine hApart (List.mem_map_of_mem hIn) ?_
  rw [hSame]
  exact List.mem_map_of_mem hOther

/- The symbols of an accepted program mirror its tree. -/
theorem isMirrored_of_parseProgram
    {source file : String}
    {p : Program}
    (hAccepted : parseProgram source file = .ok p) :
    p.IsMirrored := by
  have hDerives := derivesProgram_of_parseProgram hAccepted
  have hScopes := hDerives.scopes_perm
  have hDefinitions := hDerives.introductions_perm
  have hNodup : (p.introductions.map (·.id)).Nodup :=
    hDefinitions.nodup_iff.2 List.nodup_range
  have hRoot := hDerives.mirrors
  have hAll := hRoot.exists_outer
  have hIntroduced :
      ∀ i ∈ p.introductions, p.symbols.Introduces i := by
    intro i hMember
    rcases List.mem_flatMap.1 hMember with ⟨o, hOpening, hIn⟩
    rcases hAll o hOpening with ⟨outer, hMirrors⟩
    exact hMirrors.introduces i hIn
  refine ⟨hScopes, hRoot.holds.parent?_eq, ?_, hDefinitions,
    hIntroduced, ?_, ?_⟩
  · intro o hOpening c hInner
    rcases hAll o hOpening with ⟨outer, hMirrors⟩
    have hOwn := (hMirrors.within c hInner).holds
    exact ⟨hOwn.parent?_eq, hOwn.parent_lt o.scope rfl⟩
  · intro o hOpening
    rcases hAll o hOpening with ⟨outer, hMirrors⟩
    exact ⟨_, hMirrors.holds.scope_eq, List.reverse_perm _⟩
  · intro o hOpening i hIn scope name
    rcases hAll o hOpening with ⟨outer, hMirrors⟩
    constructor
    · intro hBound
      have hLess := Symbols.lt_size_of_local?_eq hBound
      rcases List.mem_map.1
          (hScopes.mem_iff.2 (List.mem_range.2 hLess)) with
        ⟨c, hOther, rfl⟩
      rcases hAll c hOther with ⟨around, hThere⟩
      rcases hThere.local?_eq_some_iff.1 hBound with
        ⟨j, hDeclared, rfl, hId⟩
      have hSame :=
        Program.opening_eq_of_id_eq hNodup hOther hOpening
          hDeclared hIn hId
      have hName :=
        (hThere.introduces j hDeclared).name_eq
          (hMirrors.introduces i hIn) hId
      exact ⟨congrArg Opening.scope hSame, hName⟩
    · rintro ⟨rfl, rfl⟩
      exact hMirrors.local?_eq_some_iff.2 ⟨i, hIn, rfl, rfl⟩

/- A default, a body, and a lambda in it open scopes. -/
theorem isMirrored_of_parseProgram_nested :
    ∃ p,
      parseProgram
          "fun f(x: int = { 1 }) { var y = |z| z; }"
          "main" = .ok p ∧
        p.openings.map Opening.scope = [0, 1, 2, 3, 4] ∧
          p.introductions.map (·.id) = [3, 0, 2, 1] ∧
            p.IsMirrored := by
  have hNumbers :
      ∃ p,
        parseProgram
            "fun f(x: int = { 1 }) { var y = |z| z; }"
            "main" = .ok p ∧
          p.openings.map Opening.scope = [0, 1, 2, 3, 4] ∧
            p.introductions.map (·.id) = [3, 0, 2, 1] := by
    refine ⟨?p, ?_, ?_⟩
    rotate_left
    · conv => lhs; cbv
    · exact ⟨rfl, rfl⟩
  rcases hNumbers with ⟨p, hParse, hScopes, hIds⟩
  exact ⟨p, hParse, hScopes, hIds,
    isMirrored_of_parseProgram hParse⟩

end SourceCheck
