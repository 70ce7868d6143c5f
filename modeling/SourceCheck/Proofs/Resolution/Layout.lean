import SourceCheck.Proofs.Resolution.Matching

/-
  Layout does not matter for the resolver.

  Aligned programs are resolved alike: the results are again
  aligned, with the same types and the same targets, and the
  same problems are reported.  Places are compared in the
  lookup of names only, and there in the order of tokens.

  Key theorems include:
    * `Alignment.SameSymbols.findVisible?_eq`
    * `Alignment.matches_resolveExpr`
    * `Alignment.resolveProgram_rel`
-/

namespace SourceCheck

namespace Alignment

open SourceCheck.Resolver

variable {A : Alignment}

------------------------------------------------------------
-- Symbols
------------------------------------------------------------

/- Definitions are visible alike at corresponding starts. -/
theorem SameSymbols.isVisible_eq
    {y z : Symbols}
    {a b : Nat}
    (hMonotone : A.IsMonotone)
    (hSame : A.SameSymbols y z)
    (hStart : A.starts a b)
    (id : DefinitionId) :
    y.isVisible a id = z.isVisible b id := by
  have hBoth := hSame.getElem?_rel id
  unfold Symbols.isVisible
  generalize y.definitions[id]? = d at hBoth
  generalize z.definitions[id]? = e at hBoth
  cases hBoth with
  | none => rfl
  | some hDefinitions =>
      dsimp only
      rw [decide_eq_decide]
      rcases hDefinitions.visibleFrom with hFrom | hFrom
      · exact hMonotone.starts_le hFrom hStart
      · exact hMonotone.stops_le hFrom hStart

theorem SameSymbols.chainOf_eq
    {y z : Symbols}
    (hSame : A.SameSymbols y z)
    (steps : Nat)
    (scope : Option ScopeId) :
    y.chainOf steps scope = z.chainOf steps scope := by
  induction steps generalizing scope with
  | zero => rfl
  | succ steps ih =>
      cases scope with
      | none => rfl
      | some scope =>
          unfold Symbols.chainOf Symbols.parent?
          rw [ih, hSame.scopes]

/- Names are bound alike at corresponding starts. -/
theorem SameSymbols.findVisible?_eq
    {y z : Symbols}
    {a b : Nat}
    (hMonotone : A.IsMonotone)
    (hSame : A.SameSymbols y z)
    (hStart : A.starts a b)
    (scope : ScopeId)
    (name : String) :
    y.findVisible? scope name a =
      z.findVisible? scope name b := by
  have hVisible : y.isVisible a = z.isVisible b :=
    funext (hSame.isVisible_eq hMonotone hStart)
  unfold Symbols.findVisible? Symbols.chain Symbols.local?
  rw [hSame.chainOf_eq, hVisible, hSame.scopes]

theorem SameSymbols.type?_eq
    {y z : Symbols}
    (hSame : A.SameSymbols y z)
    (id : DefinitionId) :
    y.type? id = z.type? id := by
  have hBoth := hSame.getElem?_rel id
  unfold Symbols.type?
  generalize y.definitions[id]? = d at hBoth
  generalize z.definitions[id]? = e at hBoth
  cases hBoth with
  | none => rfl
  | some hDefinitions => exact hDefinitions.type

theorem forall₂_modify
    {α β : Type}
    {R : α → β → Prop}
    {as : List α}
    {bs : List β}
    {f : α → α}
    {g : β → β}
    (hLists : List.Forall₂ R as bs)
    (hEach : ∀ a b, R a b → R (f a) (g b))
    (i : Nat) :
    List.Forall₂ R (as.modify i f) (bs.modify i g) := by
  induction hLists generalizing i with
  | nil => simp
  | cons hFirst hRest ih =>
      cases i with
      | zero => exact .cons (hEach _ _ hFirst) hRest
      | succ i => exact .cons hFirst (ih i)

theorem SameSymbols.fillType
    {y z : Symbols}
    (hSame : A.SameSymbols y z)
    (id : DefinitionId)
    (type : Ty) :
    A.SameSymbols
      (y.fillType id type) (z.fillType id type) where
  scopes := hSame.scopes
  definitions := by
    unfold Symbols.fillType
    rw [Array.toList_modify, Array.toList_modify]
    refine forall₂_modify hSame.definitions ?_ id
    intro d e hBoth
    refine ⟨hBoth.name, hBoth.kind, hBoth.isMutable, ?_,
      hBoth.visibleFrom⟩
    exact congrArg (·.or (some type)) hBoth.type

------------------------------------------------------------
-- Definitions
------------------------------------------------------------

theorem matches_definitionType
    (id : DefinitionId)
    (p q : Position) :
    A.Matches Eq (definitionType id p)
      (definitionType id q) := by
  intro z w hStates
  rw [outcome_definitionType_eq, outcome_definitionType_eq,
    hStates.symbols.type?_eq]
  cases w.symbols.type? id with
  | some type => exact matches_pure rfl z w hStates
  | none =>
      have hName :
          (z.symbols.definitions[id]?.getD default).name =
            (w.symbols.definitions[id]?.getD
              default).name := by
        have hBoth := hStates.symbols.getElem?_rel id
        generalize z.symbols.definitions[id]? = d at hBoth
        generalize w.symbols.definitions[id]? = e at hBoth
        cases hBoth with
        | none => rfl
        | some hDefinitions => exact hDefinitions.name
      dsimp only
      rw [hName]
      exact matches_errorType _ p q z w hStates

theorem matches_fillType
    (id : DefinitionId)
    (type : Ty) :
    A.Matches (fun _ _ => True)
      (fillType id type) (fillType id type) := by
  intro z w hStates
  exact ⟨trivial, hStates.symbols.fillType id type,
    hStates.types, hStates.members, hStates.problems⟩

theorem matches_isResolved (id : DefinitionId) :
    A.Matches Eq (isResolved id) (isResolved id) := by
  intro z w hStates
  refine ⟨?_, hStates⟩
  have hSame := hStates.symbols.type?_eq id
  exact congrArg Option.isSome hSame

/- The types of two parameters. -/
theorem matches_parameterType
    {a b : Parameter}
    (hParameters : A.Parameters a b) :
    A.Matches A.TypeResults
      (parameterType a) (parameterType b) := by
  cases hParameters with
  | intro hType _ _ =>
      unfold parameterType
      refine (helps_resolveDeclared hType).alike.bind
        fun r r' hSame => ?_
      rcases r with ⟨typeExpr, declared⟩
      rcases r' with ⟨typeExpr', declared'⟩
      rcases hSame with ⟨hTypes, hDeclared⟩
      dsimp only at hTypes hDeclared ⊢
      subst hDeclared
      cases declared with
      | some type =>
          exact (matches_fillType _ type).bind
            fun _ _ _ => matches_pure ⟨hTypes, rfl⟩
      | none =>
          refine (matches_errorType _ _ _).bind
            fun type _ hSame => ?_
          subst hSame
          exact (matches_fillType _ type).bind
            fun _ _ _ => matches_pure ⟨hTypes, rfl⟩

theorem matches_checkDefault
    (definition : DefinitionId)
    (received : Ty)
    (p q p' q' : Position) :
    A.Matches (fun _ _ => True)
      (checkDefault definition received p p')
      (checkDefault definition received q q') := by
  refine (matches_definitionType definition p q).bind
    fun expected _ hSame => ?_
  subst hSame
  exact (helps_checkAssignable expected received p' q').alike

------------------------------------------------------------
-- Names
------------------------------------------------------------

theorem matches_visible?
    {p q : Position}
    (hMonotone : A.IsMonotone)
    (hStart : A.starts p.offset q.offset)
    (scope : ScopeId)
    (name : String) :
    A.Matches Eq
      (visible? scope name p) (visible? scope name q) :=
  fun _ _ hStates =>
    ⟨hStates.symbols.findVisible?_eq hMonotone hStart scope
      name, hStates⟩

theorem matches_typed
    (target : Target)
    {a b : Resolver Ty}
    (hType : A.Matches Eq a b) :
    A.Matches Eq (typed target a) (typed target b) := by
  refine hType.bind fun s t hSame => matches_pure ?_
  rw [hSame]

theorem matches_scopelessType (p q : Position) :
    A.Matches Eq (scopelessType p) (scopelessType q) :=
  (matches_report _ p q).bind fun _ _ _ => matches_pure rfl

theorem matches_reference
    {p q : Position}
    (hMonotone : A.IsMonotone)
    (hStart : A.starts p.offset q.offset)
    (around : Surroundings)
    (name : String)
    (target : Target) :
    A.Matches Eq
      (reference around name target p)
      (reference around name target q) := by
  unfold reference
  split
  · exact matches_typed target (matches_scopelessType p q)
  · rename_i scope _
    refine (matches_visible? hMonotone hStart scope
      name).bind fun found _ hSame => ?_
    subst hSame
    cases found with
    | some id =>
        exact matches_typed _ (matches_definitionType id p q)
    | none =>
        intro z w hStates
        dsimp only
        rw [outcome_bind, outcome_bind, outcome_get,
          outcome_get]
        dsimp only
        rw [hStates.types]
        cases w.types.find? name with
        | some type => exact matches_pure rfl z w hStates
        | none =>
            exact (helps_importedProperty name target p
              q).alike z w hStates

theorem matches_invocation
    {p q : Position}
    (hMonotone : A.IsMonotone)
    (hStart : A.starts p.offset q.offset)
    (around : Surroundings)
    (name : String)
    (arguments : List Ty)
    (target : Target) :
    A.Matches Eq
      (invocation around name arguments target p)
      (invocation around name arguments target q) := by
  unfold invocation
  split
  · exact matches_typed target (matches_scopelessType p q)
  · rename_i scope _
    refine (matches_visible? hMonotone hStart scope
      name).bind fun found _ hSame => ?_
    subst hSame
    cases found with
    | some id =>
        refine (matches_definitionType id p q).bind
          fun callee _ hSame => ?_
        subst hSame
        exact matches_typed _
          (helps_callType name callee arguments p q).alike
    | none =>
        intro z w hStates
        dsimp only
        rw [outcome_bind, outcome_bind, outcome_get,
          outcome_get]
        dsimp only
        rw [hStates.members]
        cases w.members.functions name arguments with
        | cons f _ => exact matches_pure rfl z w hStates
        | nil =>
            exact matches_typed target
              (helps_noFunction name arguments p q).alike z w
              hStates

------------------------------------------------------------
-- Parameters
------------------------------------------------------------

/- Aligned types are put into aligned parameters. -/
theorem forall₂_withTypes
    {ps qs : List Parameter}
    {types types' : List TypeExpr}
    (hParameters : List.Forall₂ A.Parameters ps qs)
    (hTypes : List.Forall₂ A.TypeExprs types types') :
    List.Forall₂ A.Parameters
      (withTypes ps types) (withTypes qs types') := by
  induction hParameters generalizing types types' with
  | nil => exact .nil
  | cons hFirst _ ih =>
      cases hTypes with
      | nil => exact .nil
      | cons hType hTypes =>
          refine .cons ?_ (ih hTypes)
          cases hFirst with
          | intro _ hFallback hSpan =>
              exact .intro hType hFallback hSpan

/- What the walks over parameters give. -/
theorem parameterTypes_rel
    {xs ys : List (TypeExpr × Ty)}
    (hTypes : List.Forall₂ A.TypeResults xs ys) :
    List.Forall₂ A.TypeExprs
        (xs.map (·.1)) (ys.map (·.1)) ∧
      xs.map (·.2) = ys.map (·.2) := by
  induction hTypes with
  | nil => exact ⟨.nil, rfl⟩
  | cons hFirst _ ih =>
      refine ⟨.cons hFirst.1 ih.1, ?_⟩
      rw [List.map_cons, List.map_cons, hFirst.2, ih.2]

------------------------------------------------------------
-- Trees
------------------------------------------------------------

/- A walk gives aligned trees of one type. -/
def WalkResults
    {α β γ : Type}
    (R : α → β → Prop)
    (x : α × γ)
    (y : β × γ) :
    Prop :=
  R x.1 y.1 ∧ x.2 = y.2

/- What is neither a name nor a call is no member. -/
theorem matches_noMember
    {e f : Expr}
    (hOther : e.isReferenceOrInvocation = false)
    (around : Surroundings)
    (left : Ty)
    (p q : Position)
    (hExprs : A.Exprs e f) :
    A.Matches (WalkResults A.Exprs)
      (resolveMember around left p e)
      (resolveMember around left q f) := by
  have hWrong
      {g h : ExprForm}
      {s t : Span}
      (hForm : A.Forms g h)
      (hSpan : A.Spans s t) :
      A.Matches (WalkResults A.Exprs)
        (errorType .expectedInvocationOrReference s.start >>=
          fun type => pure (⟨g, s, some type⟩, type))
        (errorType .expectedInvocationOrReference t.start >>=
          fun type => pure (⟨h, t, some type⟩, type)) := by
    refine (matches_errorType _ _ _).bind
      fun type _ hSame => ?_
    subst hSame
    exact matches_pure ⟨.intro hForm hSpan, rfl⟩
  cases hExprs with
  | intro hForm hSpan =>
      have hSame := hForm
      cases hForm with
      | reference => cases hOther
      | invocation _ => cases hOther
      | _ =>
          unfold resolveMember
          exact hWrong hSame hSpan

/- Of initial values only the types are compared. -/
theorem initialTypes_eq
    {o o' : Option Expr}
    (received : Option Ty)
    (hOption : Option.Rel A.Exprs o o') :
    (received.bind fun t =>
        o.map fun e => (t, e.span.start)).map Prod.fst =
      (received.bind fun t =>
        o'.map fun e => (t, e.span.start)).map Prod.fst := by
  cases received with
  | none => rfl
  | some type =>
      cases hOption with
      | none => rfl
      | some _ => rfl

mutual

theorem matches_resolveForm
    (hMonotone : A.IsMonotone)
    (around : Surroundings)
    {p q : Position}
    (hStart : A.starts p.offset q.offset) :
    ∀ {f g : ExprForm},
      A.Forms f g →
        A.Matches (WalkResults A.Forms)
          (resolveForm around p f) (resolveForm around q g)
  | .int _, _, .int => matches_pure ⟨.int, rfl⟩
  | .long _, _, .long => matches_pure ⟨.long, rfl⟩
  | .boolean _, _, .boolean => matches_pure ⟨.boolean, rfl⟩
  | .string _, _, .string => matches_pure ⟨.string, rfl⟩
  | .template parts, _, .template hParts => by
      unfold resolveForm
      refine (matches_resolveExprs hMonotone around
        hParts).bind fun _ _ hResults => ?_
      exact matches_pure ⟨.template hResults, rfl⟩
  | .reference name target, _, .reference => by
      unfold resolveForm
      refine (matches_reference hMonotone hStart around name
        target).bind fun r _ hSame => ?_
      subst hSame
      exact matches_pure ⟨.reference, rfl⟩
  | .invocation name arguments target, _,
      .invocation hArguments => by
      unfold resolveForm
      refine (matches_resolveArguments hMonotone around
        hArguments).bind fun r r' hResults => ?_
      rcases r with ⟨xs, types⟩
      rcases r' with ⟨ys, types'⟩
      rcases hResults with ⟨hLists, hTypes⟩
      dsimp only at hLists hTypes ⊢
      subst hTypes
      refine (matches_invocation hMonotone hStart around name
        types target).bind fun r _ hSame => ?_
      subst hSame
      exact matches_pure ⟨.invocation hLists, rfl⟩
  | .call callee arguments, _, .call hCallee hArguments => by
      unfold resolveForm
      refine (matches_resolveExpr hMonotone around
        hCallee).bind fun r r' hFirst => ?_
      refine (matches_resolveArguments hMonotone around
        hArguments).bind fun u u' hSecond => ?_
      dsimp only
      rw [hFirst.2, hSecond.2]
      refine (helps_callType "" _ _ p q).alike.bind
        fun _ _ hSame => ?_
      exact matches_pure
        ⟨.call hFirst.1 hSecond.1, hSame⟩
  | .access left safe right, _, .access hLeft hRight => by
      unfold resolveForm
      refine (matches_resolveExpr hMonotone around
        hLeft).bind fun r r' hFirst => ?_
      dsimp only
      rw [hFirst.2]
      refine (matches_resolveMember hMonotone around _ p q
        hRight).bind fun u u' hSecond => ?_
      exact matches_pure
        ⟨.access hFirst.1 hSecond.1, hSecond.2⟩
  | .binary left operator right, _,
      .binary hLeft hRight => by
      unfold resolveForm
      refine (matches_resolveExpr hMonotone around
        hLeft).bind fun r r' hFirst => ?_
      refine (matches_resolveExpr hMonotone around
        hRight).bind fun u u' hSecond => ?_
      dsimp only
      rw [hFirst.2, hSecond.2]
      refine (helps_binaryType operator _ _ p q).alike.bind
        fun _ _ hSame => ?_
      exact matches_pure
        ⟨.binary hFirst.1 hSecond.1, hSame⟩
  | .unary operator operand, _, .unary hOperand => by
      unfold resolveForm
      refine (matches_resolveExpr hMonotone around
        hOperand).bind fun r r' hFirst => ?_
      dsimp only
      rw [hFirst.2]
      refine (helps_unaryType operator _ p q).alike.bind
        fun _ _ hSame => ?_
      exact matches_pure ⟨.unary hFirst.1, hSame⟩
  | .assignment target operator value, _,
      .assignment hTarget hValue => by
      unfold resolveForm
      refine (matches_resolveExpr hMonotone around
        hTarget).bind fun r r' hFirst => ?_
      refine (matches_resolveExpr hMonotone around
        hValue).bind fun u u' hSecond => ?_
      dsimp only
      rw [hFirst.2, hSecond.2]
      refine (helps_checkAssignment
        (helps_checkTarget hFirst.1) _ operator _ _
        _).alike.bind fun _ _ _ => ?_
      exact matches_pure
        ⟨.assignment hFirst.1 hSecond.1, rfl⟩
  | .parenthesized inner, _, .parenthesized hInner => by
      unfold resolveForm
      refine (matches_resolveExpr hMonotone around
        hInner).bind fun r r' hFirst => ?_
      exact matches_pure
        ⟨.parenthesized hFirst.1, hFirst.2⟩
  | .block statements scope, _, .block hStatements => by
      unfold resolveForm
      refine (matches_resolveStatements hMonotone
        (around.within scope) .unit hStatements).bind
          fun r r' hResults => ?_
      exact matches_pure ⟨.block hResults.1, hResults.2⟩
  | .conditional condition thenBranch elseBranch, _,
      .conditional hCondition hThen hElse => by
      unfold resolveForm
      refine (matches_resolveExpr hMonotone around
        hCondition).bind fun r r' hFirst => ?_
      dsimp only
      rw [hFirst.2]
      refine (helps_checkAssignable .boolean _ _ _).alike.bind
        fun _ _ _ => ?_
      refine (matches_resolveExpr hMonotone around
        hThen).bind fun u u' hSecond => ?_
      refine (matches_resolveOption hMonotone around
        hElse).bind fun v v' hThird => ?_
      rw [hSecond.2, hThird.2]
      exact matches_pure
        ⟨.conditional hFirst.1 hSecond.1 hThird.1, rfl⟩
  | .function parameters returnType body scope, _,
      .function hParameters hType hBody => by
      unfold resolveForm
      refine (matches_mapM hParameters fun _ _ hSame =>
        matches_parameterType hSame).bind
          fun types types' hTypes => ?_
      refine (matches_resolveDefaults hMonotone
        (around.within scope) hParameters).bind
          fun qs qs' hDefaults => ?_
      refine (helps_resolveDeclared hType).alike.bind
        fun r r' hReturn => ?_
      rcases r with ⟨type, declared⟩
      rcases r' with ⟨type', declared'⟩
      rcases hReturn with ⟨hTyped, hDeclared⟩
      dsimp only at hTyped hDeclared ⊢
      subst hDeclared
      refine (matches_resolveExpr hMonotone _ hBody).bind
        fun u u' hResult => ?_
      rw [hResult.2]
      refine (helps_checkBody _ _ _ _).alike.bind
        fun _ _ _ => ?_
      have hBoth := parameterTypes_rel hTypes
      refine matches_pure ⟨.function
        (forall₂_withTypes hDefaults hBoth.1) hTyped
        hResult.1, ?_⟩
      rw [hBoth.2]
  | .lambda parameters body scope, _,
      .lambda hParameters hBody => by
      unfold resolveForm
      refine (matches_mapM hParameters fun _ _ hSame =>
        matches_parameterType hSame).bind
          fun types types' hTypes => ?_
      refine (matches_resolveDefaults hMonotone
        (around.within scope) hParameters).bind
          fun qs qs' hDefaults => ?_
      refine (matches_resolveExpr hMonotone _ hBody).bind
        fun u u' hResult => ?_
      have hBoth := parameterTypes_rel hTypes
      refine matches_pure ⟨.lambda
        (forall₂_withTypes hDefaults hBoth.1) hResult.1, ?_⟩
      rw [hBoth.2, hResult.2]
  | .ret none, _, .ret hValue => by
      cases hValue with
      | none =>
          unfold resolveForm
          cases around.returns with
          | none => exact matches_pure ⟨.ret .none, rfl⟩
          | some expected =>
              refine (helps_checkAssignable expected .unit p
                q).alike.bind fun _ _ _ => ?_
              exact matches_pure ⟨.ret .none, rfl⟩
  | .ret (some value), _, .ret hValue => by
      cases hValue with
      | some hValue =>
          unfold resolveForm
          refine (matches_resolveExpr hMonotone around
            hValue).bind fun r r' hFirst => ?_
          dsimp only
          rw [hFirst.2]
          cases around.returns with
          | none =>
              exact matches_pure ⟨.ret (.some hFirst.1), rfl⟩
          | some expected =>
              refine (helps_checkAssignable expected _ _
                _).alike.bind fun _ _ _ => ?_
              exact matches_pure ⟨.ret (.some hFirst.1), rfl⟩
termination_by structural f => f

theorem matches_resolveExpr
    (hMonotone : A.IsMonotone)
    (around : Surroundings) :
    ∀ {e f : Expr},
      A.Exprs e f →
        A.Matches (WalkResults A.Exprs)
          (resolveExpr around e) (resolveExpr around f)
  | ⟨_, _, some type⟩, _, .intro hForm hSpan =>
      matches_pure ⟨.intro hForm hSpan, rfl⟩
  | ⟨form, span, none⟩, ⟨form', span', _⟩, hExprs => by
      cases hExprs with
      | intro hForm hSpan =>
          unfold resolveExpr
          refine (matches_resolveForm hMonotone around
            hSpan.start hForm).bind fun r r' hResult => ?_
          dsimp only
          rw [hResult.2]
          exact matches_pure ⟨.intro hResult.1 hSpan, rfl⟩
termination_by structural e => e

theorem matches_resolveMember
    (hMonotone : A.IsMonotone)
    (around : Surroundings)
    (left : Ty)
    (p q : Position) :
    ∀ {e f : Expr},
      A.Exprs e f →
        A.Matches (WalkResults A.Exprs)
          (resolveMember around left p e)
          (resolveMember around left q f)
  | ⟨form, span, type⟩, _, hExprs => by
      cases form with
      | invocation name arguments target =>
          rcases hExprs with ⟨hForm, hSpan⟩
          cases hForm with
          | invocation hArguments =>
              unfold resolveMember
              refine (matches_resolveArguments hMonotone around
                hArguments).bind fun r r' hResults => ?_
              rcases r with ⟨xs, types⟩
              rcases r' with ⟨ys, types'⟩
              rcases hResults with ⟨hLists, hTypes⟩
              dsimp only at hLists hTypes ⊢
              subst hTypes
              refine (helps_memberCall left name types target p
                q _ _).alike.bind fun u _ hSame => ?_
              subst hSame
              exact matches_pure
                ⟨.intro (.invocation hLists) hSpan, rfl⟩
      | reference name target =>
          rcases hExprs with ⟨hForm, hSpan⟩
          cases hForm with
          | reference =>
              unfold resolveMember
              refine (helps_memberProperty left name target p q
                _ _).alike.bind fun u _ hSame => ?_
              subst hSame
              exact matches_pure ⟨.intro .reference hSpan, rfl⟩
      | _ => exact matches_noMember rfl around left p q hExprs
termination_by structural e => e

theorem matches_resolveOption
    (hMonotone : A.IsMonotone)
    (around : Surroundings) :
    ∀ {o o' : Option Expr},
      Option.Rel A.Exprs o o' →
        A.Matches (WalkResults (Option.Rel A.Exprs))
          (resolveOption around o) (resolveOption around o')
  | none, _, .none => matches_pure ⟨.none, rfl⟩
  | some e, _, .some hExprs => by
      unfold resolveOption
      refine (matches_resolveExpr hMonotone around
        hExprs).bind fun r r' hResult => ?_
      exact matches_pure
        ⟨.some hResult.1, congrArg some hResult.2⟩
termination_by structural o => o

theorem matches_resolveExprs
    (hMonotone : A.IsMonotone)
    (around : Surroundings) :
    ∀ {es fs : List Expr},
      List.Forall₂ A.Exprs es fs →
        A.Matches (List.Forall₂ A.Exprs)
          (resolveExprs around es) (resolveExprs around fs)
  | [], _, .nil => matches_pure .nil
  | e :: es, _, .cons hFirst hRest => by
      unfold resolveExprs
      refine (matches_resolveExpr hMonotone around
        hFirst).bind fun _ _ hResult => ?_
      refine (matches_resolveExprs hMonotone around
        hRest).bind fun _ _ hResults => ?_
      exact matches_pure (.cons hResult.1 hResults)
termination_by structural es => es

theorem matches_resolveArguments
    (hMonotone : A.IsMonotone)
    (around : Surroundings) :
    ∀ {xs ys : List Argument},
      List.Forall₂ A.Arguments xs ys →
        A.Matches (WalkResults (List.Forall₂ A.Arguments))
          (resolveArguments around xs)
          (resolveArguments around ys)
  | [], _, .nil => matches_pure ⟨.nil, rfl⟩
  | ⟨name, value, span⟩ :: xs, _,
      .cons (.intro hValue hSpan) hRest => by
      unfold resolveArguments
      refine (matches_resolveExpr hMonotone around
        hValue).bind fun r r' hFirst => ?_
      refine (matches_resolveArguments hMonotone around
        hRest).bind fun u u' hOthers => ?_
      dsimp only
      rw [hFirst.2, hOthers.2]
      exact matches_pure
        ⟨.cons (.intro hFirst.1 hSpan) hOthers.1, rfl⟩
termination_by structural xs => xs

theorem matches_resolveDefaults
    (hMonotone : A.IsMonotone)
    (around : Surroundings) :
    ∀ {ps qs : List Parameter},
      List.Forall₂ A.Parameters ps qs →
        A.Matches (List.Forall₂ A.Parameters)
          (resolveDefaults around ps)
          (resolveDefaults around qs)
  | [], _, .nil => matches_pure .nil
  | ⟨name, typeExpr, none, definition, span⟩ :: ps, _,
      .cons (.intro hType .none hSpan) hRest => by
      unfold resolveDefaults
      refine (matches_resolveDefaults hMonotone around
        hRest).bind fun _ _ hResults => ?_
      exact matches_pure
        (.cons (.intro hType .none hSpan) hResults)
  | ⟨name, typeExpr, some value, definition, span⟩ :: ps, _,
      .cons (.intro hType (.some hValue) hSpan) hRest => by
      unfold resolveDefaults
      refine (matches_resolveExpr hMonotone around
        hValue).bind fun r r' hFirst => ?_
      dsimp only
      rw [hFirst.2]
      refine (matches_checkDefault definition _ _ _ _ _).bind
        fun _ _ _ => ?_
      refine (matches_resolveDefaults hMonotone around
        hRest).bind fun _ _ hResults => ?_
      exact matches_pure
        (.cons (.intro hType (.some hFirst.1) hSpan) hResults)
termination_by structural ps => ps

theorem matches_resolveStatements
    (hMonotone : A.IsMonotone)
    (around : Surroundings)
    (last : Ty) :
    ∀ {xs ys : List Statement},
      List.Forall₂ A.Statements xs ys →
        A.Matches (WalkResults (List.Forall₂ A.Statements))
          (resolveStatements around last xs)
          (resolveStatements around last ys)
  | [], _, .nil => matches_pure ⟨.nil, rfl⟩
  | x :: xs, _, .cons hFirst hRest => by
      unfold resolveStatements
      refine (matches_resolveStatement hMonotone around
        hFirst).bind fun r r' hResult => ?_
      dsimp only
      rw [hResult.2]
      refine (matches_resolveStatements hMonotone around _
        hRest).bind fun u u' hResults => ?_
      exact matches_pure
        ⟨.cons hResult.1 hResults.1, hResults.2⟩
termination_by structural xs => xs

theorem matches_resolveStatement
    (hMonotone : A.IsMonotone)
    (around : Surroundings) :
    ∀ {x y : Statement},
      A.Statements x y →
        A.Matches (WalkResults A.Statements)
          (resolveStatement around x)
          (resolveStatement around y)
  | .expression e, _, .expression hExpr => by
      unfold resolveStatement
      refine (matches_resolveExpr hMonotone around
        hExpr).bind fun r r' hResult => ?_
      exact matches_pure
        ⟨.expression hResult.1, hResult.2⟩
  | .variable v, _, .variable hVariable => by
      unfold resolveStatement
      refine (matches_resolveVariable hMonotone around
        hVariable).bind fun r r' hResult => ?_
      exact matches_pure ⟨.variable hResult, rfl⟩
  | .function f, _, .function hFunction => by
      unfold resolveStatement
      refine (matches_resolveFunction hMonotone around
        hFunction).bind fun r r' hResult => ?_
      exact matches_pure ⟨.function hResult, rfl⟩
termination_by structural x => x

theorem matches_resolveVariable
    (hMonotone : A.IsMonotone)
    (around : Surroundings) :
    ∀ {v w : VariableDecl},
      A.Variables v w →
        A.Matches A.Variables
          (resolveVariable around v)
          (resolveVariable around w)
  | ⟨isMutable, name, typeExpr, initializer, definition,
      span⟩, _, .intro hType hInitializer hSpan => by
      unfold resolveVariable
      refine (matches_isResolved definition).bind
        fun known _ hSame => ?_
      subst hSame
      cases known with
      | true =>
          exact matches_pure
            (.intro hType hInitializer hSpan)
      | false =>
          refine (helps_resolveDeclared hType).alike.bind
            fun r r' hDeclared => ?_
          refine (matches_resolveOption hMonotone around
            hInitializer).bind fun u u' hResult => ?_
          dsimp only
          rw [hDeclared.2, hResult.2]
          refine (helps_variableType name _
            (initialTypes_eq _ hInitializer) _ _).alike.bind
              fun type _ hSame => ?_
          subst hSame
          refine (matches_fillType definition type).bind
            fun _ _ _ => ?_
          exact matches_pure
            (.intro hDeclared.1 hResult.1 hSpan)
termination_by structural v => v

theorem matches_resolveFunction
    (hMonotone : A.IsMonotone)
    (around : Surroundings) :
    ∀ {f g : FunctionDecl},
      A.Functions f g →
        A.Matches A.Functions
          (resolveFunction around f)
          (resolveFunction around g)
  | ⟨name, parameters, returnType, body, scope, definition,
      span⟩, _, .intro hParameters hType hBody hSpan => by
      unfold resolveFunction
      refine (matches_isResolved definition).bind
        fun known _ hSame => ?_
      subst hSame
      cases known with
      | true =>
          exact matches_pure
            (.intro hParameters hType hBody hSpan)
      | false =>
          refine (matches_mapM hParameters fun _ _ hSame =>
            matches_parameterType hSame).bind
              fun types types' hTypes => ?_
          refine (helps_resolveDeclared hType).alike.bind
            fun r r' hReturn => ?_
          rcases r with ⟨type, declared⟩
          rcases r' with ⟨type', declared'⟩
          rcases hReturn with ⟨hTyped, hDeclared⟩
          dsimp only at hTyped hDeclared ⊢
          subst hDeclared
          have hBoth := parameterTypes_rel hTypes
          rw [hBoth.2]
          refine (matches_fillType definition _).bind
            fun _ _ _ => ?_
          refine (matches_resolveDefaults hMonotone
            (around.within scope) hParameters).bind
              fun qs qs' hDefaults => ?_
          refine (matches_resolveOption hMonotone _
            hBody).bind fun u u' hResult => ?_
          rcases u with ⟨body', received⟩
          rcases u' with ⟨body'', received'⟩
          rcases hResult with ⟨hBodies, hReceived⟩
          dsimp only at hBodies hReceived ⊢
          subst hReceived
          have hDone :
              A.Matches A.Functions
                (pure ⟨name,
                  withTypes qs (types.map (·.1)), type,
                  body', scope, definition, span⟩)
                (pure ⟨name,
                  withTypes qs' (types'.map (·.1)), type',
                  body'', scope, definition, _⟩) :=
            matches_pure
              (.intro (forall₂_withTypes hDefaults hBoth.1)
                hTyped hBodies hSpan)
          cases hBody with
          | none => exact hDone
          | some hBody =>
              cases received with
              | none => exact hDone
              | some type =>
                  exact (helps_checkBody _ _ _ _).alike.bind
                    fun _ _ _ => hDone
termination_by structural f => f

end

------------------------------------------------------------
-- Programs
------------------------------------------------------------

theorem matches_resolveDeclaration
    (hMonotone : A.IsMonotone)
    (around : Surroundings)
    {c d : Declaration}
    (hDeclarations : A.Declarations c d) :
    A.Matches A.Declarations
      (resolveDeclaration around c)
      (resolveDeclaration around d) := by
  cases hDeclarations with
  | function hFunction =>
      exact (matches_resolveFunction hMonotone around
        hFunction).bind fun _ _ hResult =>
          matches_pure (.function hResult)
  | property hVariable =>
      exact (matches_resolveVariable hMonotone around
        hVariable).bind fun _ _ hResult =>
          matches_pure (.property hResult)

theorem matches_resolveParts
    (hMonotone : A.IsMonotone)
    (library : Library)
    {a b : Program}
    (hPrograms : A.Programs a b) :
    A.Matches A.Programs
      (resolveParts library a) (resolveParts library b) := by
  unfold resolveParts
  dsimp only
  rw [hPrograms.scope]
  refine (helps_mapM hPrograms.imports fun _ _ hImports =>
    helps_resolveImport library hImports).alike.bind
      fun is js hImports => ?_
  refine (matches_mapM hPrograms.declarations
    fun _ _ hDeclarations =>
      matches_resolveDeclaration hMonotone _
        hDeclarations).bind fun cs ds hDeclarations => ?_
  exact matches_pure
    ⟨hImports, hDeclarations, rfl, hPrograms.symbols⟩

/- Aligned programs are resolved to aligned programs. -/
theorem resolveProgram_rel
    (hMonotone : A.IsMonotone)
    (library : Library)
    {a b : Program}
    (hPrograms : A.Programs a b) :
    A.Programs
        (resolveProgram library a).1
        (resolveProgram library b).1 ∧
      (resolveProgram library a).2.map (·.problem) =
        (resolveProgram library b).2.map (·.problem) := by
  have hStart :
      A.States (.start a.symbols) (.start b.symbols) :=
    ⟨hPrograms.symbols, rfl, rfl, rfl⟩
  have hBoth :=
    matches_resolveParts hMonotone library hPrograms _ _
      hStart
  have hParts := hBoth.results
  exact ⟨⟨hParts.imports, hParts.declarations, hParts.scope,
    hBoth.states.symbols⟩, hBoth.states.problems⟩

end Alignment

end SourceCheck
