import SourceCheck.Proofs.Resolution.Properties

/-
  Walks over trees within bounds.

  All that is done to resolve a tree within bounds has the
  properties that its parts have.

  Key theorems include:
    * `ResolverProperty.holds_resolveExpr`
    * `ResolverProperty.holds_resolveFunction`
    * `ResolverProperty.holds_declarations`
-/

namespace SourceCheck

open SourceCheck.Resolver

variable {b : Bounds}
variable {around : Surroundings}

------------------------------------------------------------
-- Surroundings
------------------------------------------------------------

namespace Bounds

theorem Around.within
    {scope : ScopeId}
    (hScope : scope < b.scopes)
    (around : Surroundings) :
    b.Around (around.within scope) := by
  rintro _ ⟨⟩
  exact hScope

theorem Around.returning
    (hAround : b.Around around)
    (returns : Option Ty) :
    b.Around (around.returning returns) :=
  hAround

end Bounds

namespace ResolverProperty

open SourceCheck.Bounds

variable {R : ResolverProperty b}

------------------------------------------------------------
-- Parts of trees
------------------------------------------------------------

theorem makes_of_boundedParameters
    {ps : List Parameter}
    (hBounded : boundedParameters b ps) :
    ∀ p ∈ ps, b.Makes p.definition := by
  induction ps with
  | nil => exact nofun
  | cons p ps ih =>
      rcases p with ⟨name, typeExpr, fallback, id, span⟩
      rw [boundedParameters] at hBounded
      exact List.forall_mem_cons.2
        ⟨hBounded.1.1, ih hBounded.2⟩

theorem holds_parameterTypes
    {ps : List Parameter}
    (hBounded : boundedParameters b ps) :
    R.Holds (ps.mapM parameterType) :=
  holds_mapM fun p hMember =>
    holds_parameterType
      (makes_of_boundedParameters hBounded p hMember)

theorem names_of_bounded
    {form : ExprForm}
    (hBounded : form.Bounded b) :
    b.Names form := by
  cases form with
  | reference name target => exact hBounded
  | _ => trivial

/-
  The right side of an access, whose arguments are walked if
  it is a call.
-/
theorem holds_resolveMember
    {e : Expr}
    (hArguments :
      ∀ name arguments target,
        e.form = .invocation name arguments target →
          R.Holds (resolveArguments around arguments))
    (left : Ty)
    (p : Position) :
    R.Holds (resolveMember around left p e) := by
  unfold resolveMember
  split
  · rename_i name arguments target span _
    refine (hArguments name arguments target rfl).bind
      fun _ => ?_
    exact (holds_memberCall left name _ target p _).bind
      fun _ => holds_pure trivial
  · rename_i name target span _
    exact (holds_memberProperty left name target p _).bind
      fun _ => holds_pure trivial
  · exact (holds_errorType _ _).bind fun _ =>
      holds_pure trivial

------------------------------------------------------------
-- Trees
------------------------------------------------------------

mutual

theorem holds_resolveForm
    {around : Surroundings}
    {p : Position}
    (hAround : b.Around around)
    (hPlace : p.offset < b.offset) :
    ∀ form : ExprForm,
      form.Bounded b →
        R.HoldsWith (fun r => b.Names r.1)
          (resolveForm around p form)
  | .int _, _ => holds_pure trivial
  | .long _, _ => holds_pure trivial
  | .boolean _, _ => holds_pure trivial
  | .string _, _ => holds_pure trivial
  | .template parts, hParts => by
      unfold resolveForm
      exact (holds_resolveExprs hAround parts hParts).bind
        fun _ => holds_pure trivial
  | .reference name target, hTarget => by
      unfold resolveForm
      refine (holds_reference hAround hTarget hPlace
        name).bind fun _ hFound => holds_pure hFound
  | .invocation name arguments target, hArguments => by
      unfold resolveForm
      refine (holds_resolveArguments hAround arguments
        hArguments).bind fun _ => ?_
      exact (holds_invocation hAround hPlace name _
        target).bind fun _ => holds_pure trivial
  | .call callee arguments, hBounded => by
      unfold resolveForm
      refine (holds_resolveExpr hAround callee
        hBounded.1).holds.bind fun _ => ?_
      refine (holds_resolveArguments hAround arguments
        hBounded.2).bind fun _ => ?_
      exact (holds_callType "" _ _ p).bind fun _ =>
        holds_pure trivial
  | .access left safe right, hBounded => by
      unfold resolveForm
      refine (holds_resolveExpr hAround left
        hBounded.1).holds.bind fun _ => ?_
      exact (holds_resolveMember
        (holds_memberArguments hAround right hBounded.2) _
        p).bind fun _ => holds_pure trivial
  | .binary left operator right, hBounded => by
      unfold resolveForm
      refine (holds_resolveExpr hAround left
        hBounded.1).holds.bind fun _ => ?_
      refine (holds_resolveExpr hAround right
        hBounded.2).holds.bind fun _ => ?_
      exact (holds_binaryType operator _ _ p).bind fun _ =>
        holds_pure trivial
  | .unary operator operand, hOperand => by
      unfold resolveForm
      refine (holds_resolveExpr hAround operand
        hOperand).holds.bind fun _ => ?_
      exact (holds_unaryType operator _ p).bind fun _ =>
        holds_pure trivial
  | .assignment target operator value, hBounded => by
      unfold resolveForm
      refine (holds_resolveExpr hAround target
        hBounded.1).bind fun _ hNames => ?_
      refine (holds_resolveExpr hAround value
        hBounded.2).holds.bind fun _ => ?_
      exact (holds_checkAssignment hNames _ operator _
        _).bind fun _ => holds_pure trivial
  | .parenthesized inner, hInner => by
      unfold resolveForm
      exact (holds_resolveExpr hAround inner
        hInner).holds.bind fun _ => holds_pure trivial
  | .block statements scope, hBounded => by
      unfold resolveForm
      exact (holds_resolveStatements
        (.within hBounded.1 around) .unit statements
        hBounded.2).bind fun _ => holds_pure trivial
  | .conditional condition thenBranch elseBranch,
      hBounded => by
      unfold resolveForm
      refine (holds_resolveExpr hAround condition
        hBounded.1).holds.bind fun _ => ?_
      refine (holds_checkAssignable _ _ _).bind fun _ => ?_
      refine (holds_resolveExpr hAround thenBranch
        hBounded.2.1).holds.bind fun _ => ?_
      exact (holds_resolveOption hAround elseBranch
        hBounded.2.2).bind fun _ => holds_pure trivial
  | .function parameters returnType body scope, hBounded => by
      have hInside :=
        Around.within hBounded.1 around
      unfold resolveForm
      refine (holds_parameterTypes hBounded.2.1).bind
        fun _ => ?_
      refine (holds_resolveDefaults hInside parameters
        hBounded.2.1).bind fun _ => ?_
      refine (holds_resolveDeclared returnType).bind
        fun r => ?_
      refine (holds_resolveExpr (hInside.returning r.2) body
        hBounded.2.2).holds.bind fun _ => ?_
      exact (holds_checkBody _ _ _).bind fun _ =>
        holds_pure trivial
  | .lambda parameters body scope, hBounded => by
      have hInside :=
        Around.within hBounded.1 around
      unfold resolveForm
      refine (holds_parameterTypes hBounded.2.1).bind
        fun _ => ?_
      refine (holds_resolveDefaults hInside parameters
        hBounded.2.1).bind fun _ => ?_
      exact (holds_resolveExpr (hInside.returning none) body
        hBounded.2.2).holds.bind fun _ =>
          holds_pure trivial
  | .ret none, _ => by
      unfold resolveForm
      cases around.returns with
      | none => exact holds_pure trivial
      | some expected =>
          exact (holds_checkAssignable _ _ p).bind
            fun _ => holds_pure trivial
  | .ret (some value), hValue => by
      unfold resolveForm
      refine (holds_resolveExpr hAround value
        hValue).holds.bind fun _ => ?_
      cases around.returns with
      | none => exact holds_pure trivial
      | some expected =>
          exact (holds_checkAssignable _ _ _).bind
            fun _ => holds_pure trivial
termination_by structural form => form

theorem holds_resolveExpr
    {around : Surroundings}
    (hAround : b.Around around) :
    ∀ e : Expr,
      e.Bounded b →
        R.HoldsWith (fun r => b.Names r.1.form)
          (resolveExpr around e)
  | ⟨form, span, some type⟩, hBounded => by
      unfold resolveExpr
      exact holds_pure (names_of_bounded hBounded.2)
  | ⟨form, span, none⟩, hBounded => by
      unfold resolveExpr
      exact (holds_resolveForm hAround hBounded.1 form
        hBounded.2).bind fun _ hNames => holds_pure hNames
termination_by structural e => e

theorem holds_memberArguments
    {around : Surroundings}
    (hAround : b.Around around) :
    ∀ e : Expr,
      e.Bounded b →
        ∀ name arguments target,
          e.form = .invocation name arguments target →
            R.Holds (resolveArguments around arguments)
  | ⟨form, _, _⟩, hBounded, _, _, _, hForm => by
      cases form with
      | invocation name arguments target =>
          have hOwn :=
            holds_resolveArguments hAround arguments hBounded.2
          cases hForm
          exact hOwn
      | _ => cases hForm
termination_by structural e => e

theorem holds_resolveOption
    {around : Surroundings}
    (hAround : b.Around around) :
    ∀ o : Option Expr,
      boundedOption b o → R.Holds (resolveOption around o)
  | none, _ => holds_pure trivial
  | some e, hBounded => by
      unfold resolveOption
      exact (holds_resolveExpr hAround e
        hBounded).holds.bind fun _ => holds_pure trivial
termination_by structural o => o

theorem holds_resolveExprs
    {around : Surroundings}
    (hAround : b.Around around) :
    ∀ es : List Expr,
      boundedExprs b es → R.Holds (resolveExprs around es)
  | [], _ => holds_pure trivial
  | e :: es, hBounded => by
      unfold resolveExprs
      refine (holds_resolveExpr hAround e
        hBounded.1).holds.bind fun _ => ?_
      exact (holds_resolveExprs hAround es
        hBounded.2).bind fun _ => holds_pure trivial
termination_by structural es => es

theorem holds_resolveArguments
    {around : Surroundings}
    (hAround : b.Around around) :
    ∀ xs : List Argument,
      boundedArguments b xs →
        R.Holds (resolveArguments around xs)
  | [], _ => holds_pure trivial
  | ⟨name, value, span⟩ :: xs, hBounded => by
      unfold resolveArguments
      refine (holds_resolveExpr hAround value
        hBounded.1).holds.bind fun _ => ?_
      exact (holds_resolveArguments hAround xs
        hBounded.2).bind fun _ => holds_pure trivial
termination_by structural xs => xs

theorem holds_resolveDefaults
    {around : Surroundings}
    (hAround : b.Around around) :
    ∀ ps : List Parameter,
      boundedParameters b ps →
        R.Holds (resolveDefaults around ps)
  | [], _ => holds_pure trivial
  | ⟨name, typeExpr, none, definition, span⟩ :: ps,
      hBounded => by
      unfold resolveDefaults
      exact (holds_resolveDefaults hAround ps
        hBounded.2).bind fun _ => holds_pure trivial
  | ⟨name, typeExpr, some value, definition, span⟩ :: ps,
      hBounded => by
      unfold resolveDefaults
      refine (holds_resolveExpr hAround value
        hBounded.1.2).holds.bind fun _ => ?_
      refine (holds_checkDefault hBounded.1.1 _ _ _).bind
        fun _ => ?_
      exact (holds_resolveDefaults hAround ps
        hBounded.2).bind fun _ => holds_pure trivial
termination_by structural ps => ps

theorem holds_resolveStatements
    {around : Surroundings}
    (hAround : b.Around around)
    (last : Ty) :
    ∀ xs : List Statement,
      boundedStatements b xs →
        R.Holds (resolveStatements around last xs)
  | [], _ => holds_pure trivial
  | x :: xs, hBounded => by
      unfold resolveStatements
      refine (holds_resolveStatement hAround x
        hBounded.1).bind fun _ => ?_
      exact (holds_resolveStatements hAround _ xs
        hBounded.2).bind fun _ => holds_pure trivial
termination_by structural xs => xs

theorem holds_resolveStatement
    {around : Surroundings}
    (hAround : b.Around around) :
    ∀ x : Statement,
      x.Bounded b → R.Holds (resolveStatement around x)
  | .expression e, hBounded => by
      unfold resolveStatement
      exact (holds_resolveExpr hAround e
        hBounded).holds.bind fun _ => holds_pure trivial
  | .variable v, hBounded => by
      unfold resolveStatement
      exact (holds_resolveVariable hAround v
        hBounded).bind fun _ => holds_pure trivial
  | .function f, hBounded => by
      unfold resolveStatement
      exact (holds_resolveFunction around f
        hBounded).bind fun _ => holds_pure trivial
termination_by structural x => x

theorem holds_resolveVariable
    {around : Surroundings}
    (hAround : b.Around around) :
    ∀ v : VariableDecl,
      v.Bounded b → R.Holds (resolveVariable around v)
  | ⟨isMutable, name, typeExpr, initializer, definition,
      span⟩, hBounded => by
      unfold resolveVariable
      refine Holds.bind (R.ofIsResolved hBounded.1.2)
        fun known => ?_
      cases known with
      | true => exact holds_pure trivial
      | false =>
          refine (holds_resolveDeclared typeExpr).bind
            fun _ => ?_
          refine (holds_resolveOption hAround initializer
            hBounded.2).bind fun _ => ?_
          refine (holds_variableType name _ _ _).bind
            fun type => ?_
          exact Holds.bind (R.ofFillType hBounded.1 type)
            fun _ => holds_pure trivial
termination_by structural v => v

theorem holds_resolveFunction
    (around : Surroundings) :
    ∀ f : FunctionDecl,
      f.Bounded b → R.Holds (resolveFunction around f)
  | ⟨name, parameters, returnType, body, scope, definition,
      span⟩, hBounded => by
      have hInside := Around.within hBounded.1.1 around
      unfold resolveFunction
      refine Holds.bind (R.ofIsResolved hBounded.1.2.2)
        fun known => ?_
      cases known with
      | true => exact holds_pure trivial
      | false =>
          refine (holds_parameterTypes hBounded.2.1).bind
            fun _ => ?_
          refine (holds_resolveDeclared returnType).bind
            fun r => ?_
          refine Holds.bind (R.ofFillType hBounded.1.2 _)
            fun _ => ?_
          refine (holds_resolveDefaults hInside parameters
            hBounded.2.1).bind fun _ => ?_
          refine (holds_resolveOption
            (hInside.returning r.2) body hBounded.2.2).bind
              fun u => ?_
          rcases u with ⟨body', received⟩
          cases body with
          | none => exact holds_pure trivial
          | some e =>
              cases received with
              | none => exact holds_pure trivial
              | some type =>
                  exact (holds_checkBody _ _ _).bind
                    fun _ => holds_pure trivial
termination_by structural f => f

end

------------------------------------------------------------
-- Declarations
------------------------------------------------------------

theorem holds_resolveDeclaration
    (hAround : b.Around around)
    {d : Declaration}
    (hBounded : d.Bounded b) :
    R.Holds (resolveDeclaration around d) := by
  cases d with
  | function f =>
      exact (holds_resolveFunction around f hBounded).bind
        fun _ => holds_pure trivial
  | property v =>
      exact (holds_resolveVariable hAround v hBounded).bind
        fun _ => holds_pure trivial

/- So do all declarations within bounds. -/
theorem holds_declarations
    (hAround : b.Around around)
    {ds : List Declaration}
    (hBounded : ∀ d ∈ ds, d.Bounded b) :
    R.Holds (ds.mapM (resolveDeclaration around)) :=
  holds_mapM fun d hMember =>
    holds_resolveDeclaration hAround (hBounded d hMember)

end ResolverProperty

end SourceCheck
