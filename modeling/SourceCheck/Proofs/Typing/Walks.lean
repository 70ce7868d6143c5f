import SourceCheck.Proofs.Syntax.Declared
import SourceCheck.Proofs.Typing.Parts

/-
  What silent walks make of trees.

  Behind a walk over a fresh tree that reported nothing, all
  nodes obey the typing rules.  The walk is followed case by
  case: each form certifies its own rule, once the walks over
  its parts have certified theirs.

  Key definitions include:
    * `CertifiedExpr`

  Key theorems include:
    * `certifies_resolveExpr`
    * `certifies_resolveFunction`
    * `certifies_declarations`
-/

namespace SourceCheck

open SourceCheck.Resolver

variable {y : Symbols}
variable {k : Known}
variable {P : Prop}

------------------------------------------------------------
-- Returned values
------------------------------------------------------------

/- The values may be returned in these surroundings. -/
def Surroundings.Allows
    (around : Surroundings)
    (values : List (Option Expr)) :
    Prop :=
  ∀ expected,
    around.returns = some expected →
      ReturnsFit expected values

namespace Surroundings

variable {around : Surroundings}
variable {vs ws : List (Option Expr)}

theorem allows_nil : around.Allows [] :=
  fun _ _ => nofun

theorem Allows.append
    (hFirst : around.Allows vs)
    (hRest : around.Allows ws) :
    around.Allows (vs ++ ws) := by
  intro expected hSome v hMember
  rcases List.mem_append.1 hMember with hMember | hMember
  · exact hFirst expected hSome v hMember
  · exact hRest expected hSome v hMember

end Surroundings

------------------------------------------------------------
-- Results of walks
------------------------------------------------------------

/- A form and its type, behind a silent walk. -/
structure CertifiedForm
    (y : Symbols)
    (k : Known)
    (around : Surroundings)
    (r : ExprForm × Ty) :
    Prop where
  free :
    k.isErrorFree → r.2.isErrorFree ∧ r.1.Gives y k r.2
  honest : r.1.IsHonest y r.2
  obeys : r.1.Obeys (.certified y k)
  allows : around.Allows r.1.returns

/- An expression and its type. -/
structure CertifiedExpr
    (y : Symbols)
    (k : Known)
    (around : Surroundings)
    (r : Expr × Ty) :
    Prop where
  slot : r.1.type = some r.2
  free : k.isErrorFree → r.2.isErrorFree
  obeys : r.1.Obeys (.certified y k)
  allows : around.Allows r.1.returns

/- An expression that may be left out, and its type. -/
structure CertifiedOption
    (y : Symbols)
    (k : Known)
    (around : Surroundings)
    (o : Option Expr)
    (r : Option Expr × Option Ty) :
    Prop where
  there : r.2.isSome = o.isSome
  slot : r.1.map (·.type) = r.2.map some
  free : k.isErrorFree → SlotErrorFree r.2
  obeys : optionObeys (.certified y k) r.1
  allows : around.Allows (optionReturns r.1)

/- Arguments and their types. -/
structure CertifiedArguments
    (y : Symbols)
    (k : Known)
    (around : Surroundings)
    (r : List Argument × List Ty) :
    Prop where
  types : HaveTypes r.1 r.2
  free : k.isErrorFree → ∀ t ∈ r.2, t.isErrorFree
  obeys : argumentsObey (.certified y k) r.1
  allows : around.Allows (argumentsReturns r.1)

/- The right side of an access, and its type. -/
structure CertifiedMember
    (y : Symbols)
    (k : Known)
    (around : Surroundings)
    (left : Ty)
    (r : Expr × Ty) :
    Prop where
  free :
    k.isErrorFree →
      left.isErrorFree →
        r.2.isErrorFree ∧
          ∃ c : Container,
            left = c.type ∧ r.1.IsMember c r.2
  obeys :
    (k.isErrorFree → left.isErrorFree) →
      r.1.ObeysAside (.certified y k)
  allows : around.Allows r.1.returns

/- A parameter with its default resolved. -/
structure CertifiedDefault
    (y : Symbols)
    (k : Known)
    (p q : Parameter) :
    Prop where
  definition_eq : q.definition = p.definition
  accepts :
    ∀ e,
      q.fallback = some e →
        ∃ t s,
          y.type? p.definition = some t ∧
            e.type = some s ∧ t.accepts s
  obeys : optionObeys (.certified y k) q.fallback

/- Statements, and the type of the last one. -/
structure CertifiedStatements
    (y : Symbols)
    (k : Known)
    (around : Surroundings)
    (last : Ty)
    (r : List Statement × Ty) :
    Prop where
  slot : lastType (some last) r.1 = some r.2
  free :
    k.isErrorFree → last.isErrorFree → r.2.isErrorFree
  obeys : statementsObey (.certified y k) r.1
  allows : around.Allows (statementsReturns r.1)

/- A statement, and its type. -/
structure CertifiedStatement
    (y : Symbols)
    (k : Known)
    (around : Surroundings)
    (r : Statement × Ty) :
    Prop where
  slot : r.1.type = some r.2
  free : k.isErrorFree → r.2.isErrorFree
  obeys : r.1.Obeys (.certified y k)
  allows : around.Allows r.1.returns

------------------------------------------------------------
-- Parameters
------------------------------------------------------------

section Parameters

variable {ps qs : List Parameter}
variable {ds : List (TypeExpr × Ty)}

/- Parameters with their types and defaults are typed. -/
theorem obey_withTypes
    (hTypes : List.Forall₂ (CertifiedParameter y k) ps ds)
    (hDefaults : List.Forall₂ (CertifiedDefault y k) ps qs) :
    parametersObey (.certified y k)
      (withTypes qs (ds.map (·.1))) := by
  induction hTypes generalizing qs with
  | nil =>
      cases hDefaults
      trivial
  | @cons p d ps ds hType _ ih =>
      cases hDefaults with
      | @cons _ q _ qs hDefault hOthers =>
          rcases q with ⟨name, typeExpr, fallback, id, span⟩
          refine ⟨⟨⟨d.2, hType.slot, ?_, ?_⟩, hType.obeys,
            hDefault.obeys⟩, ih hOthers⟩
          · have hSame := hDefault.definition_eq
            dsimp only at hSame ⊢
            rw [hSame]
            exact hType.definition
          · intro e hFallback
            rcases hDefault.accepts e hFallback with
              ⟨t, s, hDefinition, hSlot, hAccepts⟩
            have hSame :=
              hDefinition.symm.trans hType.definition
            cases hSame
            exact ⟨s, hSlot, hAccepts⟩

theorem gives_withTypes
    (hTypes : List.Forall₂ (CertifiedParameter y k) ps ds)
    (hDefaults : List.Forall₂ (CertifiedDefault y k) ps qs) :
    y.Gives (withTypes qs (ds.map (·.1))) (ds.map (·.2)) := by
  unfold Symbols.Gives
  induction hTypes generalizing qs with
  | nil =>
      cases hDefaults
      rfl
  | @cons p d ps ds hType _ ih =>
      cases hDefaults with
      | @cons _ q _ qs hDefault hOthers =>
          have hRest := ih hOthers
          unfold withTypes at hRest ⊢
          rw [List.map_cons, List.zipWith_cons_cons,
            List.map_cons, List.map_cons, List.map_cons,
            hRest]
          dsimp only
          rw [hDefault.definition_eq, hType.definition]

theorem returns_withTypes
    (hTypes : List.Forall₂ (CertifiedParameter y k) ps ds)
    (hDefaults : List.Forall₂ (CertifiedDefault y k) ps qs) :
    defaultsReturns (withTypes qs (ds.map (·.1))) =
      defaultsReturns qs := by
  induction hTypes generalizing qs with
  | nil =>
      cases hDefaults
      rfl
  | cons _ _ ih =>
      cases hDefaults with
      | @cons _ q _ qs _ hOthers =>
          rcases q with ⟨name, typeExpr, fallback, id, span⟩
          have hRest := ih hOthers
          unfold withTypes at hRest ⊢
          rw [List.map_cons, List.zipWith_cons_cons,
            defaultsReturns, defaultsReturns, hRest]

theorem allows_withTypes
    {around : Surroundings}
    (hTypes : List.Forall₂ (CertifiedParameter y k) ps ds)
    (hDefaults : List.Forall₂ (CertifiedDefault y k) ps qs)
    (hAllows : around.Allows (defaultsReturns qs)) :
    around.Allows
      (defaultsReturns (withTypes qs (ds.map (·.1)))) := by
  rw [returns_withTypes hTypes hDefaults]
  exact hAllows

end Parameters

------------------------------------------------------------
-- Forms
------------------------------------------------------------

section Forms

variable {around : Surroundings}

/- A form that is no literal of a function. -/
theorem certifiedForm_mk
    {form : ExprForm}
    {t : Ty}
    (hHonest : ∀ t, form.IsHonest y t)
    (hFree :
      k.isErrorFree → t.isErrorFree ∧ form.Gives y k t)
    (hObeys : form.Obeys (.certified y k))
    (hAllows : around.Allows form.returns) :
    CertifiedForm y k around (form, t) :=
  ⟨hFree, hHonest t, hObeys, hAllows⟩

/- A body of a function fits what is declared. -/
theorem bodyFits_of_certified
    {inside : Surroundings}
    {declared : Option Ty}
    {body : Expr}
    {received : Ty}
    (hBody :
      CertifiedExpr y k (inside.returning declared)
        (body, received))
    (hAccepts :
      ∀ t,
        declared = some t → t ≠ .unit → t.accepts received) :
    BodyFits declared body := by
  intro expected hDeclared
  refine ⟨fun hNot => ?_, hBody.allows expected hDeclared⟩
  exact ⟨received, hBody.slot,
    hAccepts expected hDeclared hNot⟩

/- A literal of a function. -/
theorem isFunctionType_of_certified
    {ps qs : List Parameter}
    {ds : List (TypeExpr × Ty)}
    {inside : Surroundings}
    {declared : Option Ty}
    {body : Expr}
    {received : Ty}
    (hTypes : List.Forall₂ (CertifiedParameter y k) ps ds)
    (hDefaults : List.Forall₂ (CertifiedDefault y k) ps qs)
    (hBody :
      CertifiedExpr y k (inside.returning declared)
        (body, received))
    (hAccepts :
      ∀ t,
        declared = some t → t ≠ .unit → t.accepts received) :
    IsFunctionType y (withTypes qs (ds.map (·.1))) declared
      body
      (.function (ds.map (·.2)) (declared.getD received)) :=
  ⟨ds.map (·.2), received, gives_withTypes hTypes hDefaults,
    hBody.slot, rfl, bodyFits_of_certified hBody hAccepts⟩

/- What is assigned to is named in the end. -/
theorem isAssignable_of_certified
    {e : Expr}
    (hObeys : e.Obeys (.certified y k))
    (hTarget : e.IsTarget y)
    (hFree : k.isErrorFree) :
    e.IsAssignable y := by
  rcases e with ⟨form, span, type⟩
  cases form with
  | reference name target => exact hTarget
  | access left safe right =>
      rcases hTarget with ⟨name, target, hForm⟩
      rcases hObeys.1 with ⟨t, -, -, hGives⟩
      rcases (hGives hFree).2 with ⟨c, -, -, hMember⟩
      rcases hMember with ⟨m, -, -, -, hNames⟩
      rw [hForm] at hNames
      exact ⟨name, target, m, hForm, hNames.2.1, hNames.2.2.1⟩
  | _ => exact hTarget.elim

/- An expression that is there. -/
theorem CertifiedOption.certifiedExpr
    {o : Option Expr}
    {r : Option Expr × Option Ty}
    (hOption : CertifiedOption y k around o r)
    {e : Expr}
    (hSome : r.1 = some e) :
    ∃ t, r.2 = some t ∧ CertifiedExpr y k around (e, t) := by
  rcases r with ⟨_, received⟩
  dsimp only at hSome
  subst hSome
  rcases Option.map_eq_some_iff.1 hOption.slot.symm with
    ⟨t, rfl, hEq⟩
  exact ⟨t, rfl, hEq.symm,
    fun hKnown => hOption.free hKnown t rfl, hOption.obeys,
    hOption.allows⟩

theorem CertifiedOption.bind_type
    {o : Option Expr}
    {r : Option Expr × Option Ty}
    (hOption : CertifiedOption y k around o r) :
    r.1.bind (·.type) = r.2 := by
  cases hFirst : r.1 with
  | none =>
      have hSlot := hOption.slot
      rw [hFirst] at hSlot
      exact (Option.map_eq_none_iff.1 hSlot.symm).symm
  | some e =>
      rcases hOption.certifiedExpr hFirst with
        ⟨t, hType, hExpr⟩
      rw [hType]
      exact hExpr.slot

/- The initial value is that of the type that was found. -/
theorem CertifiedOption.map_initial
    {o : Option Expr}
    {r : Option Expr × Option Ty}
    (hOption : CertifiedOption y k around o r)
    (place : Expr → Position) :
    (r.2.bind fun t => o.map fun e => (t, place e)).map
        (·.1) =
      r.2 := by
  have hThere := hOption.there
  cases hType : r.2 with
  | none => rfl
  | some t =>
      rw [hType] at hThere
      rcases Option.isSome_iff_exists.1 hThere.symm with
        ⟨e, rfl⟩
      rfl

theorem free_of_isVariableType
    {d : TypeExpr × Option Ty}
    {o : Option Expr}
    {r : Option Expr × Option Ty}
    {t : Ty}
    (hDeclared : CertifiedDeclared y k d)
    (hOption : CertifiedOption y k around o r)
    (hType : IsVariableType d.2 r.2 t)
    (hFree : k.isErrorFree) :
    t.isErrorFree := by
  unfold IsVariableType at hType
  split at hType
  · rename_i expected hSome
    rw [hType.1]
    exact hDeclared.free hFree expected hSome
  · exact hOption.free hFree t hType

theorem isTyped_of_isVariableType
    {v : VariableDecl}
    {d : TypeExpr × Option Ty}
    {o : Option Expr}
    {r : Option Expr × Option Ty}
    {t : Ty}
    (hTypeExpr : v.typeExpr = d.1)
    (hInitializer : v.initializer = r.1)
    (hDeclared : CertifiedDeclared y k d)
    (hOption : CertifiedOption y k around o r)
    (hType : IsVariableType d.2 r.2 t)
    (hDefinition : y.type? v.definition = some t) :
    v.IsTyped y := by
  refine ⟨t, hDefinition, ?_⟩
  rw [hTypeExpr, hInitializer, hDeclared.slot]
  unfold IsVariableType at hType
  cases hSlot : d.2 with
  | none =>
      rw [hSlot] at hType
      refine ⟨hDeclared.absent hSlot, ?_⟩
      have hValue := hOption.bind_type
      rw [hType] at hValue
      exact Option.bind_eq_some_iff.1 hValue
  | some expected =>
      rw [hSlot] at hType
      refine ⟨hType.1, fun e hSome => ?_⟩
      rcases hOption.certifiedExpr hSome with
        ⟨s, hReceived, hExpr⟩
      exact ⟨s, hExpr.slot, hType.2 s hReceived⟩

/- A function with all of its parts walked. -/
theorem obeys_of_certified
    {name : String}
    {ps qs : List Parameter}
    {ds : List (TypeExpr × Ty)}
    {d : TypeExpr × Option Ty}
    {o : Option Expr}
    {r : Option Expr × Option Ty}
    {scope : ScopeId}
    {id : DefinitionId}
    {span : Span}
    (hTypes : List.Forall₂ (CertifiedParameter y k) ps ds)
    (hDefaults : List.Forall₂ (CertifiedDefault y k) ps qs)
    (hDeclared : CertifiedDeclared y k d)
    (hOption :
      CertifiedOption y k (around.returning d.2) o r)
    (hFits :
      ∀ s,
        r.2 = some s →
          ∀ t, d.2 = some t → t ≠ .unit → t.accepts s)
    (hDefinition :
      y.type? id =
        some
          (.function (ds.map (·.2)) (d.2.getD .unit))) :
    FunctionDecl.Obeys (.certified y k)
      ⟨name, withTypes qs (ds.map (·.1)), d.1, r.1, scope, id,
        span⟩ := by
  refine ⟨⟨ds.map (·.2), gives_withTypes hTypes hDefaults, ?_,
      fun e hSome => ?_⟩,
    obey_withTypes hTypes hDefaults, hDeclared.obeys,
    hOption.obeys⟩
  · dsimp only
    rw [hDeclared.slot]
    exact hDefinition
  · rcases hOption.certifiedExpr hSome with
      ⟨s, hReceived, hExpr⟩
    dsimp only
    rw [hDeclared.slot]
    exact bodyFits_of_certified hExpr (hFits s hReceived)

/- The right side of an access, if its arguments are walked. -/
theorem certifies_resolveMember
    {e : Expr}
    (hFresh : e.ObeysAside .fresh)
    (hArguments :
      ∀ name arguments target,
        e.form = .invocation name arguments target →
          Certifies y k True (argumentsDeclared arguments)
            (resolveArguments around arguments)
            (CertifiedArguments y k around))
    (left : Ty)
    (p : Position) :
    Certifies y k P e.declared (resolveMember around left p e)
      (CertifiedMember y k around left) := by
  unfold resolveMember
  split
  · rename_i name arguments target span _
    have hTarget : target = .unknown := hFresh.1.2
    subst hTarget
    refine (hArguments name arguments _ rfl).anyway.last
      fun r => ?_
    refine (certifies_memberCall left name r.2 p _).last
      fun s => certifies_pure ?_
    rintro ⟨⟨-, hOwn⟩, hCall⟩
    have hFree hKnown hLeft :=
      hCall hLeft (hOwn.free hKnown)
    refine ⟨?_, fun hLeft => ⟨⟨_, rfl, ?_⟩, hOwn.obeys⟩,
      hOwn.allows⟩
    · intro hKnown hLeft
      rcases hFree hKnown hLeft with
        ⟨hResult, c, hContainer, m, hMember, hPublic, hGives,
          hSlot, hSignature⟩
      exact ⟨hResult, c, hContainer, rfl, m, hMember, hPublic,
        hGives, hSlot, r.2, hOwn.types, hSignature⟩
    · exact fun hKnown => (hFree hKnown (hLeft hKnown)).1
  · rename_i name target span _
    have hTarget : target = .unknown := hFresh.1.2
    subst hTarget
    refine (certifies_memberProperty left name p _).last
      fun s => certifies_pure ?_
    rintro ⟨-, hProperty⟩
    refine ⟨?_, fun hLeft => ⟨⟨_, rfl, ?_⟩, trivial⟩,
      Surroundings.allows_nil⟩
    · intro _ hLeft
      rcases hProperty hLeft with
        ⟨hResult, c, hContainer, m, hMember, hPublic, hGives,
          hKind, hSlot, hIsProperty, hName⟩
      exact ⟨hResult, c, hContainer, rfl, m, hMember, hPublic,
        hGives, hKind, hSlot, hIsProperty, hName⟩
    · exact fun hKnown => (hProperty (hLeft hKnown)).1
  · refine Certifies.widen ?_ _
    exact (certifies_errorType _ _).last fun _ =>
      certifies_pure fun hBoth => hBoth.2.elim

end Forms

------------------------------------------------------------
-- Trees
------------------------------------------------------------

mutual

theorem certifies_resolveForm
    {around : Surroundings}
    (p : Position) :
    ∀ form : ExprForm,
      form.IsUnbound →
        form.Obeys .fresh →
          Certifies y k True form.declared
            (resolveForm around p form)
            (CertifiedForm y k around)
  | .int _, _, _ => by
      unfold resolveForm
      exact certifies_pure fun _ =>
        certifiedForm_mk (fun _ => trivial)
          (fun _ => ⟨rfl, rfl⟩) trivial
          Surroundings.allows_nil
  | .long _, _, _ => by
      unfold resolveForm
      exact certifies_pure fun _ =>
        certifiedForm_mk (fun _ => trivial)
          (fun _ => ⟨rfl, rfl⟩) trivial
          Surroundings.allows_nil
  | .boolean _, _, _ => by
      unfold resolveForm
      exact certifies_pure fun _ =>
        certifiedForm_mk (fun _ => trivial)
          (fun _ => ⟨rfl, rfl⟩) trivial
          Surroundings.allows_nil
  | .string _, _, _ => by
      unfold resolveForm
      exact certifies_pure fun _ =>
        certifiedForm_mk (fun _ => trivial)
          (fun _ => ⟨rfl, rfl⟩) trivial
          Surroundings.allows_nil
  | .template parts, _, hParts => by
      unfold resolveForm
      refine (certifies_resolveExprs parts hParts).last
        fun _ => certifies_pure fun ⟨_, hObeys, hAllows⟩ => ?_
      exact certifiedForm_mk (fun _ => trivial)
        (fun _ => ⟨rfl, rfl⟩) hObeys hAllows
  | .reference name target, hTarget, _ => by
      have hUnknown : target = .unknown := hTarget
      subst hUnknown
      unfold resolveForm
      refine (certifies_reference around name p).last
        fun _ => certifies_pure fun ⟨_, hFree, hNames⟩ => ?_
      exact certifiedForm_mk (fun _ => trivial)
        (fun hKnown => ⟨hFree hKnown, hNames⟩) trivial
        Surroundings.allows_nil
  | .invocation name arguments target, hTarget,
      hArguments => by
      have hUnknown : target = .unknown := hTarget
      subst hUnknown
      unfold resolveForm
      refine (certifies_resolveArguments arguments
        hArguments).last fun r => ?_
      refine (certifies_invocation around name r.2 p).last
        fun _ => certifies_pure fun ⟨⟨_, hOwn⟩, hCall⟩ => ?_
      refine certifiedForm_mk (fun _ => trivial)
        (fun hKnown => ?_) hOwn.obeys hOwn.allows
      have hBoth := hCall hKnown (hOwn.free hKnown)
      exact ⟨hBoth.1, r.2, hOwn.types, hBoth.2⟩
  | .call callee arguments, _, hFresh => by
      unfold resolveForm
      refine (certifies_resolveExpr callee hFresh.1).bind
        fun c => ?_
      refine (certifies_resolveArguments arguments
        hFresh.2).anyway.last fun r => ?_
      refine (certifies_callType "" c.2 r.2 p).last
        fun _ => certifies_pure
          fun ⟨⟨⟨_, hCallee⟩, hOwn⟩, hCall⟩ => ?_
      refine certifiedForm_mk (fun _ => trivial)
        (fun hKnown => ?_) ⟨hCallee.obeys, hOwn.obeys⟩
        (hCallee.allows.append hOwn.allows)
      rcases hCall (hCallee.free hKnown) with
        ⟨hResult, parameters, hFunction, hAccepts⟩
      have hSlot := hCallee.slot
      rw [hFunction] at hSlot
      exact ⟨hResult, parameters, r.2, hSlot, hOwn.types,
        hAccepts⟩
  | .access left safe right, _, hFresh => by
      unfold resolveForm
      refine (certifies_resolveExpr left hFresh.1).bind
        fun r => ?_
      refine (certifies_resolveMember hFresh.2
        (certifies_memberArguments right hFresh.2) r.2 p).last
          fun _ => certifies_pure
            fun ⟨⟨_, hLeft⟩, hRight⟩ => ?_
      refine certifiedForm_mk (fun _ => trivial)
        (fun hKnown => ?_)
        ⟨hLeft.obeys, hRight.obeys hLeft.free⟩
        (hLeft.allows.append hRight.allows)
      rcases hRight.free hKnown (hLeft.free hKnown) with
        ⟨hResult, c, hContainer, hMember⟩
      have hSlot := hLeft.slot
      rw [hContainer] at hSlot
      exact ⟨hResult, c, hSlot, hMember⟩
  | .binary left operator right, _, hFresh => by
      unfold resolveForm
      refine (certifies_resolveExpr left hFresh.1).bind
        fun a => ?_
      refine (certifies_resolveExpr right
        hFresh.2).anyway.last fun b => ?_
      refine (certifies_binaryType operator a.2 b.2 p).last
        fun _ => certifies_pure
          fun ⟨⟨⟨_, hLeft⟩, hRight⟩, hType⟩ => ?_
      refine certifiedForm_mk (fun _ => trivial)
        (fun hKnown => ?_) ⟨hLeft.obeys, hRight.obeys⟩
        (hLeft.allows.append hRight.allows)
      have hGives :=
        hType (hLeft.free hKnown) (hRight.free hKnown)
      exact ⟨isErrorFree_of_binary (hLeft.free hKnown)
          (hRight.free hKnown) hGives,
        a.2, b.2, hLeft.slot, hRight.slot, hGives⟩
  | .unary operator operand, _, hOperand => by
      unfold resolveForm
      refine (certifies_resolveExpr operand hOperand).last
        fun a => ?_
      refine (certifies_unaryType operator a.2 p).last
        fun t => certifies_pure fun ⟨⟨_, hOwn⟩, hType⟩ => ?_
      refine certifiedForm_mk (fun _ => trivial)
        (fun hKnown => ?_) hOwn.obeys hOwn.allows
      rcases hType (hOwn.free hKnown) with ⟨rfl, hTakes⟩
      exact ⟨hOwn.free hKnown, hOwn.slot, hTakes⟩
  | .assignment target operator value, _, hFresh => by
      unfold resolveForm
      refine (certifies_resolveExpr target hFresh.1).bind
        fun a => ?_
      refine (certifies_resolveExpr value
        hFresh.2).anyway.last fun b => ?_
      refine (certifies_checkAssignment a.1 a.2 operator b.2
        _).last fun _ => certifies_pure
          fun ⟨⟨⟨_, hTarget⟩, hValue⟩, hStores⟩ => ?_
      refine certifiedForm_mk (fun _ => trivial)
        (fun hKnown => ⟨rfl, rfl, ?_⟩)
        ⟨hTarget.obeys, hValue.obeys⟩
        (hTarget.allows.append hValue.allows)
      rcases hStores (hTarget.free hKnown)
          (hValue.free hKnown) with
        ⟨hNamed, stored, hStored, hAccepts⟩
      exact ⟨a.2, b.2, stored, hTarget.slot, hValue.slot,
        isAssignable_of_certified hTarget.obeys hNamed hKnown,
        hStored, hAccepts⟩
  | .parenthesized inner, _, hInner => by
      unfold resolveForm
      refine (certifies_resolveExpr inner hInner).last
        fun _ => certifies_pure fun ⟨_, hOwn⟩ => ?_
      exact certifiedForm_mk (fun _ => trivial)
        (fun hKnown => ⟨hOwn.free hKnown, hOwn.slot⟩)
        hOwn.obeys hOwn.allows
  | .block statements scope, _, hStatements => by
      unfold resolveForm
      refine (certifies_resolveStatements .unit statements
        hStatements).last
          fun _ => certifies_pure fun ⟨_, hOwn⟩ => ?_
      exact certifiedForm_mk (fun _ => trivial)
        (fun hKnown => ⟨hOwn.free hKnown rfl, hOwn.slot⟩)
        hOwn.obeys hOwn.allows
  | .conditional condition thenBranch elseBranch, _,
      hFresh => by
      unfold resolveForm
      refine (certifies_resolveExpr condition hFresh.1).bind
        fun c => ?_
      refine (certifies_checkAssignable _ c.2 _).next
        fun _ => ?_
      refine (certifies_resolveExpr thenBranch
        hFresh.2.1).anyway.bind fun a => ?_
      refine (certifies_resolveOption elseBranch
        hFresh.2.2).anyway.last fun b => certifies_pure
          fun ⟨⟨⟨⟨_, hCondition⟩, hBoolean⟩, hThen⟩, hElse⟩ =>
            ?_
      refine certifiedForm_mk (fun _ => trivial)
        (fun hKnown => ⟨?_, c.2, a.2, hCondition.slot,
          hBoolean, hThen.slot, ?_⟩)
        ⟨hCondition.obeys, hThen.obeys, hElse.obeys⟩
        (hCondition.allows.append
          (hThen.allows.append hElse.allows))
      · split
        · exact hThen.free hKnown
        · rfl
      · rw [hElse.bind_type]
  | .function parameters returnType body scope, _,
      hFresh => by
      unfold resolveForm
      refine (certifies_parameterTypes hFresh.1).bind
        fun ds => ?_
      refine (certifies_resolveDefaults parameters
        hFresh.1).anyway.bind fun qs => ?_
      refine (certifies_resolveDeclared hFresh.2.1).next
        fun d => ?_
      refine (certifies_resolveExpr body
        hFresh.2.2).anyway.last fun b => ?_
      refine (certifies_checkBody d.2 b.2 _).last
        fun _ => certifies_pure
          fun ⟨⟨⟨⟨⟨_, hTypes⟩, hDefaults⟩, hDeclared⟩, hBody⟩,
            hFits⟩ => ?_
      have hFunction :
          IsFunctionType y (withTypes qs (ds.map (·.1)))
            d.1.type b.1
            (.function (ds.map (·.2)) (d.2.getD b.2)) := by
        rw [hDeclared.slot]
        exact isFunctionType_of_certified hTypes hDefaults.1
          hBody hFits
      refine ⟨fun hKnown => ⟨?_, hFunction⟩, hFunction,
        ⟨obey_withTypes hTypes hDefaults.1, hDeclared.obeys,
          hBody.obeys⟩,
        allows_withTypes hTypes hDefaults.1 hDefaults.2⟩
      refine Ty.isErrorFree_function.2
        ⟨free_of_certified hTypes hKnown, ?_⟩
      cases hResult : d.2 with
      | none => exact hBody.free hKnown
      | some t => exact hDeclared.free hKnown t hResult
  | .lambda parameters body scope, _, hFresh => by
      unfold resolveForm
      refine (certifies_parameterTypes hFresh.1).bind
        fun ds => ?_
      refine (certifies_resolveDefaults parameters
        hFresh.1).anyway.bind fun qs => ?_
      refine (certifies_resolveExpr body
        hFresh.2).anyway.last fun b => certifies_pure
          fun ⟨⟨⟨_, hTypes⟩, hDefaults⟩, hBody⟩ => ?_
      have hFunction :
          IsFunctionType y (withTypes qs (ds.map (·.1)))
            none b.1 (.function (ds.map (·.2)) b.2) :=
        isFunctionType_of_certified hTypes hDefaults.1 hBody
          nofun
      refine ⟨fun hKnown => ⟨?_, hFunction⟩, hFunction,
        ⟨obey_withTypes hTypes hDefaults.1, hBody.obeys⟩,
        allows_withTypes hTypes hDefaults.1 hDefaults.2⟩
      exact Ty.isErrorFree_function.2
        ⟨free_of_certified hTypes hKnown, hBody.free hKnown⟩
  | .ret none, _, _ => by
      unfold resolveForm
      cases hReturns : around.returns with
      | none =>
          refine certifies_pure fun _ =>
            certifiedForm_mk (fun _ => trivial)
              (fun _ => ⟨rfl, rfl⟩) trivial ?_
          intro expected hSome
          rw [hReturns] at hSome
          cases hSome
      | some expected =>
          refine (certifies_checkAssignable expected .unit
            p).last fun _ => certifies_pure
              fun ⟨_, hAccepts⟩ => ?_
          refine certifiedForm_mk (fun _ => trivial)
            (fun _ => ⟨rfl, rfl⟩) trivial ?_
          intro other hSome v hMember
          cases hReturns.symm.trans hSome
          cases List.mem_singleton.1 hMember
          exact ⟨.unit, rfl, hAccepts⟩
  | .ret (some value), _, hValue => by
      unfold resolveForm
      refine (certifies_resolveExpr value hValue).last
        fun r => ?_
      cases hReturns : around.returns with
      | none =>
          refine certifies_pure fun ⟨_, hOwn⟩ =>
            certifiedForm_mk (fun _ => trivial)
              (fun _ => ⟨rfl, rfl⟩) hOwn.obeys ?_
          intro expected hSome
          rw [hReturns] at hSome
          cases hSome
      | some expected =>
          refine (certifies_checkAssignable expected r.2
            _).last fun _ => certifies_pure
              fun ⟨⟨_, hOwn⟩, hAccepts⟩ => ?_
          refine certifiedForm_mk (fun _ => trivial)
            (fun _ => ⟨rfl, rfl⟩) hOwn.obeys ?_
          intro other hSome v hMember
          have hInner := hOwn.allows other hSome
          cases hReturns.symm.trans hSome
          rcases List.mem_cons.1 hMember with rfl | hMember
          · exact ⟨r.2, hOwn.slot, hAccepts⟩
          · exact hInner v hMember
termination_by structural form => form

theorem certifies_resolveExpr
    {around : Surroundings} :
    ∀ e : Expr,
      e.Obeys .fresh →
        Certifies y k True e.declared (resolveExpr around e)
          (CertifiedExpr y k around)
  | ⟨form, span, some type⟩, hFresh =>
      absurd hFresh.1.1 nofun
  | ⟨form, span, none⟩, hFresh => by
      unfold resolveExpr
      refine (certifies_resolveForm span.start form
        hFresh.1.2 hFresh.2).last fun r => certifies_pure
          fun ⟨_, hForm⟩ => ?_
      exact ⟨rfl, fun hKnown => (hForm.free hKnown).1,
        ⟨⟨r.2, rfl, hForm.honest, hForm.free⟩, hForm.obeys⟩,
        hForm.allows⟩
termination_by structural e => e

theorem certifies_memberArguments
    {around : Surroundings} :
    ∀ e : Expr,
      e.ObeysAside .fresh →
        ∀ name arguments target,
          e.form = .invocation name arguments target →
            Certifies y k True (argumentsDeclared arguments)
              (resolveArguments around arguments)
              (CertifiedArguments y k around)
  | ⟨form, _, _⟩, hFresh, _, _, _, hForm => by
      cases form with
      | invocation name arguments target =>
          have hOwn :
              Certifies y k True (argumentsDeclared arguments)
                (resolveArguments around arguments)
                (CertifiedArguments y k around) :=
            certifies_resolveArguments arguments hFresh.2
          cases hForm
          exact hOwn
      | _ => cases hForm
termination_by structural e => e

theorem certifies_resolveOption
    {around : Surroundings} :
    ∀ o : Option Expr,
      optionObeys .fresh o →
        Certifies y k True (optionDeclared o)
          (resolveOption around o)
          (CertifiedOption y k around o)
  | none, _ => by
      unfold resolveOption
      exact certifies_pure fun _ =>
        ⟨rfl, rfl, fun _ => nofun, trivial,
          Surroundings.allows_nil⟩
  | some e, hFresh => by
      unfold resolveOption
      refine (certifies_resolveExpr e hFresh).last
        fun r => certifies_pure fun ⟨_, hOwn⟩ => ?_
      refine ⟨rfl, congrArg some hOwn.slot, ?_, hOwn.obeys,
        hOwn.allows⟩
      rintro hKnown _ ⟨⟩
      exact hOwn.free hKnown
termination_by structural o => o

theorem certifies_resolveExprs
    {around : Surroundings} :
    ∀ es : List Expr,
      exprsObey .fresh es →
        Certifies y k True (exprsDeclared es)
          (resolveExprs around es)
          (fun fs =>
            exprsObey (.certified y k) fs ∧
              around.Allows (exprsReturns fs))
  | [], _ => by
      unfold resolveExprs
      exact certifies_pure fun _ =>
        ⟨trivial, Surroundings.allows_nil⟩
  | e :: es, hFresh => by
      unfold resolveExprs
      refine (certifies_resolveExpr e hFresh.1).bind
        fun r => ?_
      refine (certifies_resolveExprs es
        hFresh.2).anyway.last fun fs => certifies_pure
          fun ⟨⟨_, hFirst⟩, hOthers⟩ => ?_
      exact ⟨⟨hFirst.obeys, hOthers.1⟩,
        hFirst.allows.append hOthers.2⟩
termination_by structural es => es

theorem certifies_resolveArguments
    {around : Surroundings} :
    ∀ xs : List Argument,
      argumentsObey .fresh xs →
        Certifies y k True (argumentsDeclared xs)
          (resolveArguments around xs)
          (CertifiedArguments y k around)
  | [], _ => by
      unfold resolveArguments
      exact certifies_pure fun _ =>
        ⟨rfl, fun _ => nofun, trivial,
          Surroundings.allows_nil⟩
  | ⟨name, value, span⟩ :: xs, hFresh => by
      unfold resolveArguments
      refine (certifies_resolveExpr value hFresh.1).bind
        fun r => ?_
      refine (certifies_resolveArguments xs
        hFresh.2).anyway.last fun s => certifies_pure
          fun ⟨⟨_, hFirst⟩, hOthers⟩ => ?_
      refine ⟨?_, fun hKnown => List.forall_mem_cons.2
          ⟨hFirst.free hKnown, hOthers.free hKnown⟩,
        ⟨hFirst.obeys, hOthers.obeys⟩,
        hFirst.allows.append hOthers.allows⟩
      have hRest := hOthers.types
      unfold HaveTypes at hRest ⊢
      rw [List.map_cons, List.map_cons, hRest, hFirst.slot]
termination_by structural xs => xs

theorem certifies_resolveDefaults
    {around : Surroundings} :
    ∀ ps : List Parameter,
      parametersObey .fresh ps →
        Certifies y k True (defaultsDeclared ps)
          (resolveDefaults around ps)
          (fun qs =>
            List.Forall₂ (CertifiedDefault y k) ps qs ∧
              around.Allows (defaultsReturns qs))
  | [], _ => by
      unfold resolveDefaults
      exact certifies_pure fun _ =>
        ⟨.nil, Surroundings.allows_nil⟩
  | ⟨name, typeExpr, none, definition, span⟩ :: ps,
      hFresh => by
      unfold resolveDefaults
      refine (certifies_resolveDefaults ps hFresh.2).last
        fun qs => certifies_pure fun ⟨_, hOthers⟩ => ?_
      exact ⟨.cons ⟨rfl, nofun, trivial⟩ hOthers.1,
        hOthers.2⟩
  | ⟨name, typeExpr, some value, definition, span⟩ :: ps,
      hFresh => by
      unfold resolveDefaults
      refine (certifies_resolveExpr value
        hFresh.1.2.2).bind fun r => ?_
      refine (certifies_checkDefault definition r.2 _ _).next
        fun _ => ?_
      refine (certifies_resolveDefaults ps
        hFresh.2).anyway.last fun qs => certifies_pure
          fun ⟨⟨⟨_, hFirst⟩, t, hType, hAccepts⟩, hOthers⟩ =>
            ?_
      refine ⟨.cons ⟨rfl, ?_, hFirst.obeys⟩ hOthers.1,
        hFirst.allows.append hOthers.2⟩
      rintro _ ⟨⟩
      exact ⟨t, r.2, hType, hFirst.slot, hAccepts⟩
termination_by structural ps => ps

theorem certifies_resolveStatements
    {around : Surroundings}
    (last : Ty) :
    ∀ xs : List Statement,
      statementsObey .fresh xs →
        Certifies y k True (statementsDeclared xs)
          (resolveStatements around last xs)
          (CertifiedStatements y k around last)
  | [], _ => by
      unfold resolveStatements
      exact certifies_pure fun _ =>
        ⟨rfl, fun _ => id, trivial, Surroundings.allows_nil⟩
  | x :: xs, hFresh => by
      unfold resolveStatements
      refine (certifies_resolveStatement x hFresh.1).bind
        fun r => ?_
      refine (certifies_resolveStatements r.2 xs
        hFresh.2).anyway.last fun s => certifies_pure
          fun ⟨⟨_, hFirst⟩, hOthers⟩ => ?_
      refine ⟨?_, fun hKnown _ =>
          hOthers.free hKnown (hFirst.free hKnown),
        ⟨hFirst.obeys, hOthers.obeys⟩,
        hFirst.allows.append hOthers.allows⟩
      rw [lastType, hFirst.slot]
      exact hOthers.slot
termination_by structural xs => xs

theorem certifies_resolveStatement
    {around : Surroundings} :
    ∀ x : Statement,
      x.Obeys .fresh →
        Certifies y k True x.declared
          (resolveStatement around x)
          (CertifiedStatement y k around)
  | .expression e, hFresh => by
      unfold resolveStatement
      exact (certifies_resolveExpr e hFresh).last
        fun _ => certifies_pure fun ⟨_, hOwn⟩ =>
          ⟨hOwn.slot, hOwn.free, hOwn.obeys, hOwn.allows⟩
  | .variable v, hFresh => by
      unfold resolveStatement
      exact (certifies_resolveVariable v hFresh).last
        fun _ => certifies_pure fun ⟨_, hOwn⟩ =>
          ⟨rfl, fun _ => rfl, hOwn.1, hOwn.2⟩
  | .function f, hFresh => by
      unfold resolveStatement
      exact (certifies_resolveFunction f hFresh).last
        fun _ => certifies_pure fun ⟨_, hOwn⟩ =>
          ⟨rfl, fun _ => rfl, hOwn.1, hOwn.2⟩
termination_by structural x => x

theorem certifies_resolveVariable
    {around : Surroundings} :
    ∀ v : VariableDecl,
      v.Obeys .fresh →
        Certifies y k True v.declared
          (resolveVariable around v)
          (fun w =>
            w.Obeys (.certified y k) ∧
              around.Allows w.returns)
  | ⟨isMutable, name, typeExpr, initializer, definition,
      span⟩, hFresh => by
      unfold resolveVariable
      refine certifies_isResolved
        (List.mem_append_right _
          (List.mem_singleton_self definition))
        (fun z => .refl _ z) ?_
      refine (certifies_resolveDeclared hFresh.2.1).next
        fun d => ?_
      refine (certifies_resolveOption initializer
        hFresh.2.2).anyway.bind fun o => ?_
      refine (certifies_variableType name d.2 _ _).next
        fun type => ?_
      refine (certifies_fillType definition ?_).last
        fun _ => certifies_pure ?_
      · rintro ⟨⟨⟨-, hDeclared⟩, hOption⟩, hType⟩
        rw [hOption.map_initial] at hType
        exact free_of_isVariableType hDeclared hOption hType
      · rintro ⟨⟨⟨⟨-, hDeclared⟩, hOption⟩, hType⟩, hFilled⟩
        rw [hOption.map_initial] at hType
        exact ⟨⟨isTyped_of_isVariableType rfl rfl hDeclared
            hOption hType hFilled,
          hDeclared.obeys, hOption.obeys⟩, hOption.allows⟩
termination_by structural v => v

theorem certifies_resolveFunction
    {around : Surroundings} :
    ∀ f : FunctionDecl,
      f.Obeys .fresh →
        Certifies y k True f.declared
          (resolveFunction around f)
          (fun g =>
            g.Obeys (.certified y k) ∧
              around.Allows g.returns)
  | ⟨name, parameters, returnType, body, scope, definition,
      span⟩, hFresh => by
      unfold resolveFunction
      refine certifies_isResolved
        (List.mem_append_right _ List.mem_cons_self)
        (fun z => .refl _ z) ?_
      refine (certifies_parameterTypes hFresh.2.1).bind
        fun ds => ?_
      refine (certifies_resolveDeclared hFresh.2.2.1).next
        fun d => ?_
      refine (certifies_fillType definition ?_).bind
        fun _ => ?_
      · rintro ⟨⟨-, hTypes⟩, hDeclared⟩ hKnown
        refine Ty.isErrorFree_function.2
          ⟨free_of_certified hTypes hKnown, ?_⟩
        cases hResult : d.2 with
        | none => rfl
        | some t => exact hDeclared.free hKnown t hResult
      refine (certifies_resolveDefaults parameters
        hFresh.2.1).anyway.bind fun qs => ?_
      refine (certifies_resolveOption body
        hFresh.2.2.2).anyway.last fun b => ?_
      cases body with
      | none =>
          refine certifies_pure ?_
          rintro ⟨⟨⟨⟨⟨-, hTypes⟩, hDeclared⟩, hFilled⟩,
            hDefaults⟩, hBody⟩
          refine ⟨obeys_of_certified hTypes hDefaults.1
            hDeclared hBody ?_ hFilled,
            allows_withTypes hTypes hDefaults.1 hDefaults.2⟩
          intro s hSome
          have hThere := hBody.there
          rw [hSome] at hThere
          cases hThere
      | some e =>
          rcases b with ⟨body', received⟩
          cases received with
          | none =>
              exact certifies_pure fun hAll =>
                absurd hAll.2.there nofun
          | some type =>
              refine (certifies_checkBody d.2 type _).last
                fun _ => certifies_pure ?_
              rintro ⟨⟨⟨⟨⟨⟨-, hTypes⟩, hDeclared⟩, hFilled⟩,
                hDefaults⟩, hBody⟩, hFits⟩
              refine ⟨obeys_of_certified hTypes hDefaults.1
                hDeclared hBody ?_ hFilled,
                allows_withTypes hTypes hDefaults.1 hDefaults.2⟩
              rintro _ ⟨⟩
              exact hFits
termination_by structural f => f

end

------------------------------------------------------------
-- Declarations
------------------------------------------------------------

theorem certifies_resolveDeclaration
    (around : Surroundings)
    {d : Declaration}
    (hFresh : d.Obeys .fresh) :
    Certifies y k True d.declared
      (resolveDeclaration around d)
      (fun e => e.Obeys (.certified y k)) := by
  cases d with
  | function f =>
      exact (certifies_resolveFunction f hFresh).last
        fun _ => certifies_pure fun hBoth => hBoth.2.1
  | property v =>
      exact (certifies_resolveVariable v hFresh).last
        fun _ => certifies_pure fun hBoth => hBoth.2.1

/- All declarations of a program. -/
theorem certifies_declarations
    (around : Surroundings)
    {ds : List Declaration}
    (hFresh : ∀ d ∈ ds, d.Obeys .fresh) :
    Certifies y k True (ds.flatMap Declaration.declared)
      (ds.mapM (resolveDeclaration around))
      (fun es => ∀ e ∈ es, e.Obeys (.certified y k)) := by
  have hEach :
      Certifies y k True (ds.flatMap Declaration.declared)
        (ds.mapM (resolveDeclaration around))
        (List.Forall₂
          (fun _ e => Declaration.Obeys (.certified y k) e)
          ds) :=
    certifies_mapM fun d hMember =>
      certifies_resolveDeclaration around (hFresh d hMember)
  refine hEach.imp fun _ es hAll e hMember => ?_
  rcases exists_of_mem_right hAll e hMember with
    ⟨_, -, hObeys⟩
  exact hObeys

end SourceCheck
