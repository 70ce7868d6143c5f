import SourceCheck.Proofs.Syntax.Fresh
import SourceCheck.Proofs.Typing.Names
import SourceCheck.Resolution.Expression

/-
  What silent walks make of written types and parameters.

  Key definitions include:
    * `NodeRules.certified`

  Key theorems include:
    * `certifies_resolveDeclared`
    * `certifies_parameterTypes`
    * `certifies_checkAssignment`
-/

namespace SourceCheck

open SourceCheck.Resolver

variable {y : Symbols}
variable {k : Known}
variable {P : Prop}

------------------------------------------------------------
-- Rules
------------------------------------------------------------

/-
  All that is known of the nodes of a tree behind a silent
  walk.  Types have no errors in them, and expressions obey
  the rules of their forms, if what the program knows has no
  errors in it.
-/
def NodeRules.certified (y : Symbols) (k : Known) :
    NodeRules where
  ofExpr e :=
    ∃ t,
      e.type = some t ∧ e.form.IsHonest y t ∧
        (k.isErrorFree →
          t.isErrorFree ∧ e.form.Gives y k t)
  ofMember e :=
    ∃ t, e.type = some t ∧ (k.isErrorFree → t.isErrorFree)
  ofTypeExpr x :=
    x.IsFilled ∧ (k.isErrorFree → SlotErrorFree x.type)
  ofParameter p := p.IsTyped y
  ofVariable v := v.IsTyped y
  ofFunction f := f.IsTyped y

------------------------------------------------------------
-- Written types
------------------------------------------------------------

theorem certifies_remember
    {type : Ty}
    (text : String)
    (hFree : P → k.isErrorFree → type.isErrorFree) :
    Certifies y k P [] (remember text type)
      (fun _ => True) where
  grows z :=
    ⟨rfl, fun _ _ => id, fun _ _ => rfl, rfl, rfl,
      List.prefix_rfl⟩
  certified hAssumed z hReady _ _ := by
    refine ⟨⟨hReady.named, hReady.members_eq, ?_,
      hReady.definitions⟩, trivial⟩
    intro hKnown other t hFound
    have hStep :=
      TypeNames.findWritten?_remember z.types text other type
    have hOwn :
        (z.types.remember text type).findWritten? other =
          some t :=
      hFound
    rw [hStep] at hOwn
    split at hOwn
    · cases hOwn
      exact hFree hAssumed hKnown
    · exact hReady.written hKnown other t hOwn

/- What is remembered was found without errors before. -/
theorem certifies_remembered
    {action : Resolver Ty}
    (text : String)
    (hAction :
      Certifies y k P [] action
        (fun t => k.isErrorFree → t.isErrorFree)) :
    Certifies y k P [] (remembered text action)
      (fun t => k.isErrorFree → t.isErrorFree) := by
  unfold remembered
  refine certifies_get fun z => ?_
  split
  · rename_i t hFound
    exact certifies_pure fun ⟨_, hReady, _⟩ hFree =>
      hReady.written hFree text t hFound
  · refine (hAction.under And.left).last fun t => ?_
    exact (certifies_remember text fun hBoth => hBoth.2).last
      fun _ => certifies_pure fun hBoth => hBoth.1.2

theorem certifies_namedType
    (name : String)
    (p : Position) :
    Certifies y k P [] (namedType name p)
      (fun t => k.isErrorFree → t.isErrorFree) := by
  refine certifies_remembered name
    (certifies_get fun z => ?_)
  split
  · rename_i t hFound
    exact certifies_pure fun ⟨_, hReady, _⟩ hFree =>
      ((Known.isErrorFree_iff k).1 hFree).1 _
        (hReady.named name t hFound)
  · exact certifies_errorType_any _ p

/- Two types without errors are joined to one. -/
theorem isErrorFree_joinTypes
    {join : Ty → Ty → Ty}
    {a b : Ty}
    (hJoin :
      (join a b).isErrorFree =
        (a.isErrorFree && b.isErrorFree))
    (hLeft : a.isErrorFree)
    (hRight : b.isErrorFree) :
    (joinTypes join a b).isErrorFree := by
  unfold joinTypes
  rw [Ty.isError_of_isErrorFree hLeft,
    Ty.isError_of_isErrorFree hRight]
  simp only [Bool.false_eq_true, if_false, hJoin, hLeft,
    hRight, Bool.and_self]

/- A written type that is there has a type, all the way. -/
structure CertifiedType
    (y : Symbols)
    (k : Known)
    (r : TypeExpr × Ty) :
    Prop where
  slot : r.1.type = some r.2
  free : k.isErrorFree → r.2.isErrorFree
  obeys : r.1.Obeys (.certified y k)

theorem certifiedType_mk
    {form : TypeForm}
    {t : Ty}
    (span : Span)
    (hThere : form ≠ .absent)
    (hFree : k.isErrorFree → t.isErrorFree)
    (hForm : form.Obeys (.certified y k)) :
    CertifiedType y k (⟨form, span, some t⟩, t) where
  slot := rfl
  free := hFree
  obeys := by
    have hFilled :
        TypeExpr.IsFilled ⟨form, span, some t⟩ := by
      cases form with
      | absent => exact absurd rfl hThere
      | _ => exact ⟨nofun, nofun⟩
    refine ⟨⟨hFilled, ?_⟩, hForm⟩
    rintro hKnown _ ⟨⟩
    exact hFree hKnown

mutual

theorem certifies_resolveTypeForm
    (p : Position) :
    ∀ form : TypeForm,
      form.Obeys .fresh →
        form.IsWhole →
          form ≠ .absent →
            Certifies y k True [] (resolveTypeForm p form)
              (fun r =>
                r.1 ≠ .absent ∧
                  (k.isErrorFree → r.2.isErrorFree) ∧
                    r.1.Obeys (.certified y k))
  | .absent, _, _, hThere => absurd rfl hThere
  | .named name, _, _, _ => by
      unfold resolveTypeForm
      exact (certifies_namedType name p).last fun _ =>
        certifies_pure fun hBoth => ⟨nofun, hBoth.2, trivial⟩
  | .union left right, hFresh, hWhole, _ => by
      unfold resolveTypeForm
      refine (certifies_resolveTypeExpr left hFresh.1
        hWhole.1).last fun a => ?_
      refine (certifies_resolveTypeExpr right hFresh.2
        hWhole.2).anyway.last fun b => ?_
      refine (certifies_remembered _ (certifies_pure ?_)).last
        fun _ => certifies_pure ?_
      · rintro ⟨⟨-, hLeft⟩, hRight⟩ hFree
        exact isErrorFree_joinTypes
          (by simp only [Ty.isErrorFree])
          (hLeft.free hFree) (hRight.free hFree)
      · exact fun ⟨⟨⟨_, hLeft⟩, hRight⟩, hFree⟩ =>
          ⟨nofun, hFree, hLeft.obeys, hRight.obeys⟩
  | .intersection left right, hFresh, hWhole, _ => by
      unfold resolveTypeForm
      refine (certifies_resolveTypeExpr left hFresh.1
        hWhole.1).last fun a => ?_
      refine (certifies_resolveTypeExpr right hFresh.2
        hWhole.2).anyway.last fun b => ?_
      refine (certifies_remembered _ (certifies_pure ?_)).last
        fun _ => certifies_pure ?_
      · rintro ⟨⟨-, hLeft⟩, hRight⟩ hFree
        exact isErrorFree_joinTypes
          (by simp only [Ty.isErrorFree])
          (hLeft.free hFree) (hRight.free hFree)
      · exact fun ⟨⟨⟨_, hLeft⟩, hRight⟩, hFree⟩ =>
          ⟨nofun, hFree, hLeft.obeys, hRight.obeys⟩
termination_by structural form => form

theorem certifies_resolveTypeExpr :
    ∀ t : TypeExpr,
      t.IsFresh →
        t.isAbsent = false →
          Certifies y k True [] (resolveTypeExpr t)
            (CertifiedType y k)
  | ⟨form, span, some type⟩, hFresh, _ =>
      absurd hFresh.1.1 nofun
  | ⟨form, span, none⟩, hFresh, hThere => by
      unfold resolveTypeExpr
      refine (certifies_resolveTypeForm span.start form
        hFresh.2 hFresh.1.2 ?_).last fun r => certifies_pure ?_
      · rintro rfl
        cases hThere
      · exact fun ⟨_, hOther, hFree, hForm⟩ =>
          certifiedType_mk span hOther hFree hForm
termination_by structural t => t

end

/- A written type, which may be left out. -/
structure CertifiedDeclared
    (y : Symbols)
    (k : Known)
    (r : TypeExpr × Option Ty) :
    Prop where
  slot : r.1.type = r.2
  absent : r.2 = none → r.1.isAbsent
  free : k.isErrorFree → SlotErrorFree r.2
  obeys : r.1.Obeys (.certified y k)

theorem certifies_resolveDeclared
    {t : TypeExpr}
    (hFresh : t.IsFresh) :
    Certifies y k P [] (resolveDeclared t)
      (CertifiedDeclared y k) := by
  unfold resolveDeclared
  split
  · rename_i hAbsent
    refine certifies_pure fun _ => ?_
    rcases t with ⟨form, span, type⟩
    have hNone : type = none := hFresh.1.1
    subst hNone
    cases form with
    | absent =>
        exact ⟨rfl, fun _ => rfl, fun _ => nofun,
          ⟨⟨fun _ => rfl, fun _ => rfl⟩, fun _ => nofun⟩,
          trivial⟩
    | _ => cases hAbsent
  · rename_i hThere
    refine (certifies_resolveTypeExpr t hFresh
      (eq_false_of_ne_true hThere)).anyway.last fun r =>
        certifies_pure fun ⟨_, hType⟩ => ?_
    refine ⟨hType.slot, nofun, ?_, hType.obeys⟩
    rintro hFree _ ⟨⟩
    exact hType.free hFree

------------------------------------------------------------
-- Parameters
------------------------------------------------------------

/- The type of a parameter is that of its definition. -/
structure CertifiedParameter
    (y : Symbols)
    (k : Known)
    (p : Parameter)
    (r : TypeExpr × Ty) :
    Prop where
  slot : r.1.type = some r.2
  definition : y.type? p.definition = some r.2
  free : k.isErrorFree → r.2.isErrorFree
  obeys : r.1.Obeys (.certified y k)

theorem certifies_parameterType
    {p : Parameter}
    (hFresh : p.typeExpr.IsFresh) :
    Certifies y k P [p.definition] (parameterType p)
      (CertifiedParameter y k p) := by
  unfold parameterType
  refine (certifies_resolveDeclared hFresh).next
    fun r => ?_
  rcases r with ⟨typeExpr, declared⟩
  cases declared with
  | none =>
      refine (certifies_errorType _ p.span.start).next
        fun type => ?_
      exact (certifies_fillType p.definition
        fun hBoth => hBoth.2.elim).last fun _ =>
          certifies_pure fun hBoth => hBoth.1.2.elim
  | some type =>
      refine (certifies_fillType p.definition
        fun hBoth hFree => hBoth.2.free hFree _ rfl).last
          fun _ => certifies_pure fun ⟨⟨_, hType⟩, hFilled⟩ => ?_
      exact ⟨hType.slot, hFilled,
        fun hFree => hType.free hFree _ rfl, hType.obeys⟩

theorem certifies_parameterTypes
    {ps : List Parameter}
    (hFresh : parametersObey .fresh ps) :
    Certifies y k P (ps.map (·.definition))
      (ps.mapM parameterType)
      (List.Forall₂ (CertifiedParameter y k) ps) := by
  rw [List.map_eq_flatMap]
  exact certifies_mapM fun p hMember =>
    certifies_parameterType
      (typeExprs_obey hFresh p hMember)

theorem free_of_certified
    {ps : List Parameter}
    {ds : List (TypeExpr × Ty)}
    (hAll : List.Forall₂ (CertifiedParameter y k) ps ds)
    (hFree : k.isErrorFree) :
    ∀ t ∈ ds.map (·.2), t.isErrorFree := by
  induction hAll with
  | nil => exact nofun
  | cons hFirst _ ih =>
      exact List.forall_mem_cons.2 ⟨hFirst.free hFree, ih⟩

------------------------------------------------------------
-- Checks
------------------------------------------------------------

theorem certifies_checkDefault
    (id : DefinitionId)
    (received : Ty)
    (p q : Position) :
    Certifies y k P [] (checkDefault id received p q)
      (fun _ =>
        ∃ t, y.type? id = some t ∧ t.accepts received) := by
  unfold checkDefault
  refine (certifies_definitionType id p).last fun t => ?_
  exact (certifies_checkAssignable t received q).imp
    fun ⟨_, hType, _⟩ _ hAccepts => ⟨t, hType, hAccepts⟩

theorem certifies_checkBody
    (declared : Option Ty)
    (received : Ty)
    (p : Position) :
    Certifies y k P [] (checkBody declared received p)
      (fun _ =>
        ∀ t,
          declared = some t →
            t ≠ .unit → t.accepts received) := by
  unfold checkBody
  cases declared with
  | none => exact certifies_pure fun _ => nofun
  | some expected =>
      dsimp only
      split
      · refine (certifies_checkAssignable expected received
          p).imp ?_
        rintro _ _ hAccepts _ ⟨⟩ _
        exact hAccepts
      · rename_i hUnit
        refine certifies_pure fun _ => ?_
        rintro _ ⟨⟩ hNot
        exact absurd hNot hUnit

/-
  The type of a variable, from the one that is declared and
  the one of its initial value.
-/
def IsVariableType
    (declared received : Option Ty)
    (t : Ty) :
    Prop :=
  match declared with
  | some expected =>
      t = expected ∧
        ∀ s, received = some s → expected.accepts s
  | none => received = some t

theorem certifies_variableType
    (name : String)
    (declared : Option Ty)
    (initial : Option (Ty × Position))
    (p : Position) :
    Certifies y k P [] (variableType name declared initial p)
      (IsVariableType declared (initial.map (·.1))) := by
  unfold variableType
  cases declared with
  | none =>
      cases initial with
      | none => exact certifies_errorType_any _ p
      | some r => exact certifies_pure fun _ => rfl
  | some type =>
      cases initial with
      | none => exact certifies_pure fun _ => ⟨rfl, nofun⟩
      | some r =>
          refine (certifies_checkAssignable type r.1 r.2).last
            fun _ => certifies_pure fun hBoth => ⟨rfl, ?_⟩
          rintro s ⟨⟩
          exact hBoth.2

/-
  A silent assignment stores a value that fits.  The target
  is one that may be assigned to.
-/
/- The value that is stored has to fit. -/
def checkStored
    (a : Ty)
    (o : AssignmentOperator)
    (b : Ty)
    (p : Position) :
    Resolver Unit :=
  match o.binary? with
  | some o =>
      binaryType o a b p >>= fun stored =>
        checkAssignable a stored p
  | none => checkAssignable a b p

theorem certifies_checkStored
    (a : Ty)
    (o : AssignmentOperator)
    (b : Ty)
    (p : Position) :
    Certifies y k P [] (checkStored a o b p)
      (fun _ =>
        a.isErrorFree →
          b.isErrorFree →
            ∃ stored,
              o.stored? a b = some stored ∧
                a.accepts stored) := by
  unfold checkStored AssignmentOperator.stored?
  cases o.binary? with
  | none =>
      exact (certifies_checkAssignable a b p).imp
        fun _ _ hAccepts _ _ => ⟨b, rfl, hAccepts⟩
  | some o =>
      refine (certifies_binaryType o a b p).last
        fun stored => ?_
      exact (certifies_checkAssignable a stored p).imp
        fun hBoth _ hAccepts hLeft hRight =>
          ⟨stored, hBoth.2 hLeft hRight, hAccepts⟩

theorem certifies_checkAssignment
    (target : Expr)
    (a : Ty)
    (o : AssignmentOperator)
    (b : Ty)
    (p : Position) :
    Certifies y k P [] (checkAssignment target a o b p)
      (fun _ =>
        a.isErrorFree →
          b.isErrorFree →
            target.IsTarget y ∧
              ∃ stored,
                o.stored? a b = some stored ∧
                  a.accepts stored) := by
  have hRest {O : Prop} :=
    certifies_checkStored (k := k) (y := y) (P := O) a o b p
  unfold checkAssignment
  cases hError : a.isError with
  | true =>
      refine hRest.imp ?_
      intro _ _ _ hFree
      rw [Ty.isError_of_isErrorFree hFree] at hError
      cases hError
  | false =>
      refine (certifies_checkTarget target).last fun _ => ?_
      refine hRest.imp ?_
      intro hBoth _ hStored hLeft hRight
      exact ⟨hBoth.2, hStored hLeft hRight⟩

end SourceCheck
