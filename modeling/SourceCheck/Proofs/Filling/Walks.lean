import SourceCheck.Proofs.Filling.Slots
import SourceCheck.Proofs.Typing.Walks

/-
  Walks fill every slot.

  Whatever is reported on the way, a walk over a tree as it
  was read gives a type to each node of the tree and to each
  definition in it, and changes nothing else: where something
  is wrong, an error type stands in the slot.

  Key definitions include:
    * `NodeRules.filled`
    * `Filling`
    * `Fills`

  Key theorems include:
    * `Fills.bind`
    * `fills_resolveExpr`
    * `fills_resolveFunction`
    * `fills_declarations`
-/

namespace SourceCheck

open SourceCheck.Resolver

------------------------------------------------------------
-- Rules
------------------------------------------------------------

/-
  Each expression has a type, and each written type that is
  not left out.
-/
def NodeRules.filled : NodeRules where
  ofExpr e := e.type.isSome
  ofMember e := e.type.isSome
  ofTypeExpr t := t.IsFilled
  ofParameter _ := True
  ofVariable _ := True
  ofFunction _ := True

------------------------------------------------------------
-- Resolvers
------------------------------------------------------------

variable {α β : Type}
variable {xs ys : List DefinitionId}

/- Exactly these definitions got types. -/
structure Filling
    (ids : List DefinitionId)
    (z w : ResolverState) : Prop
    extends Growth ids z w where
  filled : ∀ id ∈ ids, (w.symbols.type? id).isSome

theorem Filling.trans
    {z w v : ResolverState}
    (hFirst : Filling xs z w)
    (hSecond : Filling ys w v) :
    Filling (xs ++ ys) z v where
  toGrowth := hFirst.toGrowth.trans hSecond.toGrowth
  filled id hMember := by
    rcases List.mem_append.1 hMember with hMember | hMember
    · rcases Option.isSome_iff_exists.1
          (hFirst.filled id hMember) with ⟨t, hType⟩
      rw [hSecond.keeps id t hType]
      rfl
    · exact hSecond.filled id hMember

/-
  If the definitions await their types, they get them, and
  the result has the property.
-/
def Fills
    (ids : List DefinitionId)
    (p : Resolver α)
    (Q : α → Prop) :
    Prop :=
  ∀ z,
    Awaits ids z →
      Filling ids z (p.outcome z).2 ∧ Q (p.outcome z).1

section Fills

variable {p : Resolver α}
variable {f : α → Resolver β}
variable {Q : α → Prop}
variable {R : β → Prop}

theorem fills_pure
    {a : α}
    (hResult : Q a) :
    Fills [] (pure a) Q :=
  fun z _ => ⟨⟨.refl [] z, nofun⟩, hResult⟩

/- One walk after another. -/
theorem Fills.bind
    (hFirst : Fills xs p Q)
    (hRest : ∀ a, Q a → Fills ys (f a) R) :
    Fills (xs ++ ys) (p >>= f) R := by
  intro z hAwaits
  rw [outcome_bind]
  rcases hFirst z hAwaits.first with ⟨hFilling, hResult⟩
  rcases hRest _ hResult _
      (hAwaits.rest hFilling.toGrowth) with
    ⟨hOthers, hLast⟩
  exact ⟨hFilling.trans hOthers, hLast⟩

/- The first walk gives no types to definitions. -/
theorem Fills.next
    (hFirst : Fills [] p Q)
    (hRest : ∀ a, Q a → Fills ys (f a) R) :
    Fills ys (p >>= f) R :=
  hFirst.bind hRest

/- No definition is left for the second walk. -/
theorem Fills.last
    (hFirst : Fills xs p Q)
    (hRest : ∀ a, Q a → Fills [] (f a) R) :
    Fills xs (p >>= f) R := by
  have hBoth := hFirst.bind hRest
  rw [List.append_nil] at hBoth
  exact hBoth

/- Walks over the parts of a list, one by one. -/
theorem fills_mapM
    {as : List α}
    {g : α → Resolver β}
    {ids : α → List DefinitionId}
    {S : α → β → Prop}
    (hEach : ∀ a ∈ as, Fills (ids a) (g a) (S a)) :
    Fills (as.flatMap ids) (as.mapM g)
      (List.Forall₂ S as) := by
  induction as with
  | nil => exact fills_pure .nil
  | cons a as ih =>
      rw [List.mapM_cons, List.flatMap_cons]
      refine (hEach a List.mem_cons_self).bind
        fun b hFirst => ?_
      have hOthers :=
        ih fun c hMember =>
          hEach c (List.mem_cons_of_mem _ hMember)
      exact hOthers.last fun bs hAll =>
        fills_pure (.cons hFirst hAll)

/-
  What certifies anything gives no types but those that it
  should, whatever may be assumed.
-/
theorem fills_of_certifies
    {S : Symbols → Known → α → Prop}
    (hCertifies :
      ∀ y k, Certifies y k False [] p (S y k)) :
    Fills [] p (fun _ => True) := by
  intro z _
  have hGrowth :=
    (hCertifies .empty ⟨[], .empty⟩).grows z
  exact ⟨⟨hGrowth, nofun⟩, trivial⟩

end Fills

/- A definition that awaits its type gets one. -/
theorem fills_fillType
    (id : DefinitionId)
    (type : Ty) :
    Fills [id] (fillType id type) (fun _ => True) := by
  intro z hAwaits
  have hGrowth :
      Growth [id] z ((fillType id type).outcome z).2 :=
    (certifies_fillType (y := z.symbols)
      (k := ⟨[], .empty⟩) (P := False) id
      False.elim).grows z
  refine ⟨⟨hGrowth, fun other hMember => ?_⟩, trivial⟩
  cases List.mem_singleton.1 hMember
  have hFilled :
      (z.symbols.fillType id type).type? id = some type :=
    type?_fillType_of_none (hAwaits.lt_size id hMember)
      (hAwaits.untyped id hMember) type
  exact Option.isSome_iff_exists.2 ⟨type, hFilled⟩

/- A definition that awaits its type is not known yet. -/
theorem fills_isResolved
    {id : DefinitionId}
    {f : Bool → Resolver β}
    {R : β → Prop}
    (hMember : id ∈ xs)
    (hRest : Fills xs (f false) R) :
    Fills xs (isResolved id >>= f) R := by
  intro z hAwaits
  rw [outcome_isResolved_bind, hAwaits.untyped id hMember]
  exact hRest z hAwaits

------------------------------------------------------------
-- Written types
------------------------------------------------------------

theorem isFilled_of_there
    {form : TypeForm}
    (hThere : form ≠ .absent)
    (span : Span)
    (t : Ty) :
    TypeExpr.IsFilled ⟨form, span, some t⟩ := by
  cases form with
  | absent => exact absurd rfl hThere
  | _ => exact ⟨nofun, nofun⟩

mutual

theorem fills_resolveTypeForm
    (p : Position) :
    ∀ form : TypeForm,
      form.Obeys .parsed →
        form.IsWhole →
          form ≠ .absent →
            Fills [] (resolveTypeForm p form)
              (fun r =>
                form.FillsTo r.1 ∧ r.1.Obeys .filled)
  | .absent, _, _, hThere => absurd rfl hThere
  | .named name, _, _, _ => by
      unfold resolveTypeForm
      refine (fills_of_certifies fun y k =>
        certifies_namedType name p).last fun _ _ => ?_
      exact fills_pure ⟨.named, trivial⟩
  | .union left right, hParsed, hWhole, _ => by
      unfold resolveTypeForm
      refine (fills_resolveTypeExpr left hParsed.1
        hWhole.1).last fun a hLeft => ?_
      refine (fills_resolveTypeExpr right hParsed.2
        hWhole.2).last fun b hRight => ?_
      refine (fills_of_certifies fun y k =>
        certifies_remembered _
          (certifies_pure False.elim)).last fun _ _ => ?_
      exact fills_pure ⟨.union hLeft.1 hRight.1, hLeft.2,
        hRight.2⟩
  | .intersection left right, hParsed, hWhole, _ => by
      unfold resolveTypeForm
      refine (fills_resolveTypeExpr left hParsed.1
        hWhole.1).last fun a hLeft => ?_
      refine (fills_resolveTypeExpr right hParsed.2
        hWhole.2).last fun b hRight => ?_
      refine (fills_of_certifies fun y k =>
        certifies_remembered _
          (certifies_pure False.elim)).last fun _ _ => ?_
      exact fills_pure ⟨.intersection hLeft.1 hRight.1,
        hLeft.2, hRight.2⟩
termination_by structural form => form

theorem fills_resolveTypeExpr :
    ∀ t : TypeExpr,
      t.Obeys .parsed →
        t.isAbsent = false →
          Fills [] (resolveTypeExpr t)
            (fun r => t.FillsTo r.1 ∧ r.1.Obeys .filled)
  | ⟨form, span, some type⟩, hParsed, _ =>
      absurd hParsed.1.1 nofun
  | ⟨form, span, none⟩, hParsed, hPresent => by
      have hThere : form ≠ .absent := by
        rintro rfl
        cases hPresent
      unfold resolveTypeExpr
      refine (fills_resolveTypeForm span.start form hParsed.2
        hParsed.1.2 hThere).last fun r hForm =>
          fills_pure ⟨.intro hForm.1 (.none _), ?_, hForm.2⟩
      exact isFilled_of_there (hForm.1.ne_absent hThere) span
        r.2
termination_by structural t => t

end

theorem fills_resolveDeclared
    {t : TypeExpr}
    (hParsed : t.Obeys .parsed) :
    Fills [] (resolveDeclared t)
      (fun r => t.FillsTo r.1 ∧ r.1.Obeys .filled) := by
  unfold resolveDeclared
  split
  · rename_i hAbsent
    rcases t with ⟨form, span, type⟩
    have hNone : type = none := hParsed.1.1
    subst hNone
    cases form with
    | absent =>
        exact fills_pure ⟨.refl _,
          ⟨fun _ => rfl, fun _ => rfl⟩, trivial⟩
    | _ => cases hAbsent
  · rename_i hThere
    exact (fills_resolveTypeExpr t hParsed
      (eq_false_of_ne_true hThere)).last fun _ hType =>
        fills_pure hType

------------------------------------------------------------
-- Parameters
------------------------------------------------------------

/- The written type of a parameter is filled. -/
def FilledType (p : Parameter) (r : TypeExpr × Ty) : Prop :=
  p.typeExpr.FillsTo r.1 ∧ r.1.Obeys .filled

/- So is its default, and nothing else is changed. -/
structure FilledDefault (p q : Parameter) : Prop where
  same : q = { p with fallback := q.fallback }
  fills : Option.Rel Expr.FillsTo p.fallback q.fallback
  filled : optionObeys .filled q.fallback

theorem fills_parameterType
    {p : Parameter}
    (hParsed : p.typeExpr.Obeys .parsed) :
    Fills [p.definition] (parameterType p)
      (FilledType p) := by
  unfold parameterType
  refine (fills_resolveDeclared hParsed).next
    fun r hType => ?_
  rcases r with ⟨typeExpr, declared⟩
  cases declared with
  | none =>
      refine (fills_of_certifies fun y k =>
        certifies_errorType _ p.span.start).next
          fun type _ => ?_
      exact (fills_fillType p.definition type).last
        fun _ _ => fills_pure hType
  | some type =>
      exact (fills_fillType p.definition type).last
        fun _ _ => fills_pure hType

theorem fills_parameterTypes
    {ps : List Parameter}
    (hParsed : parametersObey .parsed ps) :
    Fills (ps.map (·.definition)) (ps.mapM parameterType)
      (List.Forall₂ FilledType ps) := by
  rw [List.map_eq_flatMap]
  exact fills_mapM fun p hMember =>
    fills_parameterType (typeExprs_obey hParsed p hMember)

/- Parameters with their written types and defaults filled. -/
theorem filled_withTypes
    {ps qs : List Parameter}
    {ds : List (TypeExpr × Ty)}
    (hTypes : List.Forall₂ FilledType ps ds)
    (hDefaults : List.Forall₂ FilledDefault ps qs) :
    List.Forall₂ Parameter.FillsTo ps
        (withTypes qs (ds.map (·.1))) ∧
      parametersObey .filled
        (withTypes qs (ds.map (·.1))) := by
  induction hTypes generalizing qs with
  | nil =>
      cases hDefaults
      exact ⟨.nil, trivial⟩
  | @cons p d ps ds hType _ ih =>
      cases hDefaults with
      | @cons _ q _ qs hDefault hOthers =>
          rcases ih hOthers with ⟨hFills, hFilled⟩
          have hSame := hDefault.same
          rcases q with ⟨name, typeExpr, fallback, id, span⟩
          cases p
          cases hSame
          exact ⟨.cons (.intro hType.1 hDefault.fills) hFills,
            ⟨trivial, hType.2, hDefault.filled⟩, hFilled⟩

------------------------------------------------------------
-- Members
------------------------------------------------------------

/- The right side of an access, if its arguments are walked. -/
theorem fills_resolveMember
    {around : Surroundings}
    {e : Expr}
    (hParsed : e.ObeysAside .parsed)
    (hArguments :
      ∀ name arguments target,
        e.form = .invocation name arguments target →
          Fills (argumentsDeclared arguments)
            (resolveArguments around arguments)
            (fun r =>
              List.Forall₂ Argument.FillsTo arguments r.1 ∧
                argumentsObey .filled r.1))
    (left : Ty)
    (p : Position) :
    Fills e.declared (resolveMember around left p e)
      (fun r => e.FillsTo r.1 ∧ r.1.ObeysAside .filled) := by
  unfold resolveMember
  split
  · rename_i name arguments target span type
    have hTarget : target = .unknown := hParsed.1.1.2
    have hType : type = none := hParsed.1.1.1
    subst hTarget hType
    refine (hArguments name arguments _ rfl).last
      fun r hOwn => ?_
    refine (fills_of_certifies fun y k =>
      certifies_memberCall left name r.2 p _).last
        fun _ _ => fills_pure ?_
    exact ⟨.intro (.invocation hOwn.1 (.unknown _)) (.none _),
      rfl, hOwn.2⟩
  · rename_i name target span type
    have hTarget : target = .unknown := hParsed.1.1.2
    have hType : type = none := hParsed.1.1.1
    subst hTarget hType
    refine (fills_of_certifies fun y k =>
      certifies_memberProperty left name p _).last
        fun _ _ => fills_pure ?_
    exact ⟨.intro (.reference (.unknown _)) (.none _), rfl,
      trivial⟩
  · rename_i form span type hInvocation hReference
    have hIs := hParsed.1.2
    cases form with
    | invocation _ _ _ => exact (hInvocation _ _ _ rfl).elim
    | reference _ _ => exact (hReference _ _ rfl).elim
    | _ => cases hIs

------------------------------------------------------------
-- Trees
------------------------------------------------------------

mutual

theorem fills_resolveForm
    {around : Surroundings}
    (p : Position) :
    ∀ form : ExprForm,
      form.IsUnbound →
        form.Obeys .parsed →
          Fills form.declared (resolveForm around p form)
            (fun r => form.FillsTo r.1 ∧ r.1.Obeys .filled)
  | .int _, _, _ => by
      unfold resolveForm
      exact fills_pure ⟨.int, trivial⟩
  | .long _, _, _ => by
      unfold resolveForm
      exact fills_pure ⟨.long, trivial⟩
  | .boolean _, _, _ => by
      unfold resolveForm
      exact fills_pure ⟨.boolean, trivial⟩
  | .string _, _, _ => by
      unfold resolveForm
      exact fills_pure ⟨.string, trivial⟩
  | .template parts, _, hParts => by
      unfold resolveForm
      exact (fills_resolveExprs parts hParts).last
        fun _ hOwn => fills_pure ⟨.template hOwn.1, hOwn.2⟩
  | .reference name target, hTarget, _ => by
      have hUnknown : target = .unknown := hTarget
      subst hUnknown
      unfold resolveForm
      exact (fills_of_certifies fun y k =>
        certifies_reference around name p).last
          fun _ _ =>
            fills_pure ⟨.reference (.unknown _), trivial⟩
  | .invocation name arguments target, hTarget,
      hArguments => by
      have hUnknown : target = .unknown := hTarget
      subst hUnknown
      unfold resolveForm
      refine (fills_resolveArguments arguments
        hArguments).last fun r hOwn => ?_
      exact (fills_of_certifies fun y k =>
        certifies_invocation around name r.2 p).last
          fun _ _ => fills_pure
            ⟨.invocation hOwn.1 (.unknown _), hOwn.2⟩
  | .call callee arguments, _, hParsed => by
      unfold resolveForm
      refine (fills_resolveExpr callee hParsed.1).bind
        fun c hCallee => ?_
      refine (fills_resolveArguments arguments
        hParsed.2).last fun r hOwn => ?_
      exact (fills_of_certifies fun y k =>
        certifies_callType "" c.2 r.2 p).last
          fun _ _ => fills_pure
            ⟨.call hCallee.1 hOwn.1, hCallee.2, hOwn.2⟩
  | .access left safe right, _, hParsed => by
      unfold resolveForm
      refine (fills_resolveExpr left hParsed.1).bind
        fun r hLeft => ?_
      exact (fills_resolveMember hParsed.2
        (fills_memberArguments right hParsed.2) r.2 p).last
          fun _ hRight => fills_pure
            ⟨.access hLeft.1 hRight.1, hLeft.2, hRight.2⟩
  | .binary left operator right, _, hParsed => by
      unfold resolveForm
      refine (fills_resolveExpr left hParsed.1).bind
        fun a hLeft => ?_
      refine (fills_resolveExpr right hParsed.2).last
        fun b hRight => ?_
      exact (fills_of_certifies fun y k =>
        certifies_binaryType operator a.2 b.2 p).last
          fun _ _ => fills_pure
            ⟨.binary hLeft.1 hRight.1, hLeft.2, hRight.2⟩
  | .unary operator operand, _, hOperand => by
      unfold resolveForm
      refine (fills_resolveExpr operand hOperand).last
        fun a hOwn => ?_
      exact (fills_of_certifies fun y k =>
        certifies_unaryType operator a.2 p).last
          fun _ _ => fills_pure ⟨.unary hOwn.1, hOwn.2⟩
  | .assignment target operator value, _, hParsed => by
      unfold resolveForm
      refine (fills_resolveExpr target hParsed.1).bind
        fun a hTarget => ?_
      refine (fills_resolveExpr value hParsed.2).last
        fun b hValue => ?_
      exact (fills_of_certifies fun y k =>
        certifies_checkAssignment a.1 a.2 operator b.2
          _).last
          fun _ _ => fills_pure
            ⟨.assignment hTarget.1 hValue.1, hTarget.2,
              hValue.2⟩
  | .parenthesized inner, _, hInner => by
      unfold resolveForm
      exact (fills_resolveExpr inner hInner).last
        fun _ hOwn =>
          fills_pure ⟨.parenthesized hOwn.1, hOwn.2⟩
  | .block statements scope, _, hStatements => by
      unfold resolveForm
      exact (fills_resolveStatements .unit statements
        hStatements).last
          fun _ hOwn => fills_pure ⟨.block hOwn.1, hOwn.2⟩
  | .conditional condition thenBranch elseBranch, _,
      hParsed => by
      unfold resolveForm
      refine (fills_resolveExpr condition hParsed.1).bind
        fun c hCondition => ?_
      refine (fills_of_certifies fun y k =>
        certifies_checkAssignable _ c.2 _).next
          fun _ _ => ?_
      refine (fills_resolveExpr thenBranch
        hParsed.2.1).bind fun a hThen => ?_
      exact (fills_resolveOption elseBranch
        hParsed.2.2).last fun b hElse => fills_pure
          ⟨.conditional hCondition.1 hThen.1 hElse.1,
            hCondition.2, hThen.2, hElse.2⟩
  | .function parameters returnType body scope, _,
      hParsed => by
      unfold resolveForm
      refine (fills_parameterTypes hParsed.1).bind
        fun ds hTypes => ?_
      refine (fills_resolveDefaults parameters
        hParsed.1).bind fun qs hDefaults => ?_
      refine (fills_resolveDeclared hParsed.2.1).next
        fun d hDeclared => ?_
      refine (fills_resolveExpr body hParsed.2.2).last
        fun b hBody => ?_
      refine (fills_of_certifies fun y k =>
        certifies_checkBody d.2 b.2 _).last
          fun _ _ => fills_pure ?_
      have hOwn := filled_withTypes hTypes hDefaults
      exact ⟨.function hOwn.1 hDeclared.1 hBody.1, hOwn.2,
        hDeclared.2, hBody.2⟩
  | .lambda parameters body scope, _, hParsed => by
      unfold resolveForm
      refine (fills_parameterTypes hParsed.1).bind
        fun ds hTypes => ?_
      refine (fills_resolveDefaults parameters
        hParsed.1).bind fun qs hDefaults => ?_
      refine (fills_resolveExpr body hParsed.2).last
        fun b hBody => fills_pure ?_
      have hOwn := filled_withTypes hTypes hDefaults
      exact ⟨.lambda hOwn.1 hBody.1, hOwn.2, hBody.2⟩
  | .ret none, _, _ => by
      unfold resolveForm
      cases around.returns with
      | none => exact fills_pure ⟨.ret .none, trivial⟩
      | some expected =>
          exact (fills_of_certifies fun y k =>
            certifies_checkAssignable expected .unit p).last
              fun _ _ => fills_pure ⟨.ret .none, trivial⟩
  | .ret (some value), _, hValue => by
      unfold resolveForm
      refine (fills_resolveExpr value hValue).last
        fun r hOwn => ?_
      cases around.returns with
      | none =>
          exact fills_pure ⟨.ret (.some hOwn.1), hOwn.2⟩
      | some expected =>
          exact (fills_of_certifies fun y k =>
            certifies_checkAssignable expected r.2 _).last
              fun _ _ =>
                fills_pure ⟨.ret (.some hOwn.1), hOwn.2⟩
termination_by structural form => form

theorem fills_resolveExpr
    {around : Surroundings} :
    ∀ e : Expr,
      e.Obeys .parsed →
        Fills e.declared (resolveExpr around e)
          (fun r => e.FillsTo r.1 ∧ r.1.Obeys .filled)
  | ⟨form, span, some type⟩, hParsed =>
      absurd hParsed.1.1 nofun
  | ⟨form, span, none⟩, hParsed => by
      unfold resolveExpr
      exact (fills_resolveForm span.start form hParsed.1.2
        hParsed.2).last fun _ hForm => fills_pure
          ⟨.intro hForm.1 (.none _), rfl, hForm.2⟩
termination_by structural e => e

theorem fills_memberArguments
    {around : Surroundings} :
    ∀ e : Expr,
      e.ObeysAside .parsed →
        ∀ name arguments target,
          e.form = .invocation name arguments target →
            Fills (argumentsDeclared arguments)
              (resolveArguments around arguments)
              (fun r =>
                List.Forall₂ Argument.FillsTo arguments
                    r.1 ∧
                  argumentsObey .filled r.1)
  | ⟨form, _, _⟩, hParsed, _, _, _, hForm => by
      cases form with
      | invocation name arguments target =>
          have hOwn :
              Fills (argumentsDeclared arguments)
                (resolveArguments around arguments) _ :=
            fills_resolveArguments arguments hParsed.2
          cases hForm
          exact hOwn
      | _ => cases hForm
termination_by structural e => e

theorem fills_resolveOption
    {around : Surroundings} :
    ∀ o : Option Expr,
      optionObeys .parsed o →
        Fills (optionDeclared o) (resolveOption around o)
          (fun r =>
            Option.Rel Expr.FillsTo o r.1 ∧
              optionObeys .filled r.1)
  | none, _ => by
      unfold resolveOption
      exact fills_pure ⟨.none, trivial⟩
  | some e, hParsed => by
      unfold resolveOption
      exact (fills_resolveExpr e hParsed).last
        fun _ hOwn => fills_pure ⟨.some hOwn.1, hOwn.2⟩
termination_by structural o => o

theorem fills_resolveExprs
    {around : Surroundings} :
    ∀ es : List Expr,
      exprsObey .parsed es →
        Fills (exprsDeclared es) (resolveExprs around es)
          (fun fs =>
            List.Forall₂ Expr.FillsTo es fs ∧
              exprsObey .filled fs)
  | [], _ => by
      unfold resolveExprs
      exact fills_pure ⟨.nil, trivial⟩
  | e :: es, hParsed => by
      unfold resolveExprs
      refine (fills_resolveExpr e hParsed.1).bind
        fun r hFirst => ?_
      exact (fills_resolveExprs es hParsed.2).last
        fun _ hOthers => fills_pure
          ⟨.cons hFirst.1 hOthers.1, hFirst.2, hOthers.2⟩
termination_by structural es => es

theorem fills_resolveArguments
    {around : Surroundings} :
    ∀ xs : List Argument,
      argumentsObey .parsed xs →
        Fills (argumentsDeclared xs)
          (resolveArguments around xs)
          (fun r =>
            List.Forall₂ Argument.FillsTo xs r.1 ∧
              argumentsObey .filled r.1)
  | [], _ => by
      unfold resolveArguments
      exact fills_pure ⟨.nil, trivial⟩
  | ⟨name, value, span⟩ :: xs, hParsed => by
      unfold resolveArguments
      refine (fills_resolveExpr value hParsed.1).bind
        fun r hFirst => ?_
      exact (fills_resolveArguments xs hParsed.2).last
        fun _ hOthers => fills_pure
          ⟨.cons (.intro hFirst.1) hOthers.1, hFirst.2,
            hOthers.2⟩
termination_by structural xs => xs

theorem fills_resolveDefaults
    {around : Surroundings} :
    ∀ ps : List Parameter,
      parametersObey .parsed ps →
        Fills (defaultsDeclared ps)
          (resolveDefaults around ps)
          (List.Forall₂ FilledDefault ps)
  | [], _ => by
      unfold resolveDefaults
      exact fills_pure .nil
  | ⟨name, typeExpr, none, definition, span⟩ :: ps,
      hParsed => by
      unfold resolveDefaults
      exact (fills_resolveDefaults ps hParsed.2).last
        fun _ hOthers => fills_pure
          (.cons ⟨rfl, .none, trivial⟩ hOthers)
  | ⟨name, typeExpr, some value, definition, span⟩ :: ps,
      hParsed => by
      unfold resolveDefaults
      refine (fills_resolveExpr value hParsed.1.2.2).bind
        fun r hFirst => ?_
      refine (fills_of_certifies fun y k =>
        certifies_checkDefault definition r.2 _ _).next
          fun _ _ => ?_
      exact (fills_resolveDefaults ps hParsed.2).last
        fun _ hOthers => fills_pure
          (.cons ⟨rfl, .some hFirst.1, hFirst.2⟩ hOthers)
termination_by structural ps => ps

theorem fills_resolveStatements
    {around : Surroundings}
    (last : Ty) :
    ∀ xs : List Statement,
      statementsObey .parsed xs →
        Fills (statementsDeclared xs)
          (resolveStatements around last xs)
          (fun r =>
            List.Forall₂ Statement.FillsTo xs r.1 ∧
              statementsObey .filled r.1)
  | [], _ => by
      unfold resolveStatements
      exact fills_pure ⟨.nil, trivial⟩
  | x :: xs, hParsed => by
      unfold resolveStatements
      refine (fills_resolveStatement x hParsed.1).bind
        fun r hFirst => ?_
      exact (fills_resolveStatements r.2 xs hParsed.2).last
        fun _ hOthers => fills_pure
          ⟨.cons hFirst.1 hOthers.1, hFirst.2, hOthers.2⟩
termination_by structural xs => xs

theorem fills_resolveStatement
    {around : Surroundings} :
    ∀ x : Statement,
      x.Obeys .parsed →
        Fills x.declared (resolveStatement around x)
          (fun r => x.FillsTo r.1 ∧ r.1.Obeys .filled)
  | .expression e, hParsed => by
      unfold resolveStatement
      exact (fills_resolveExpr e hParsed).last
        fun _ hOwn => fills_pure ⟨.expression hOwn.1, hOwn.2⟩
  | .variable v, hParsed => by
      unfold resolveStatement
      exact (fills_resolveVariable v hParsed).last
        fun _ hOwn => fills_pure ⟨.variable hOwn.1, hOwn.2⟩
  | .function f, hParsed => by
      unfold resolveStatement
      exact (fills_resolveFunction f hParsed).last
        fun _ hOwn => fills_pure ⟨.function hOwn.1, hOwn.2⟩
termination_by structural x => x

theorem fills_resolveVariable
    {around : Surroundings} :
    ∀ v : VariableDecl,
      v.Obeys .parsed →
        Fills v.declared (resolveVariable around v)
          (fun w => v.FillsTo w ∧ w.Obeys .filled)
  | ⟨isMutable, name, typeExpr, initializer, definition,
      span⟩, hParsed => by
      unfold resolveVariable
      refine fills_isResolved
        (List.mem_append_right _
          (List.mem_singleton_self definition)) ?_
      refine (fills_resolveDeclared hParsed.2.1).next
        fun d hDeclared => ?_
      refine (fills_resolveOption initializer
        hParsed.2.2).bind fun o hOption => ?_
      refine (fills_of_certifies fun y k =>
        certifies_variableType name d.2 _ _).next
          fun type _ => ?_
      exact (fills_fillType definition type).last
        fun _ _ => fills_pure
          ⟨.intro hDeclared.1 hOption.1, trivial,
            hDeclared.2, hOption.2⟩
termination_by structural v => v

theorem fills_resolveFunction
    {around : Surroundings} :
    ∀ f : FunctionDecl,
      f.Obeys .parsed →
        Fills f.declared (resolveFunction around f)
          (fun g => f.FillsTo g ∧ g.Obeys .filled)
  | ⟨name, parameters, returnType, body, scope, definition,
      span⟩, hParsed => by
      unfold resolveFunction
      refine fills_isResolved
        (List.mem_append_right _ List.mem_cons_self) ?_
      refine (fills_parameterTypes hParsed.2.1).bind
        fun ds hTypes => ?_
      refine (fills_resolveDeclared hParsed.2.2.1).next
        fun d hDeclared => ?_
      refine (fills_fillType definition _).bind
        fun _ _ => ?_
      refine (fills_resolveDefaults parameters
        hParsed.2.1).bind fun qs hDefaults => ?_
      refine (fills_resolveOption body hParsed.2.2.2).last
        fun b hBody => ?_
      have hOwn := filled_withTypes hTypes hDefaults
      have hFilled :
          FunctionDecl.FillsTo
              ⟨name, parameters, returnType, body, scope,
                definition, span⟩
              ⟨name, withTypes qs (ds.map (·.1)), d.1, b.1,
                scope, definition, span⟩ ∧
            FunctionDecl.Obeys .filled
              ⟨name, withTypes qs (ds.map (·.1)), d.1, b.1,
                scope, definition, span⟩ :=
        ⟨.intro hOwn.1 hDeclared.1 hBody.1, trivial, hOwn.2,
          hDeclared.2, hBody.2⟩
      rcases b with ⟨body', received⟩
      cases body with
      | none => exact fills_pure hFilled
      | some e =>
          cases received with
          | none => exact fills_pure hFilled
          | some type =>
              exact (fills_of_certifies fun y k =>
                certifies_checkBody d.2 type _).last
                  fun _ _ => fills_pure hFilled
termination_by structural f => f

end

------------------------------------------------------------
-- Declarations
------------------------------------------------------------

theorem fills_resolveDeclaration
    (around : Surroundings)
    {d : Declaration}
    (hParsed : d.Obeys .parsed) :
    Fills d.declared (resolveDeclaration around d)
      (fun e => d.FillsTo e ∧ e.Obeys .filled) := by
  cases d with
  | function f =>
      exact (fills_resolveFunction f hParsed).last
        fun _ hOwn => fills_pure ⟨.function hOwn.1, hOwn.2⟩
  | property v =>
      exact (fills_resolveVariable v hParsed).last
        fun _ hOwn => fills_pure ⟨.property hOwn.1, hOwn.2⟩

/- All declarations of a program. -/
theorem fills_declarations
    (around : Surroundings)
    {ds : List Declaration}
    (hParsed : ∀ d ∈ ds, d.Obeys .parsed) :
    Fills (ds.flatMap Declaration.declared)
      (ds.mapM (resolveDeclaration around))
      (List.Forall₂
        (fun d e => d.FillsTo e ∧ e.Obeys .filled) ds) :=
  fills_mapM fun d hMember =>
    fills_resolveDeclaration around (hParsed d hMember)

end SourceCheck
