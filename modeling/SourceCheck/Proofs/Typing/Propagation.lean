import Mathlib
import SourceCheck.Proofs.Resolution.Matching
import SourceCheck.Proofs.Syntax.Fresh

/-
  How errors are handed on to the values of expressions.

  The value of an expression may come from a position inside
  it.  An error there reaches the whole expression as long as
  the branches of all conditionals on the way have one type.
  Branches with different types give `unit`, even if one of
  them is an error.

  Key definitions include:
    * `Expr.ValueAt`
    * `Expr.HasValueAt`
    * `Expr.HandsOn`
    * `Ty.IsTakenQuietly`

  Key theorems include:
    * `isTakenQuietly_of_isError`
    * `handsOn_resolveExpr`
-/

namespace SourceCheck

open SourceCheck.Resolver

------------------------------------------------------------
-- Positions of values
------------------------------------------------------------

/-
  The second expression is where the value of the first one
  comes from.  The branches of the conditionals on the way
  are related.
-/
inductive Expr.ValueAt (R : Expr → Expr → Prop) :
    Expr → Expr → Prop where
  | own (e) : ValueAt R e e
  | parenthesized {inner v span type}
      (hInner : ValueAt R inner v) :
      ValueAt R ⟨.parenthesized inner, span, type⟩ v
  | block {statements scope e v span type}
      (hLast : statements.getLast? = some (.expression e))
      (hValue : ValueAt R e v) :
      ValueAt R ⟨.block statements scope, span, type⟩ v
  | thenBranch {c a b v span type}
      (hBranches : R a b)
      (hValue : ValueAt R a v) :
      ValueAt R ⟨.conditional c a (some b), span, type⟩ v
  | elseBranch {c a b v span type}
      (hBranches : R a b)
      (hValue : ValueAt R b v) :
      ValueAt R ⟨.conditional c a (some b), span, type⟩ v

/- The value may come from the other expression. -/
def Expr.HasValueAt (e v : Expr) : Prop :=
  e.ValueAt (fun _ _ => True) v

/-
  The value may come from there, through conditionals whose
  branches have one type.
-/
def Expr.HandsOn (e v : Expr) : Prop :=
  e.ValueAt (fun a b => a.type = b.type) v

/- The branches of the conditional have different types. -/
def Expr.IsDropped : Expr → Prop
  | ⟨.conditional _ a (some b), _, _⟩ => a.type ≠ b.type
  | _ => False

/- The value of the form is not that of a part. -/
def ExprForm.isPlain : ExprForm → Bool
  | .parenthesized _ => false
  | .block _ _ => false
  | .conditional _ _ (some _) => false
  | _ => true

------------------------------------------------------------
-- Consumers
------------------------------------------------------------

variable {α β : Type}

/- The resolver leaves the state alone. -/
def Resolver.Quiet (p : Resolver α) : Prop :=
  ∀ z, (p.outcome z).2 = z

/-
  Whatever takes a value of the type reports nothing, be it a
  declared type, an operator, a call or an access.
-/
structure Ty.IsTakenQuietly (t : Ty) : Prop where
  assigned :
    ∀ expected p, (checkAssignable expected t p).Quiet
  left : ∀ o s p, (binaryType o t s p).Quiet
  right : ∀ o s p, (binaryType o s t p).Quiet
  operand : ∀ o p, (unaryType o t p).Quiet
  called :
    ∀ name arguments p, (callType name t arguments p).Quiet
  accessed : ∀ p, (containerOf t p).Quiet

theorem Ty.accepts_of_isError
    {t : Ty}
    (hError : t.isError)
    (expected : Ty) :
    expected.accepts t := by
  unfold Ty.accepts Ty.fitsAtOnce
  simp [hError]

/- An error is never reported a second time. -/
theorem isTakenQuietly_of_isError
    {t : Ty}
    (hError : t.isError) :
    t.IsTakenQuietly where
  assigned expected p z := by
    unfold checkAssignable
    rw [Ty.accepts_of_isError hError expected]
    rfl
  left o s p z := by
    unfold binaryType
    rw [if_pos hError]
    rfl
  right o s p z := by
    unfold binaryType
    by_cases hLeft : s.isError
    · rw [if_pos hLeft]
      rfl
    · rw [if_neg hLeft, if_pos hError]
      rfl
  operand o p z := by
    unfold unaryType
    rw [hError, Bool.or_true]
    rfl
  called name arguments p z := by
    cases t with
    | error description => rfl
    | _ => cases hError
  accessed p z := by
    cases t with
    | error description => rfl
    | _ => cases hError

------------------------------------------------------------
-- Results
------------------------------------------------------------

/- Whatever happens, the result has the property. -/
def Resolver.Always
    (p : Resolver α)
    (Q : α → Prop) :
    Prop :=
  ∀ z, Q (p.outcome z).1

section Always

variable {p : Resolver α}
variable {f : α → Resolver β}
variable {Q : α → Prop}
variable {T : β → Prop}

theorem always_pure {a : α} (hResult : Q a) :
    Resolver.Always (pure a) Q :=
  fun _ => hResult

theorem Resolver.Always.bind
    (hFirst : p.Always Q)
    (hRest : ∀ a, Q a → (f a).Always T) :
    (p >>= f).Always T :=
  fun z => hRest _ (hFirst z) _

/- The result of the first resolver may be anything. -/
theorem always_bind
    (hRest : ∀ a, (f a).Always T) :
    (p >>= f).Always T :=
  fun _ => hRest _ _

end Always

/-
  The types of all positions that hand their values on are
  that of the expression, which is `unit` if the branches of
  one of them differ.
-/
structure Valued (r : Expr × Ty) : Prop where
  types : ∀ v, r.1.HandsOn v → v.type = some r.2
  dropped :
    ∀ v, r.1.HandsOn v → v.IsDropped → r.2 = .unit

/- The last statement gives the value of a block. -/
structure ValuedLast
    (last : Ty)
    (r : List Statement × Ty) :
    Prop where
  nil : r.1 = [] → r.2 = last
  last :
    ∀ e,
      r.1.getLast? = some (.expression e) → Valued (e, r.2)

section Valued

variable {form : ExprForm}
variable {span : Span}
variable {t : Ty}

theorem valued_of_isPlain
    (hPlain : form.isPlain)
    (span : Span)
    (t : Ty) :
    Valued (⟨form, span, some t⟩, t) where
  types v hHandsOn := by
    cases hHandsOn with
    | own => rfl
    | _ => cases hPlain
  dropped v hHandsOn hDropped := by
    cases hHandsOn with
    | own =>
        unfold Expr.IsDropped at hDropped
        split at hDropped
        · rename_i hEq
          cases hEq
          cases hPlain
        · exact hDropped.elim
    | _ => cases hPlain

theorem valued_parenthesized
    {inner : Expr}
    (hInner : Valued (inner, t))
    (span : Span) :
    Valued (⟨.parenthesized inner, span, some t⟩, t) where
  types v hHandsOn := by
    cases hHandsOn with
    | own => rfl
    | parenthesized hValue => exact hInner.types v hValue
  dropped v hHandsOn hDropped := by
    cases hHandsOn with
    | own => exact hDropped.elim
    | parenthesized hValue =>
        exact hInner.dropped v hValue hDropped

theorem valued_block
    {last : Ty}
    {statements : List Statement}
    (hLast : ValuedLast last (statements, t))
    (scope : ScopeId)
    (span : Span) :
    Valued (⟨.block statements scope, span, some t⟩, t) where
  types v hHandsOn := by
    cases hHandsOn with
    | own => rfl
    | block hExpr hValue =>
        exact (hLast.last _ hExpr).types v hValue
  dropped v hHandsOn hDropped := by
    cases hHandsOn with
    | own => exact hDropped.elim
    | block hExpr hValue =>
        exact (hLast.last _ hExpr).dropped v hValue hDropped

/- A conditional has the type of its branches, or `unit`. -/
theorem valued_conditional
    {c a b : Expr}
    {s : Ty}
    (hThen : Valued (a, s))
    (hElse : Valued (b, t))
    (span : Span) :
    Valued
      (⟨.conditional c a (some b), span,
          some (if some t = some s then s else .unit)⟩,
        if some t = some s then s else .unit) := by
  have hFirst : a.type = some s := hThen.types a (.own a)
  have hSecond : b.type = some t := hElse.types b (.own b)
  by_cases hSame : t = s
  · subst hSame
    rw [if_pos rfl]
    constructor
    · intro v hHandsOn
      cases hHandsOn with
      | own => rfl
      | thenBranch _ hValue => exact hThen.types v hValue
      | elseBranch _ hValue => exact hElse.types v hValue
    · intro v hHandsOn hDropped
      cases hHandsOn with
      | own => exact absurd (hFirst.trans hSecond.symm) hDropped
      | thenBranch _ hValue =>
          exact hThen.dropped v hValue hDropped
      | elseBranch _ hValue =>
          exact hElse.dropped v hValue hDropped
  · rw [if_neg fun hEq => hSame (Option.some.inj hEq)]
    have hNot : a.type ≠ b.type := by
      rw [hFirst, hSecond]
      exact fun hEq => hSame (Option.some.inj hEq).symm
    constructor
    · intro v hHandsOn
      cases hHandsOn with
      | own => rfl
      | thenBranch hBranches _ => exact absurd hBranches hNot
      | elseBranch hBranches _ => exact absurd hBranches hNot
    · exact fun _ _ _ => rfl

theorem valuedLast_cons
    {last s : Ty}
    {x : Statement}
    {xs : List Statement}
    (hFirst : ∀ e, x = .expression e → Valued (e, s))
    (hRest : ValuedLast s (xs, t)) :
    ValuedLast last (x :: xs, t) where
  nil := nofun
  last e hLast := by
    cases xs with
    | nil =>
        rw [hRest.nil rfl]
        exact hFirst e (Option.some.inj hLast)
    | cons y ys =>
        refine hRest.last e ?_
        rw [← hLast]
        rfl

end Valued

------------------------------------------------------------
-- Walks
------------------------------------------------------------

mutual

theorem valued_resolveForm
    {around : Surroundings}
    (p : Position)
    (span : Span) :
    ∀ form : ExprForm,
      form.Obeys .fresh →
        (resolveForm around p form).Always
          (fun r => Valued (⟨r.1, span, some r.2⟩, r.2))
  | .int _, _ => always_pure (valued_of_isPlain rfl _ _)
  | .long _, _ => always_pure (valued_of_isPlain rfl _ _)
  | .boolean _, _ => always_pure (valued_of_isPlain rfl _ _)
  | .string _, _ => always_pure (valued_of_isPlain rfl _ _)
  | .template _, _ => by
      unfold resolveForm
      exact always_bind fun _ =>
        always_pure (valued_of_isPlain rfl _ _)
  | .reference _ _, _ => by
      unfold resolveForm
      exact always_bind fun _ =>
        always_pure (valued_of_isPlain rfl _ _)
  | .invocation _ _ _, _ => by
      unfold resolveForm
      exact always_bind fun _ => always_bind fun _ =>
        always_pure (valued_of_isPlain rfl _ _)
  | .call _ _, _ => by
      unfold resolveForm
      exact always_bind fun _ => always_bind fun _ =>
        always_bind fun _ =>
          always_pure (valued_of_isPlain rfl _ _)
  | .access _ _ _, _ => by
      unfold resolveForm
      exact always_bind fun _ => always_bind fun _ =>
        always_pure (valued_of_isPlain rfl _ _)
  | .binary _ _ _, _ => by
      unfold resolveForm
      exact always_bind fun _ => always_bind fun _ =>
        always_bind fun _ =>
          always_pure (valued_of_isPlain rfl _ _)
  | .unary _ _, _ => by
      unfold resolveForm
      exact always_bind fun _ => always_bind fun _ =>
        always_pure (valued_of_isPlain rfl _ _)
  | .assignment _ _ _, _ => by
      unfold resolveForm
      exact always_bind fun _ => always_bind fun _ =>
        always_bind fun _ =>
          always_pure (valued_of_isPlain rfl _ _)
  | .parenthesized inner, hInner => by
      unfold resolveForm
      exact (valued_resolveExpr inner hInner).bind
        fun _ hValued =>
          always_pure (valued_parenthesized hValued span)
  | .block statements scope, hStatements => by
      unfold resolveForm
      exact (valuedLast_resolveStatements .unit statements
        hStatements).bind fun _ hLast =>
          always_pure (valued_block hLast scope span)
  | .conditional _ _ none, _ => by
      unfold resolveForm
      exact always_bind fun _ => always_bind fun _ =>
        always_bind fun _ =>
          always_pure (valued_of_isPlain rfl _ _)
  | .conditional condition thenBranch (some elseBranch),
      hFresh => by
      unfold resolveForm
      refine always_bind fun _ => always_bind fun _ => ?_
      refine (valued_resolveExpr thenBranch hFresh.2.1).bind
        fun _ hThen => ?_
      refine (valued_resolveOption (some elseBranch)
        hFresh.2.2).bind fun _ hOption => ?_
      rcases hOption elseBranch rfl with ⟨b, t, rfl, hElse⟩
      exact always_pure (valued_conditional hThen hElse span)
  | .function _ _ _ _, _ => by
      unfold resolveForm
      exact always_bind fun _ => always_bind fun _ =>
        always_bind fun _ => always_bind fun _ =>
          always_bind fun _ =>
            always_pure (valued_of_isPlain rfl _ _)
  | .lambda _ _ _, _ => by
      unfold resolveForm
      exact always_bind fun _ => always_bind fun _ =>
        always_bind fun _ =>
          always_pure (valued_of_isPlain rfl _ _)
  | .ret none, _ => by
      unfold resolveForm
      cases around.returns with
      | none => exact always_pure (valued_of_isPlain rfl _ _)
      | some expected =>
          exact always_bind fun _ =>
            always_pure (valued_of_isPlain rfl _ _)
  | .ret (some value), _ => by
      unfold resolveForm
      refine always_bind fun _ => ?_
      cases around.returns with
      | none => exact always_pure (valued_of_isPlain rfl _ _)
      | some expected =>
          exact always_bind fun _ =>
            always_pure (valued_of_isPlain rfl _ _)
termination_by structural form => form

theorem valued_resolveExpr
    {around : Surroundings} :
    ∀ e : Expr,
      e.Obeys .fresh → (resolveExpr around e).Always Valued
  | ⟨_, _, some _⟩, hFresh => absurd hFresh.1.1 nofun
  | ⟨form, span, none⟩, hFresh => by
      unfold resolveExpr
      exact (valued_resolveForm span.start span form
        hFresh.2).bind fun _ hValued => always_pure hValued
termination_by structural e => e

theorem valued_resolveOption
    {around : Surroundings} :
    ∀ o : Option Expr,
      optionObeys .fresh o →
        (resolveOption around o).Always
          (fun r =>
            ∀ e ∈ o, ∃ f t,
              r = (some f, some t) ∧ Valued (f, t))
  | none, _ => always_pure nofun
  | some e, hFresh => by
      unfold resolveOption
      exact (valued_resolveExpr e hFresh).bind
        fun r hValued => always_pure
          fun _ _ => ⟨r.1, r.2, rfl, hValued⟩
termination_by structural o => o

theorem valuedLast_resolveStatements
    {around : Surroundings}
    (last : Ty) :
    ∀ xs : List Statement,
      statementsObey .fresh xs →
        (resolveStatements around last xs).Always
          (ValuedLast last)
  | [], _ => always_pure ⟨fun _ => rfl, nofun⟩
  | x :: xs, hFresh => by
      unfold resolveStatements
      refine (valued_resolveStatement x hFresh.1).bind
        fun r hFirst => ?_
      exact (valuedLast_resolveStatements r.2 xs
        hFresh.2).bind fun _ hRest =>
          always_pure (valuedLast_cons hFirst hRest)
termination_by structural xs => xs

theorem valued_resolveStatement
    {around : Surroundings} :
    ∀ x : Statement,
      x.Obeys .fresh →
        (resolveStatement around x).Always
          (fun r =>
            ∀ e, r.1 = .expression e → Valued (e, r.2))
  | .expression e, hFresh => by
      unfold resolveStatement
      refine (valued_resolveExpr e hFresh).bind
        fun _ hValued => always_pure ?_
      rintro _ ⟨⟩
      exact hValued
  | .variable _, _ => by
      unfold resolveStatement
      exact always_bind fun _ => always_pure nofun
  | .function _, _ => by
      unfold resolveStatement
      exact always_bind fun _ => always_pure nofun
termination_by structural x => x

end

------------------------------------------------------------
-- Main results
------------------------------------------------------------

/-
  Errors are handed on through parentheses, blocks, and
  conditionals whose branches have one type, and whatever
  takes them reports nothing.  Different branches give `unit`.
-/
theorem handsOn_resolveExpr
    {e : Expr}
    (hFresh : e.IsFresh)
    (around : Surroundings)
    (z : ResolverState) :
    let r := ((resolveExpr around e).outcome z).1
    (∀ v, r.1.HandsOn v → v.type = some r.2) ∧
      (∀ v, r.1.HandsOn v → v.IsDropped → r.2 = .unit) ∧
        (r.2.isError → r.2.IsTakenQuietly) := by
  have hValued :
      Valued ((resolveExpr around e).outcome z).1 :=
    valued_resolveExpr e hFresh z
  exact ⟨hValued.types, hValued.dropped,
    isTakenQuietly_of_isError⟩

/- Both branches have the same error. -/
theorem handsOn_resolveExpr_same :
    ∃ e,
      parseExpression "(if (true) y else y)" "main" = .ok e ∧
        e.IsFresh ∧
          let r :=
            ((resolveExpr (Surroundings.nowhere.within 0)
              e).outcome
              (.start ⟨#[⟨none, []⟩], #[]⟩)).1
          r.2 = .error "unresolved reference: y" ∧
            (∀ v, r.1.HandsOn v → v.type = some r.2) ∧
              r.2.IsTakenQuietly := by
  have hBoth :
      ∃ e,
        parseExpression "(if (true) y else y)" "main" =
            .ok e ∧
          ((resolveExpr (Surroundings.nowhere.within 0)
            e).outcome
            (.start ⟨#[⟨none, []⟩], #[]⟩)).1.2 =
              .error "unresolved reference: y" := by
    refine ⟨?e, ?_, ?_⟩
    rotate_left
    · conv => lhs; cbv
    · decide +kernel
  rcases hBoth with ⟨e, hParse, hError⟩
  have hFresh := isFresh_of_parseExpression hParse
  rcases handsOn_resolveExpr hFresh
      (Surroundings.nowhere.within 0)
      (.start ⟨#[⟨none, []⟩], #[]⟩) with
    ⟨hTypes, -, hQuiet⟩
  refine ⟨e, hParse, hFresh, hError, hTypes, hQuiet ?_⟩
  rw [hError]
  rfl

/- The first branch of a conditional with two branches. -/
def Expr.firstBranch? (e : Expr) : Option Expr :=
  match e.form with
  | .conditional _ a (some _) => some a
  | _ => none

/- The first branch is a position of the value. -/
theorem hasValueAt_firstBranch
    {e a : Expr}
    (hBranch : e.firstBranch? = some a) :
    e.HasValueAt a := by
  unfold Expr.firstBranch? at hBranch
  rcases e with ⟨form, span, type⟩
  dsimp only at hBranch
  split at hBranch
  · cases hBranch
    exact .thenBranch trivial (.own a)
  · cases hBranch

/-
  One branch is an error, and the other one is not: the whole
  is `unit`, and where an integer is expected there is a
  second report.
-/
theorem error_dropped_conditional :
    ∃ e,
      parseExpression "if (true) y else 1" "main" = .ok e ∧
        let o :=
          (resolveExpr (Surroundings.nowhere.within 0)
            e).outcome
            (.start ⟨#[⟨none, []⟩], #[]⟩)
        (∃ v t,
          o.1.1.HasValueAt v ∧ v.type = some t ∧ t.isError) ∧
          o.1.2.isError = false ∧
            o.2.diagnostics.length = 1 ∧
              ((checkAssignable .int o.1.2 e.span.start).outcome
                o.2).2.diagnostics.length = 2 := by
  have hRun :
      ∃ e,
        parseExpression "if (true) y else 1" "main" = .ok e ∧
          let o :=
            (resolveExpr (Surroundings.nowhere.within 0)
              e).outcome
              (.start ⟨#[⟨none, []⟩], #[]⟩)
          (o.1.1.firstBranch?.any fun a =>
              a.type.any (·.isError)) ∧
            o.1.2.isError = false ∧
              o.2.diagnostics.length = 1 ∧
                ((checkAssignable .int o.1.2
                  e.span.start).outcome
                  o.2).2.diagnostics.length = 2 := by
    refine ⟨?e, ?_, ?_, ?_, ?_, ?_⟩
    rotate_left
    · conv => lhs; cbv
    · decide +kernel
    · decide +kernel
    · decide +kernel
    · decide +kernel
  rcases hRun with ⟨e, hParse, hBranch, hRest⟩
  rcases (Option.any_eq_true _ _).1 hBranch with
    ⟨a, hFirst, hAny⟩
  rcases (Option.any_eq_true _ _).1 hAny with
    ⟨t, hType, hError⟩
  exact ⟨e, hParse,
    ⟨a, t, hasValueAt_firstBranch hFirst, hType, hError⟩,
    hRest⟩

end SourceCheck
