import Mathlib.Data.Set.Basic
import SourceCheck.Proofs.Parsing.Comparison
import SourceCheck.Proofs.Scoping.Lookup
import SourceCheck.Resolution.Program

/-
  Resolvers of two texts that differ in their layout only.

  Two resolvers match if they lead from states that are the
  same but for places to such states again and give related
  results.  The helpers, which neither look up names in
  scopes nor give types to definitions, also keep all types
  and report only problems of the source.

  Key definitions include:
    * `Changes`
    * `Alignment.States`
    * `Alignment.Matches`
    * `Alignment.Helps`
    * `Resolver.Calm`
-/

namespace SourceCheck

------------------------------------------------------------
-- Changes of states
------------------------------------------------------------

/-
  Only the given definitions got other types, and only
  problems of the source were reported.
-/
structure Changes
    (ids : Set Nat)
    (z w : ResolverState) :
    Prop where
  untyped_eq : w.symbols.untyped = z.symbols.untyped
  type_eq :
    ∀ id, id ∉ ids → w.symbols.type? id = z.symbols.type? id
  reports :
    ∃ new,
      w.diagnostics = z.diagnostics ++ new ∧
        ∀ d ∈ new, d.problem.concernsSource

namespace Changes

variable {ids others : Set Nat}
variable {z w v : ResolverState}

theorem refl
    (ids : Set Nat)
    (z : ResolverState) :
    Changes ids z z :=
  ⟨rfl, fun _ _ => rfl, [], by simp, nofun⟩

theorem trans
    (hFirst : Changes ids z w)
    (hSecond : Changes ids w v) :
    Changes ids z v where
  untyped_eq :=
    hSecond.untyped_eq.trans hFirst.untyped_eq
  type_eq id hNot :=
    (hSecond.type_eq id hNot).trans (hFirst.type_eq id hNot)
  reports := by
    rcases hFirst.reports with ⟨ds, hLeft, hSource⟩
    rcases hSecond.reports with ⟨es, hRight, hSource'⟩
    refine ⟨ds ++ es, ?_, ?_⟩
    · rw [hRight, hLeft, List.append_assoc]
    · intro d hMember
      rcases List.mem_append.1 hMember with hMember | hMember
      · exact hSource d hMember
      · exact hSource' d hMember

theorem mono
    (hChanges : Changes ids z w)
    (hSubset : ids ⊆ others) :
    Changes others z w where
  untyped_eq := hChanges.untyped_eq
  type_eq id hNot :=
    hChanges.type_eq id fun hMember =>
      hNot (hSubset hMember)
  reports := hChanges.reports

end Changes

------------------------------------------------------------
-- Outcomes
------------------------------------------------------------

namespace Resolver

variable {α β : Type}

/- The result of a resolver and the state behind it. -/
def outcome
    (p : Resolver α)
    (z : ResolverState) :
    α × ResolverState :=
  p.run z

@[simp]
theorem outcome_pure
    (a : α)
    (z : ResolverState) :
    outcome (pure a) z = (a, z) :=
  rfl

@[simp]
theorem outcome_bind
    (p : Resolver α)
    (f : α → Resolver β)
    (z : ResolverState) :
    outcome (p >>= f) z =
      (f (p.outcome z).1).outcome (p.outcome z).2 :=
  rfl

@[simp]
theorem outcome_get (z : ResolverState) :
    outcome get z = (z, z) :=
  rfl

@[simp]
theorem outcome_modify
    (f : ResolverState → ResolverState)
    (z : ResolverState) :
    outcome (modify f) z = (⟨⟩, f z) :=
  rfl

/- The type of a definition is read, or its lack reported. -/
theorem outcome_definitionType_eq
    (id : DefinitionId)
    (p : Position)
    (z : ResolverState) :
    (definitionType id p).outcome z =
      ((match z.symbols.type? id with
        | some type => pure type
        | none =>
            errorType
              (.unresolvedDefinition
                (z.symbols.definitions[id]?.getD
                  default).name)
              p : Resolver Ty)).outcome z :=
  rfl

/- The resolver keeps all types, and reports no mistakes. -/
def Calm (p : Resolver α) : Prop :=
  ∀ z, Changes ∅ z (p.outcome z).2

end Resolver

------------------------------------------------------------
-- Matching resolvers
------------------------------------------------------------

namespace Alignment

open SourceCheck.Resolver

/- Two states are the same but for places. -/
structure States
    (A : Alignment)
    (z w : ResolverState) :
    Prop where
  symbols : A.SameSymbols z.symbols w.symbols
  types : z.types = w.types
  members : z.members = w.members
  problems :
    z.diagnostics.map (·.problem) =
      w.diagnostics.map (·.problem)

variable {A : Alignment}
variable {α β γ δ : Type}
variable {R : α → β → Prop}
variable {S : γ → δ → Prop}

/- Results are related, and states are still the same. -/
structure Outcomes
    (A : Alignment)
    (R : α → β → Prop)
    (x : α × ResolverState)
    (y : β × ResolverState) :
    Prop where
  results : R x.1 y.1
  states : A.States x.2 y.2

/- From the same states two resolvers lead to the same. -/
def Matches
    (A : Alignment)
    (R : α → β → Prop)
    (p : Resolver α)
    (q : Resolver β) :
    Prop :=
  ∀ z w,
    A.States z w → A.Outcomes R (p.outcome z) (q.outcome w)

/-
  Two resolvers match, and the first of them keeps all types
  and reports no mistakes of the checker.
-/
def Helps
    (A : Alignment)
    (R : α → β → Prop)
    (p : Resolver α)
    (q : Resolver β) :
    Prop :=
  ∀ z w,
    A.States z w →
      A.Outcomes R (p.outcome z) (q.outcome w) ∧
        Changes ∅ z (p.outcome z).2

theorem Helps.alike
    {p : Resolver α}
    {q : Resolver β}
    (hHelps : A.Helps R p q) :
    A.Matches R p q :=
  fun z w hStates => (hHelps z w hStates).1

theorem Matches.bind
    {p : Resolver α}
    {q : Resolver β}
    {f : α → Resolver γ}
    {g : β → Resolver δ}
    (hFirst : A.Matches R p q)
    (hRest : ∀ a b, R a b → A.Matches S (f a) (g b)) :
    A.Matches S (p >>= f) (q >>= g) := by
  intro z w hStates
  have hBoth := hFirst z w hStates
  exact hRest _ _ hBoth.results _ _ hBoth.states

theorem Helps.bind
    {p : Resolver α}
    {q : Resolver β}
    {f : α → Resolver γ}
    {g : β → Resolver δ}
    (hFirst : A.Helps R p q)
    (hRest : ∀ a b, R a b → A.Helps S (f a) (g b)) :
    A.Helps S (p >>= f) (q >>= g) := by
  intro z w hStates
  rcases hFirst z w hStates with ⟨hBoth, hChanges⟩
  rcases hRest _ _ hBoth.results _ _ hBoth.states with
    ⟨hLast, hMore⟩
  exact ⟨hLast, hChanges.trans hMore⟩

theorem matches_pure
    {a : α}
    {b : β}
    (hResults : R a b) :
    A.Matches R (pure a) (pure b) :=
  fun _ _ hStates => ⟨hResults, hStates⟩

theorem helps_pure
    {a : α}
    {b : β}
    (hResults : R a b) :
    A.Helps R (pure a) (pure b) :=
  fun z _ hStates => ⟨⟨hResults, hStates⟩, .refl _ z⟩

/- What is read of the states is the same. -/
theorem helps_get
    {f : ResolverState → Resolver α}
    {g : ResolverState → Resolver β}
    (hRest :
      ∀ z w,
        A.States z w →
          A.Outcomes R ((f z).outcome z) ((g w).outcome w) ∧
            Changes ∅ z ((f z).outcome z).2) :
    A.Helps R (get >>= f) (get >>= g) :=
  hRest

/- A state is the same as itself. -/
theorem states_identity (z : ResolverState) :
    identity.States z z where
  symbols := ⟨rfl, by
    rw [List.forall₂_same]
    exact fun d _ => ⟨rfl, rfl, rfl, rfl, .inl rfl⟩⟩
  types := rfl
  members := rfl
  problems := rfl

/- What helps in two texts is calm in one. -/
theorem Helps.calm
    {p q : Resolver α}
    {R : α → α → Prop}
    (hHelps : identity.Helps R p q) :
    p.Calm :=
  fun z => (hHelps z z (states_identity z)).2

------------------------------------------------------------
-- Reports
------------------------------------------------------------

theorem matches_report
    (problem : Problem)
    (p q : Position) :
    A.Matches (fun _ _ => True)
      (report problem p) (report problem q) := by
  intro z w hStates
  refine ⟨trivial, hStates.symbols, hStates.types,
    hStates.members, ?_⟩
  simp only [report, outcome_modify, List.map_append,
    hStates.problems, List.map_singleton]

theorem matches_errorType
    (problem : Problem)
    (p q : Position) :
    A.Matches Eq
      (errorType problem p) (errorType problem q) :=
  (matches_report problem p q).bind fun _ _ _ =>
    matches_pure rfl

theorem helps_report
    {problem : Problem}
    (hSource : problem.concernsSource)
    (p q : Position) :
    A.Helps (fun _ _ => True)
      (report problem p) (report problem q) := by
  intro z w hStates
  refine ⟨matches_report problem p q z w hStates, rfl,
    fun _ _ => rfl, [⟨problem, p⟩], rfl, ?_⟩
  intro d hMember
  rw [List.mem_singleton.1 hMember]
  exact hSource

theorem helps_errorType
    {problem : Problem}
    (hSource : problem.concernsSource)
    (p q : Position) :
    A.Helps Eq (errorType problem p) (errorType problem q) :=
  (helps_report hSource p q).bind fun _ _ _ => helps_pure rfl

theorem helps_checkAssignable
    (expected received : Ty)
    (p q : Position) :
    A.Helps (fun _ _ => True)
      (checkAssignable expected received p)
      (checkAssignable expected received q) := by
  unfold checkAssignable
  split
  · exact helps_report rfl p q
  · exact helps_pure trivial

theorem helps_typed
    (target : Target)
    {a b : Resolver Ty}
    (hType : A.Helps Eq a b) :
    A.Helps Eq (typed target a) (typed target b) := by
  refine hType.bind fun s t hSame => helps_pure ?_
  rw [hSame]

------------------------------------------------------------
-- Names and calls
------------------------------------------------------------

theorem helps_importedProperty
    (name : String)
    (target : Target)
    (p q : Position) :
    A.Helps Eq
      (importedProperty name target p)
      (importedProperty name target q) := by
  refine helps_get fun z w hStates => ?_
  rw [hStates.members]
  cases w.members.properties name with
  | nil =>
      exact helps_typed target (helps_errorType rfl p q) z w
        hStates
  | cons property others =>
      cases others with
      | nil => exact helps_pure rfl z w hStates
      | cons other others =>
          exact helps_typed target (helps_errorType rfl p q)
            z w hStates

theorem helps_callType
    (name : String)
    (callee : Ty)
    (arguments : List Ty)
    (p q : Position) :
    A.Helps Eq
      (callType name callee arguments p)
      (callType name callee arguments q) := by
  unfold callType
  split
  · split
    · exact helps_pure rfl
    · exact helps_errorType rfl p q
  · exact helps_pure rfl
  · exact helps_errorType rfl p q

theorem helps_noFunction
    (name : String)
    (arguments : List Ty)
    (p q : Position) :
    A.Helps Eq
      (noFunction name arguments p)
      (noFunction name arguments q) := by
  unfold noFunction
  split
  · exact helps_pure rfl
  · exact helps_errorType rfl p q

theorem helps_containerOf
    (type : Ty)
    (p q : Position) :
    A.Helps Eq (containerOf type p) (containerOf type q) := by
  unfold containerOf
  split
  · exact helps_pure rfl
  · exact helps_pure rfl
  · refine (helps_errorType rfl p q).bind
      fun s t hSame => helps_pure ?_
    rw [hSame]

theorem helps_useMember
    (member : Member)
    (target : Target)
    (p q : Position) :
    A.Helps Eq
      (useMember member target p)
      (useMember member target q) := by
  unfold useMember
  split
  · exact helps_pure rfl
  · exact helps_typed target (helps_errorType rfl p q)

theorem helps_memberCall
    (left : Ty)
    (name : String)
    (arguments : List Ty)
    (target : Target)
    (p q p' q' : Position) :
    A.Helps Eq
      (memberCall left name arguments target p p')
      (memberCall left name arguments target q q') := by
  refine (helps_containerOf left p q).bind
    fun found _ hSame => ?_
  subst hSame
  cases found with
  | error type => exact helps_pure rfl
  | ok container =>
      dsimp only
      split
      · exact helps_useMember _ target p' q'
      · exact helps_typed target
          (helps_noFunction name arguments p' q')

theorem helps_memberProperty
    (left : Ty)
    (name : String)
    (target : Target)
    (p q p' q' : Position) :
    A.Helps Eq
      (memberProperty left name target p p')
      (memberProperty left name target q q') := by
  refine (helps_containerOf left p q).bind
    fun found _ hSame => ?_
  subst hSame
  cases found with
  | error type => exact helps_pure rfl
  | ok container =>
      dsimp only
      split
      · exact helps_useMember _ _ p' q'
      · exact helps_typed target (helps_errorType rfl p' q')

------------------------------------------------------------
-- Operations and assignments
------------------------------------------------------------

theorem helps_binaryType
    (o : BinaryOperator)
    (left right : Ty)
    (p q : Position) :
    A.Helps Eq
      (binaryType o left right p)
      (binaryType o left right q) := by
  unfold binaryType
  split
  · exact helps_pure rfl
  · split
    · exact helps_pure rfl
    · split
      · exact helps_pure rfl
      · exact helps_errorType rfl p q

theorem helps_unaryType
    (o : UnaryOperator)
    (operand : Ty)
    (p q : Position) :
    A.Helps Eq
      (unaryType o operand p)
      (unaryType o operand q) := by
  unfold unaryType
  split
  · exact helps_pure rfl
  · exact helps_errorType rfl p q

/- Definitions with the same number are the same. -/
theorem SameSymbols.getElem?_rel
    {y z : Symbols}
    (hSame : A.SameSymbols y z)
    (id : Nat) :
    Option.Rel A.Definitions
      y.definitions[id]? z.definitions[id]? := by
  have hBoth := hSame.definitions
  rw [← Array.getElem?_toList, ← Array.getElem?_toList]
  generalize y.definitions.toList = ds at hBoth
  generalize z.definitions.toList = es at hBoth
  induction hBoth generalizing id with
  | nil => exact .none
  | cons hFirst _ ih =>
      cases id with
      | zero => exact .some hFirst
      | succ id => exact ih id

theorem helps_checkDefinition
    (id : DefinitionId)
    (p q : Position) :
    A.Helps (fun _ _ => True)
      (checkDefinition id p) (checkDefinition id q) := by
  refine helps_get fun z w hStates => ?_
  have hSame :
      let d := z.symbols.definitions[id]?.getD default
      let e := w.symbols.definitions[id]?.getD default
      d.kind = e.kind ∧
        d.isMutable = e.isMutable ∧ d.name = e.name := by
    have hBoth := hStates.symbols.getElem?_rel id
    generalize z.symbols.definitions[id]? = d at hBoth
    generalize w.symbols.definitions[id]? = e at hBoth
    cases hBoth with
    | none => exact ⟨rfl, rfl, rfl⟩
    | some hBoth =>
        exact ⟨hBoth.kind, hBoth.isMutable, hBoth.name⟩
  dsimp only at hSame ⊢
  rw [hSame.1, hSame.2.1, hSame.2.2]
  split
  · exact helps_report rfl p q z w hStates
  · split
    · exact helps_report rfl p q z w hStates
    · exact helps_pure trivial z w hStates

theorem helps_checkTarget
    {e f : Expr}
    (hExprs : A.Exprs e f) :
    A.Helps (fun _ _ => True)
      (checkTarget e) (checkTarget f) := by
  have hInvalid :
      A.Helps (fun _ _ => True)
        (report .invalidAssignmentTarget e.span.start)
        (report .invalidAssignmentTarget f.span.start) :=
    helps_report rfl _ _
  cases hExprs with
  | intro hForm _ =>
      cases hForm with
      | @reference name target =>
          unfold checkTarget
          dsimp only
          split
          · exact helps_checkDefinition _ _ _
          · exact helps_pure trivial
          · exact helps_pure trivial
          · exact hInvalid
      | access _ hRight =>
          cases hRight with
          | intro hRight _ =>
              cases hRight with
              | reference => exact helps_pure trivial
              | _ => exact hInvalid
      | _ => exact hInvalid

theorem helps_checkTarget_self (e : Expr) :
    A.Helps (fun _ _ => True)
      (checkTarget e) (checkTarget e) := by
  unfold checkTarget
  dsimp only
  split
  · exact helps_checkDefinition _ _ _
  · exact helps_pure trivial
  · exact helps_pure trivial
  · exact helps_report rfl _ _

theorem helps_checkBody
    (declared : Option Ty)
    (received : Ty)
    (p q : Position) :
    A.Helps (fun _ _ => True)
      (checkBody declared received p)
      (checkBody declared received q) := by
  unfold checkBody
  split
  · exact helps_pure trivial
  · split
    · exact helps_checkAssignable _ _ p q
    · exact helps_pure trivial

/- Of the initial value only its type matters. -/
theorem helps_variableType
    (name : String)
    (declared : Option Ty)
    {initial initial' : Option (Ty × Position)}
    (hInitial :
      initial.map Prod.fst = initial'.map Prod.fst)
    (p q : Position) :
    A.Helps Eq
      (variableType name declared initial p)
      (variableType name declared initial' q) := by
  cases initial with
  | none =>
      cases initial' with
      | none =>
          cases declared with
          | none => exact helps_errorType rfl p q
          | some type => exact helps_pure rfl
      | some _ => cases hInitial
  | some value =>
      cases initial' with
      | none => cases hInitial
      | some value' =>
          have hTypes : value.1 = value'.1 :=
            Option.some.inj hInitial
          rcases value with ⟨type, a⟩
          rcases value' with ⟨type', b⟩
          subst hTypes
          cases declared with
          | none => exact helps_pure rfl
          | some expected =>
              exact (helps_checkAssignable _ _ a b).bind
                fun _ _ _ => helps_pure rfl

theorem helps_checkAssignment
    {target target' : Expr}
    (hTarget :
      A.Helps (fun _ _ => True)
        (checkTarget target) (checkTarget target'))
    (targetType : Ty)
    (operator : AssignmentOperator)
    (valueType : Ty)
    (p q : Position) :
    A.Helps (fun _ _ => True)
      (checkAssignment target targetType operator valueType
        p)
      (checkAssignment target' targetType operator valueType
        q) := by
  have hStored (stored : Ty) :
      A.Helps (fun _ _ => True)
        (checkAssignable targetType stored p)
        (checkAssignable targetType stored q) :=
    helps_checkAssignable targetType stored p q
  have hRest (o : BinaryOperator) :
      A.Helps (fun _ _ => True)
        (binaryType o targetType valueType p >>= fun stored =>
          checkAssignable targetType stored p)
        (binaryType o targetType valueType q >>= fun stored =>
          checkAssignable targetType stored q) := by
    refine (helps_binaryType o _ _ p q).bind
      fun stored _ hSame => ?_
    subst hSame
    exact hStored stored
  unfold checkAssignment
  dsimp only
  cases targetType.isError with
  | true =>
      cases operator.binary? with
      | none => exact hStored valueType
      | some o => exact hRest o
  | false =>
      refine hTarget.bind fun _ _ _ => ?_
      cases operator.binary? with
      | none => exact hStored valueType
      | some o => exact hRest o

------------------------------------------------------------
-- Written types
------------------------------------------------------------

theorem helps_remember
    (text : String)
    (type : Ty) :
    A.Helps (fun _ _ => True)
      (remember text type) (remember text type) := by
  intro z w hStates
  refine ⟨⟨trivial, hStates.symbols, ?_, hStates.members,
    hStates.problems⟩, rfl, fun _ _ => rfl, [], ?_, nofun⟩
  · exact congrArg (·.remember text type) hStates.types
  · exact (List.append_nil _).symm

theorem helps_remembered
    (text : String)
    {p q : Resolver Ty}
    (hAction : A.Helps Eq p q) :
    A.Helps Eq (remembered text p) (remembered text q) := by
  refine helps_get fun z w hStates => ?_
  rw [hStates.types]
  cases w.types.findWritten? text with
  | some type => exact helps_pure rfl z w hStates
  | none =>
      refine hAction.bind (fun s t hSame => ?_) z w hStates
      subst hSame
      exact (helps_remember text s).bind
        fun _ _ _ => helps_pure rfl

theorem helps_namedType
    (name : String)
    (p q : Position) :
    A.Helps Eq (namedType name p) (namedType name q) := by
  refine helps_remembered name ?_
  refine helps_get fun z w hStates => ?_
  rw [hStates.types]
  cases w.types.find? name with
  | some type => exact helps_pure rfl z w hStates
  | none => exact helps_errorType rfl p q z w hStates

mutual

/- Aligned types have the same text. -/
theorem TypeForms.text_eq :
    ∀ {f g : TypeForm}, A.TypeForms f g → f.text = g.text
  | .absent, _, .absent => rfl
  | .named _, _, .named => rfl
  | .union _ _, _, .union hLeft hRight => by
      simp only [TypeForm.text, hLeft.text_eq,
        hRight.text_eq]
  | .intersection _ _, _, .intersection hLeft hRight => by
      simp only [TypeForm.text, hLeft.text_eq,
        hRight.text_eq]

/- Aligned types have the same text. -/
theorem TypeExprs.text_eq :
    ∀ {x y : TypeExpr}, A.TypeExprs x y → x.text = y.text
  | ⟨_, _, _⟩, _, .intro hForm _ => by
      simp only [TypeExpr.text]
      exact hForm.text_eq

end

mutual

/- A written type is aligned with itself. -/
theorem typeForms_identity :
    ∀ f : TypeForm, identity.TypeForms f f
  | .absent => .absent
  | .named _ => .named
  | .union a b =>
      .union (typeExprs_identity a) (typeExprs_identity b)
  | .intersection a b =>
      .intersection (typeExprs_identity a)
        (typeExprs_identity b)

/- A written type is aligned with itself. -/
theorem typeExprs_identity :
    ∀ x : TypeExpr, identity.TypeExprs x x
  | ⟨f, _, _⟩ => .intro (typeForms_identity f) ⟨rfl, rfl⟩

end

/- A walk over types gives aligned types of one meaning. -/
def TypeResults
    (A : Alignment)
    (x y : TypeExpr × Ty) :
    Prop :=
  A.TypeExprs x.1 y.1 ∧ x.2 = y.2

mutual

theorem helps_resolveTypeForm
    (p q : Position) :
    ∀ {f g : TypeForm},
      A.TypeForms f g →
        A.Helps
          (fun x y => A.TypeForms x.1 y.1 ∧ x.2 = y.2)
          (resolveTypeForm p f) (resolveTypeForm q g)
  | .absent, _, .absent => helps_pure ⟨.absent, rfl⟩
  | .named name, _, .named =>
      (helps_namedType name p q).bind fun _ _ hSame =>
        helps_pure ⟨.named, hSame⟩
  | .union a b, .union c d, hForms => by
      cases hForms with
      | union hLeft hRight =>
          have hText :=
            (TypeForms.union hLeft hRight).text_eq
          unfold resolveTypeForm
          rw [hText]
          refine (helps_resolveTypeExpr hLeft).bind
            fun x y hFirst => ?_
          refine (helps_resolveTypeExpr hRight).bind
            fun u v hSecond => ?_
          dsimp only
          rw [hFirst.2, hSecond.2]
          refine (helps_remembered _ (helps_pure rfl)).bind
            fun _ _ hSame => helps_pure ⟨?_, hSame⟩
          exact .union hFirst.1 hSecond.1
  | .intersection a b, .intersection c d, hForms => by
      cases hForms with
      | intersection hLeft hRight =>
          have hText :=
            (TypeForms.intersection hLeft hRight).text_eq
          unfold resolveTypeForm
          rw [hText]
          refine (helps_resolveTypeExpr hLeft).bind
            fun x y hFirst => ?_
          refine (helps_resolveTypeExpr hRight).bind
            fun u v hSecond => ?_
          dsimp only
          rw [hFirst.2, hSecond.2]
          refine (helps_remembered _ (helps_pure rfl)).bind
            fun _ _ hSame => helps_pure ⟨?_, hSame⟩
          exact .intersection hFirst.1 hSecond.1

theorem helps_resolveTypeExpr :
    ∀ {x y : TypeExpr},
      A.TypeExprs x y →
        A.Helps A.TypeResults
          (resolveTypeExpr x) (resolveTypeExpr y)
  | ⟨f, s, some type⟩, _, .intro hForm hSpan =>
      helps_pure ⟨.intro hForm hSpan, rfl⟩
  | ⟨f, s, none⟩, ⟨g, t, _⟩, hTypes => by
      cases hTypes with
      | intro hForm hSpan =>
          unfold resolveTypeExpr
          refine (helps_resolveTypeForm _ _ hForm).bind
            fun x y hSame => helps_pure ?_
          rw [hSame.2]
          exact ⟨.intro hSame.1 hSpan, rfl⟩

end

theorem helps_resolveDeclared
    {x y : TypeExpr}
    (hTypes : A.TypeExprs x y) :
    A.Helps
      (fun a b => A.TypeExprs a.1 b.1 ∧ a.2 = b.2)
      (resolveDeclared x) (resolveDeclared y) := by
  unfold resolveDeclared
  rw [hTypes.isAbsent_eq]
  split
  · exact helps_pure ⟨hTypes, rfl⟩
  · refine (helps_resolveTypeExpr hTypes).bind
      fun a b hSame => helps_pure ⟨hSame.1, ?_⟩
    exact congrArg some hSame.2

------------------------------------------------------------
-- Imports
------------------------------------------------------------

theorem helps_importType
    {a b : ImportEntry}
    (hEntries : A.Entries a b)
    (type : Ty) :
    A.Helps (fun _ _ => True)
      (importType a type) (importType b type) := by
  have hName : a.localName = b.localName := by
    unfold ImportEntry.localName
    rw [hEntries.name, hEntries.newName]
  refine helps_get fun z w hStates => ?_
  rw [hStates.types, hName]
  cases w.types.define? b.localName type with
  | none => exact helps_report rfl _ _ z w hStates
  | some types =>
      exact ⟨⟨trivial, hStates.symbols, rfl,
        hStates.members, hStates.problems⟩, rfl,
        fun _ _ => rfl, [], (List.append_nil _).symm, nofun⟩

theorem helps_importMembers
    {a b : ImportEntry}
    (hEntries : A.Entries a b)
    (members : List Member) :
    A.Helps (fun _ _ => True)
      (importMembers a members) (importMembers b members) := by
  have hName : a.localName = b.localName := by
    unfold ImportEntry.localName
    rw [hEntries.name, hEntries.newName]
  intro z w hStates
  unfold importMembers
  rw [outcome_modify, outcome_modify, hName]
  refine ⟨⟨trivial, hStates.symbols, hStates.types, ?_,
    hStates.problems⟩, rfl, fun _ _ => rfl, [],
    (List.append_nil _).symm, nofun⟩
  dsimp only
  rw [hStates.members]

theorem helps_importEntry
    (library : Library)
    (path : String)
    {a b : ImportEntry}
    (hEntries : A.Entries a b) :
    A.Helps (fun _ _ => True)
      (importEntry library path a)
      (importEntry library path b) := by
  unfold importEntry
  rw [hEntries.name]
  split
  · exact helps_importType hEntries _
  · split
    · exact helps_report rfl _ _
    · exact helps_importMembers hEntries _

theorem helps_forM
    {f : α → Resolver PUnit}
    {g : β → Resolver PUnit}
    {as : List α}
    {bs : List β}
    (hLists : List.Forall₂ R as bs)
    (hEach :
      ∀ a b,
        R a b → A.Helps (fun _ _ => True) (f a) (g b)) :
    A.Helps (fun _ _ => True) (as.forM f) (bs.forM g) := by
  induction hLists with
  | nil => exact helps_pure trivial
  | cons hFirst _ ih =>
      exact (hEach _ _ hFirst).bind fun _ _ _ => ih

theorem matches_mapM
    {f : α → Resolver γ}
    {g : β → Resolver δ}
    {as : List α}
    {bs : List β}
    (hLists : List.Forall₂ R as bs)
    (hEach : ∀ a b, R a b → A.Matches S (f a) (g b)) :
    A.Matches (List.Forall₂ S) (as.mapM f) (bs.mapM g) := by
  induction hLists with
  | nil => exact matches_pure .nil
  | cons hFirst _ ih =>
      rw [List.mapM_cons, List.mapM_cons]
      refine (hEach _ _ hFirst).bind fun _ _ hResult => ?_
      refine ih.bind fun _ _ hResults => ?_
      exact matches_pure (.cons hResult hResults)

theorem helps_mapM
    {f : α → Resolver γ}
    {g : β → Resolver δ}
    {as : List α}
    {bs : List β}
    (hLists : List.Forall₂ R as bs)
    (hEach : ∀ a b, R a b → A.Helps S (f a) (g b)) :
    A.Helps (List.Forall₂ S) (as.mapM f) (bs.mapM g) := by
  induction hLists with
  | nil => exact helps_pure .nil
  | cons hFirst _ ih =>
      rw [List.mapM_cons, List.mapM_cons]
      refine (hEach _ _ hFirst).bind fun _ _ hResult => ?_
      refine ih.bind fun _ _ hResults => ?_
      exact helps_pure (.cons hResult hResults)

/- Imports are aligned with themselves. -/
theorem imports_identity (is : List Import) :
    List.Forall₂ identity.Imports is is := by
  rw [List.forall₂_same]
  refine fun i _ => ⟨rfl, ?_, rfl, ⟨rfl, rfl⟩⟩
  rw [List.forall₂_same]
  exact fun e _ => ⟨rfl, rfl, ⟨rfl, rfl⟩⟩

theorem helps_resolveImport
    (library : Library)
    {a b : Import}
    (hImports : A.Imports a b) :
    A.Helps A.Imports
      (resolveImport library a) (resolveImport library b) := by
  unfold resolveImport
  rw [hImports.isResolved, hImports.path]
  split
  · exact helps_pure hImports
  · refine (helps_forM hImports.entries fun _ _ hEntries =>
      helps_importEntry library b.path hEntries).bind
        fun _ _ _ => helps_pure ?_
    exact ⟨rfl, hImports.entries, rfl,
      hImports.span⟩

end Alignment

end SourceCheck
