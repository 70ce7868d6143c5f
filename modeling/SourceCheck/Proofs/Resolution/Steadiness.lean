import SourceCheck.Proofs.Resolution.Properties

/-
  Resolvers that see the same of two states.

  Two states agree within bounds if they have the same first
  definitions and give the same answers about names that are
  looked up within the bounds.  A steady resolver gives the
  same result in both states and reports the same; it leaves
  the very first definitions as they are.

  Key definitions include:
    * `Bounds.Agrees`
    * `Bounds.Keeps`
    * `Bounds.Steady`
    * `Bounds.steadiness`

  Key theorems include:
    * `Bounds.SteadyWith.bind`
    * `Bounds.steady_visible?`
    * `Bounds.steady_fillType`
-/

namespace SourceCheck

open SourceCheck.Resolver

------------------------------------------------------------
-- States
------------------------------------------------------------

namespace Bounds

/-
  Within bounds both states have the same definitions, and
  names are bound alike.
-/
structure Agrees
    (b : Bounds)
    (z w : ResolverState) :
    Prop where
  size_le : z.symbols.definitions.size ≤ b.definitions
  definitions_eq :
    ∀ id,
      id < b.definitions →
        w.symbols.definitions[id]? =
          z.symbols.definitions[id]?
  found_eq :
    ∀ scope name offset,
      scope < b.scopes →
        offset < b.offset →
          w.symbols.findVisible? scope name offset =
            z.symbols.findVisible? scope name offset
  types_eq : w.types = z.types
  members_eq : w.members = z.members
  diagnostics_eq : w.diagnostics = z.diagnostics

/-
  The very first definitions stay as they are, no definition
  is added, and what was reported stays reported.
-/
structure Keeps
    (b : Bounds)
    (z w : ResolverState) :
    Prop where
  size_eq :
    w.symbols.definitions.size = z.symbols.definitions.size
  definitions_eq :
    ∀ id,
      id < b.first →
        w.symbols.definitions[id]? =
          z.symbols.definitions[id]?
  reports : z.diagnostics <+: w.diagnostics

variable {b : Bounds}
variable {z w v : ResolverState}

theorem Keeps.refl (b : Bounds) (z : ResolverState) :
    b.Keeps z z :=
  ⟨rfl, fun _ _ => rfl, List.prefix_rfl⟩

theorem Keeps.trans
    (hFirst : b.Keeps z w)
    (hSecond : b.Keeps w v) :
    b.Keeps z v where
  size_eq := hSecond.size_eq.trans hFirst.size_eq
  definitions_eq id hLess :=
    (hSecond.definitions_eq id hLess).trans
      (hFirst.definitions_eq id hLess)
  reports := hFirst.reports.trans hSecond.reports

/- A state agrees with itself. -/
theorem Agrees.refl
    (hSize : z.symbols.definitions.size ≤ b.definitions) :
    b.Agrees z z :=
  ⟨hSize, fun _ _ => rfl, fun _ _ _ _ _ => rfl, rfl, rfl,
    rfl⟩

------------------------------------------------------------
-- Steady resolvers
------------------------------------------------------------

variable {α β γ : Type}
variable {P : α → Prop}
variable {Q : β → Prop}

/- Results are the same, and states still agree. -/
structure Outcomes
    (b : Bounds)
    (P : α → Prop)
    (z : ResolverState)
    (x y : α × ResolverState) :
    Prop where
  same : y.1 = x.1
  holds : P x.1
  agrees : b.Agrees x.2 y.2
  keeps : b.Keeps z x.2

/-
  From states that agree the resolver leads to the same, and
  the result has a property.
-/
def SteadyWith
    (b : Bounds)
    (P : α → Prop)
    (p : Resolver α) :
    Prop :=
  ∀ z w,
    b.Agrees z w →
      b.Outcomes P z (p.outcome z) (p.outcome w)

/- From states that agree the resolver leads to the same. -/
abbrev Steady (b : Bounds) (p : Resolver α) : Prop :=
  b.SteadyWith (fun _ => True) p

theorem SteadyWith.bind
    {p : Resolver α}
    {f : α → Resolver β}
    (hFirst : b.SteadyWith P p)
    (hRest : ∀ a, P a → b.SteadyWith Q (f a)) :
    b.SteadyWith Q (p >>= f) := by
  intro z w hAgrees
  have hBoth := hFirst z w hAgrees
  have hMore := hRest _ hBoth.holds _ _ hBoth.agrees
  rw [outcome_bind, outcome_bind, hBoth.same]
  exact ⟨hMore.same, hMore.holds, hMore.agrees,
    hBoth.keeps.trans hMore.keeps⟩

theorem Steady.bind
    {p : Resolver α}
    {f : α → Resolver β}
    (hFirst : b.Steady p)
    (hRest : ∀ a, b.SteadyWith Q (f a)) :
    b.SteadyWith Q (p >>= f) :=
  SteadyWith.bind hFirst fun a _ => hRest a

theorem steady_pure
    {a : α}
    (hResult : P a) :
    b.SteadyWith P (pure a) :=
  fun z _ hAgrees => ⟨rfl, hResult, hAgrees, .refl b z⟩

theorem SteadyWith.imp
    {S : α → Prop}
    {p : Resolver α}
    (hSteady : b.SteadyWith P p)
    (hImp : ∀ a, P a → S a) :
    b.SteadyWith S p := by
  intro z w hAgrees
  have hBoth := hSteady z w hAgrees
  exact ⟨hBoth.same, hImp _ hBoth.holds, hBoth.agrees,
    hBoth.keeps⟩

/- What is read of the states is the same. -/
theorem steady_get
    {f : ResolverState → Resolver α}
    (hRest :
      ∀ z w,
        b.Agrees z w →
          b.Outcomes P z ((f z).outcome z)
            ((f w).outcome w)) :
    b.SteadyWith P (get >>= f) :=
  hRest

------------------------------------------------------------
-- Reports
------------------------------------------------------------

theorem steady_report
    (problem : Problem)
    (p : Position) :
    b.Steady (report problem p) := by
  intro z w hAgrees
  have hSame := congrArg (· ++ [Diagnostic.mk problem p])
    hAgrees.diagnostics_eq
  exact ⟨rfl, trivial,
    { hAgrees with diagnostics_eq := hSame },
    rfl, fun _ _ => rfl, List.prefix_append _ _⟩

theorem steady_errorType
    (problem : Problem)
    (p : Position) :
    b.Steady (errorType problem p) :=
  (steady_report problem p).bind fun _ => steady_pure trivial

------------------------------------------------------------
-- Definitions
------------------------------------------------------------

theorem Agrees.type?_eq
    {id : DefinitionId}
    (hAgrees : b.Agrees z w)
    (hLess : id < b.definitions) :
    w.symbols.type? id = z.symbols.type? id := by
  unfold Symbols.type?
  rw [hAgrees.definitions_eq id hLess]

theorem steady_definitionType
    {id : DefinitionId}
    (hLess : id < b.definitions)
    (p : Position) :
    b.Steady (definitionType id p) := by
  intro z w hAgrees
  rw [outcome_definitionType_eq, outcome_definitionType_eq,
    hAgrees.type?_eq hLess, hAgrees.definitions_eq id hLess]
  cases z.symbols.type? id with
  | some type => exact steady_pure trivial z w hAgrees
  | none => exact steady_errorType _ p z w hAgrees

theorem steady_isResolved
    {id : DefinitionId}
    (hLess : id < b.definitions) :
    b.Steady (isResolved id) := by
  refine steady_get fun z w hAgrees => ?_
  rw [hAgrees.type?_eq hLess]
  exact steady_pure trivial z w hAgrees

/- Other definitions keep their types. -/
theorem getElem?_fillType_of_ne
    (y : Symbols)
    {id other : DefinitionId}
    (hNe : other ≠ id)
    (type : Ty) :
    (y.fillType id type).definitions[other]? =
      y.definitions[other]? := by
  unfold Symbols.fillType
  rw [Array.getElem?_modify, if_neg hNe.symm]

theorem getElem?_fillType_eq
    {y z : Symbols}
    {other : DefinitionId}
    (hSame : z.definitions[other]? = y.definitions[other]?)
    (id : DefinitionId)
    (type : Ty) :
    (z.fillType id type).definitions[other]? =
      (y.fillType id type).definitions[other]? := by
  unfold Symbols.fillType
  rw [Array.getElem?_modify, Array.getElem?_modify, hSame]

theorem size_fillType
    (y : Symbols)
    (id : DefinitionId)
    (type : Ty) :
    (y.fillType id type).definitions.size =
      y.definitions.size :=
  Array.size_modify

/- Types do not matter for what a name is bound to. -/
theorem findVisible?_fillType
    (y : Symbols)
    (id : DefinitionId)
    (type : Ty)
    (scope : ScopeId)
    (name : String)
    (offset : Nat) :
    (y.fillType id type).findVisible? scope name offset =
      y.findVisible? scope name offset :=
  Symbols.findVisible?_of_untyped_eq
    (Symbols.untyped_fillType y id type) scope name offset

theorem steady_fillType
    {id : DefinitionId}
    (hMakes : b.Makes id)
    (type : Ty) :
    b.Steady (fillType id type) := by
  intro z w hAgrees
  refine ⟨rfl, trivial, ?_, ?_⟩
  · exact
      { hAgrees with
        size_le := by
          refine Nat.le_trans (Nat.le_of_eq ?_)
            hAgrees.size_le
          exact size_fillType z.symbols id type
        definitions_eq := fun other hLess =>
          getElem?_fillType_eq
            (hAgrees.definitions_eq other hLess) id type
        found_eq := fun scope name offset hScope hOffset => by
          refine (findVisible?_fillType w.symbols id type
            scope name offset).trans ?_
          rw [hAgrees.found_eq scope name offset hScope
            hOffset]
          exact (findVisible?_fillType z.symbols id type
            scope name offset).symm }
  · refine ⟨size_fillType z.symbols id type,
      fun other hLess => ?_, List.prefix_rfl⟩
    refine getElem?_fillType_of_ne z.symbols ?_ type
    exact Nat.ne_of_lt (Nat.lt_of_lt_of_le hLess hMakes.1)

------------------------------------------------------------
-- Names
------------------------------------------------------------

/- Only definitions that exist are found. -/
theorem lt_of_findVisible?
    {y : Symbols}
    {scope : ScopeId}
    {name : String}
    {offset : Nat}
    {id : DefinitionId}
    (hFound : y.findVisible? scope name offset = some id) :
    id < y.definitions.size := by
  unfold Symbols.findVisible? at hFound
  rcases List.exists_of_findSome?_eq_some hFound with
    ⟨inner, -, hLocal⟩
  have hVisible := (Option.filter_eq_some_iff.1 hLocal).2
  unfold Symbols.isVisible at hVisible
  by_contra hLarge
  rw [Array.getElem?_eq_none (Nat.le_of_not_lt hLarge)]
    at hVisible
  cases hVisible

/- Within bounds names are bound alike. -/
theorem steady_visible?
    {scope : ScopeId}
    {p : Position}
    (hScope : scope < b.scopes)
    (hPlace : p.offset < b.offset)
    (name : String) :
    b.SteadyWith
      (fun found =>
        ∀ id, found = some id → id < b.definitions)
      (visible? scope name p) := by
  intro z w hAgrees
  refine ⟨hAgrees.found_eq scope name p.offset hScope hPlace,
    fun id hFound => ?_, hAgrees, .refl b z⟩
  exact Nat.lt_of_lt_of_le (lt_of_findVisible? hFound)
    hAgrees.size_le

theorem steady_checkDefinition
    {id : DefinitionId}
    (hLess : id < b.definitions)
    (p : Position) :
    b.Steady (checkDefinition id p) := by
  refine steady_get fun z w hAgrees => ?_
  rw [hAgrees.definitions_eq id hLess]
  dsimp only
  split
  · exact steady_report _ p z w hAgrees
  · split
    · exact steady_report _ p z w hAgrees
    · exact steady_pure trivial z w hAgrees

------------------------------------------------------------
-- Steadiness as a property
------------------------------------------------------------

/- Resolvers are steady if all of their parts are. -/
def steadiness (b : Bounds) : ResolverProperty b where
  holds := b.SteadyWith
  ofPure := steady_pure
  ofBind := SteadyWith.bind
  ofImp := SteadyWith.imp
  ofReport := steady_report
  ofNames := by
    intro α P f hNames hRest
    refine steady_get fun z w hAgrees => ?_
    rw [hNames w z
      (.of_eq hAgrees.types_eq hAgrees.members_eq)]
    exact hRest z z w hAgrees
  ofRename {f g} _ _ := by
    intro z w hAgrees
    exact ⟨rfl, trivial,
      { hAgrees with
        types_eq := congrArg f hAgrees.types_eq
        members_eq := congrArg g hAgrees.members_eq },
      rfl, fun _ _ => rfl, List.prefix_rfl⟩
  ofVisible := steady_visible?
  ofDefinitionType := steady_definitionType
  ofIsResolved := steady_isResolved
  ofFillType := steady_fillType
  ofCheckDefinition := steady_checkDefinition

end Bounds

end SourceCheck
