import Mathlib.Order.Interval.Set.Defs
import SourceCheck.Proofs.Resolution.Matching

/-
  Resolvers that settle the uses of names.

  Before a part of a program is walked, the definitions that
  it declares have no types, and those that its environment
  knows have types.  The walk gives types to the former only,
  reports no mistakes of the checker, and records for each
  use of a name what the environment binds the name to.

  Key definitions include:
    * `Pending`
    * `Settles`

  Key theorems include:
    * `Settles.andThen`
    * `settles_reference`
    * `settles_invocation`
-/

namespace SourceCheck

open SourceCheck.Resolver

------------------------------------------------------------
-- States before a walk
------------------------------------------------------------

/-
  The symbols are the given ones but for types.  Some
  definitions have no type yet, and all definitions of the
  environment have one.
-/
structure Pending
    (y : Symbols)
    (ids : Set Nat)
    (env : Environment)
    (z : ResolverState) :
    Prop where
  untyped_eq : z.symbols.untyped = y
  unknown : ∀ id ∈ ids, z.symbols.type? id = none
  known :
    ∀ x ∈ env.flatten, (z.symbols.type? x.2).isSome

/- Two parts of a set have no member in common. -/
structure Splits (ids first second : Set Nat) : Prop where
  left : first ⊆ ids
  right : second ⊆ ids
  apart : ∀ id ∈ first, id ∉ second

theorem splits_Ico
    {lo mid hi : Nat}
    (hLow : lo ≤ mid)
    (hHigh : mid ≤ hi) :
    Splits (Set.Ico lo hi)
      (Set.Ico lo mid) (Set.Ico mid hi) where
  left _ hMember :=
    ⟨hMember.1, Nat.lt_of_lt_of_le hMember.2 hHigh⟩
  right _ hMember :=
    ⟨Nat.le_trans hLow hMember.1, hMember.2⟩
  apart _ hLeft hRight :=
    absurd hRight.1 (Nat.not_le.2 hLeft.2)

namespace Pending

variable {y : Symbols}
variable {ids first second : Set Nat}
variable {env inner : Environment}
variable {bindings : List Binding}
variable {z w : ResolverState}

theorem imp
    (hPending : Pending y ids env z)
    (hSubset : first ⊆ ids)
    (hEnv : inner.flatten ⊆ env.flatten) :
    Pending y first inner z where
  untyped_eq := hPending.untyped_eq
  unknown id hMember :=
    hPending.unknown id (hSubset hMember)
  known x hMember := hPending.known x (hEnv hMember)

/- A definition with a type is none of those without. -/
theorem not_mem
    (hPending : Pending y ids env z)
    {id : Nat}
    (hSome : (z.symbols.type? id).isSome) :
    id ∉ ids := by
  intro hMember
  rw [hPending.unknown id hMember] at hSome
  cases hSome

/- Behind the walk of one part the other is still pending. -/
theorem after
    (hPending : Pending y ids env z)
    (hSplits : Splits ids first second)
    (hChanges : Changes first z w)
    (hNew :
      ∀ x ∈ bindings, (w.symbols.type? x.2).isSome)
    (hEnv : inner.flatten ⊆ bindings ++ env.flatten) :
    Pending y second inner w where
  untyped_eq :=
    hChanges.untyped_eq.trans hPending.untyped_eq
  unknown id hMember := by
    rw [hChanges.type_eq id fun hFirst =>
      hSplits.apart id hFirst hMember]
    exact hPending.unknown id (hSplits.right hMember)
  known x hMember := by
    rcases List.mem_append.1 (hEnv hMember) with
      hMember | hMember
    · exact hNew x hMember
    · have hSome := hPending.known x hMember
      rw [hChanges.type_eq x.2 fun hFirst =>
        hPending.not_mem hSome (hSplits.left hFirst)]
      exact hSome

end Pending

------------------------------------------------------------
-- Settling
------------------------------------------------------------

/-
  From pending states the resolver changes only the given
  definitions, has types for the given bindings in the end,
  and its result has the property.
-/
def Settles
    {α : Type}
    (y : Symbols)
    (ids : Set Nat)
    (env : Environment)
    (p : Resolver α)
    (bindings : List Binding)
    (Q : α → Prop) :
    Prop :=
  ∀ z,
    Pending y ids env z →
      Changes ids z (p.outcome z).2 ∧
        (∀ x ∈ bindings,
          ((p.outcome z).2.symbols.type? x.2).isSome) ∧
          Q (p.outcome z).1

section Settles

variable {α β : Type}
variable {y : Symbols}
variable {ids first second : Set Nat}
variable {env inner : Environment}
variable {bs cs : List Binding}
variable {p : Resolver α}
variable {f : α → Resolver β}
variable {Q : α → Prop}
variable {R : β → Prop}

theorem settles_pure
    {a : α}
    (hResult : Q a) :
    Settles y ids env (pure a) [] Q :=
  fun z _ => ⟨.refl ids z, nofun, hResult⟩

/- A part is walked, then another one that may know it. -/
theorem Settles.andThen
    (hFirst : Settles y first env p bs Q)
    (hSplits : Splits ids first second)
    (hEnv : inner.flatten ⊆ bs ++ env.flatten)
    (hRest :
      ∀ a, Q a → Settles y second inner (f a) cs R) :
    Settles y ids env (p >>= f) (bs ++ cs) R := by
  intro z hPending
  rw [outcome_bind]
  rcases hFirst z (hPending.imp hSplits.left fun _ h => h)
    with ⟨hChanges, hNew, hResult⟩
  have hMiddle :=
    hPending.after hSplits hChanges hNew hEnv
  rcases hRest _ hResult _ hMiddle with
    ⟨hMore, hLast, hResult'⟩
  refine ⟨(hChanges.mono hSplits.left).trans
    (hMore.mono hSplits.right), ?_, hResult'⟩
  intro x hMember
  rcases List.mem_append.1 hMember with hMember | hMember
  · have hSome := hNew x hMember
    rw [hMore.type_eq x.2 (hMiddle.not_mem hSome)]
    exact hSome
  · exact hLast x hMember

/- Two parts are walked one after the other. -/
theorem Settles.bind
    {lo mid hi : Nat}
    (hFirst : Settles y (Set.Ico lo mid) env p [] Q)
    (hLow : lo ≤ mid)
    (hHigh : mid ≤ hi)
    (hRest :
      ∀ a,
        Q a → Settles y (Set.Ico mid hi) env (f a) cs R) :
    Settles y (Set.Ico lo hi) env (p >>= f) cs R :=
  hFirst.andThen (splits_Ico hLow hHigh) (fun _ h => h) hRest

/- Behind the last part nothing more is declared. -/
theorem Settles.last
    (hFirst : Settles y ids env p bs Q)
    (hRest : ∀ a, Q a → Settles y ∅ env (f a) [] R) :
    Settles y ids env (p >>= f) bs R := by
  have hSplits : Splits ids ids ∅ :=
    ⟨fun _ h => h, nofun, fun _ _ h => h⟩
  have hBoth :=
    hFirst.andThen hSplits
      (fun _ h => List.mem_append_right _ h) hRest
  rw [List.append_nil] at hBoth
  exact hBoth

/- A helper does not disturb. -/
theorem Alignment.Helps.settles
    {T : α → α → Prop}
    (hHelps : Alignment.identity.Helps T p p)
    (hRest : ∀ a, Settles y ids env (f a) cs R) :
    Settles y ids env (p >>= f) cs R := by
  intro z hPending
  rw [outcome_bind]
  have hCalm := hHelps.calm
  have hChanges := (hCalm z).mono (Set.empty_subset ids)
  have hSplits : Splits ids ∅ ids :=
    ⟨nofun, fun _ h => h, nofun⟩
  have hMiddle :
      Pending y ids env (p.outcome z).2 :=
    hPending.after hSplits (hCalm z)
      (List.forall_mem_nil _) (fun _ h => h)
  rcases hRest _ _ hMiddle with ⟨hMore, hLast, hResult⟩
  exact ⟨hChanges.trans hMore, hLast, hResult⟩

theorem Settles.forget
    (hSettles : Settles y ids env p (bs ++ cs) Q) :
    Settles y ids env p cs Q := by
  intro z hPending
  rcases hSettles z hPending with ⟨hChanges, hNew, hResult⟩
  exact ⟨hChanges,
    fun x hMember => hNew x (List.mem_append_right _ hMember),
    hResult⟩

theorem Settles.imp
    {T : α → Prop}
    (hSettles : Settles y first env p bs Q)
    (hSubset : first ⊆ ids)
    (hEnv : env.flatten ⊆ inner.flatten)
    (hImp : ∀ a, Q a → T a) :
    Settles y ids inner p bs T := by
  intro z hPending
  rcases hSettles z (hPending.imp hSubset hEnv) with
    ⟨hChanges, hNew, hResult⟩
  exact ⟨hChanges.mono hSubset, hNew, hImp _ hResult⟩

end Settles

------------------------------------------------------------
-- Uses of names
------------------------------------------------------------

section Names

variable {y : Symbols}
variable {ids : Set Nat}
variable {env : Environment}
variable {a b : Nat}
variable {around : Surroundings}
variable {scope : ScopeId}
variable {p : Position}

theorem Environment.mem_flatten_of_lookup
    {name : String}
    {id : DefinitionId}
    (hFound : env.lookup name = some id) :
    (name, id) ∈ env.flatten := by
  rcases List.exists_of_findSome?_eq_some hFound with
    ⟨frame, hFrame, hName⟩
  rcases List.lookup_eq_some_iff.1 hName with
    ⟨front, back, hSplit, -⟩
  refine List.mem_flatten.2 ⟨frame, hFrame, ?_⟩
  rw [hSplit]
  simp

/- A definition that has a type is read without a report. -/
theorem outcome_definitionType
    {z : ResolverState}
    {id : DefinitionId}
    (hKnown : (z.symbols.type? id).isSome)
    (p : Position) :
    ((definitionType id p).outcome z).2 = z := by
  rcases Option.isSome_iff_exists.1 hKnown with
    ⟨type, hType⟩
  rw [outcome_definitionType_eq, hType]
  rfl

/-
  Names that the environment knows are looked up in scopes;
  what is done then is calm.
-/
theorem settles_visible?
    {α : Type}
    {f : Option DefinitionId → Resolver α}
    {Q : α → Prop}
    {name : String}
    (hSees : y.Sees a b (some scope) env)
    (hStart : a ≤ p.offset)
    (hStop : p.offset < b)
    (hNone :
      env.lookup name = none →
        Settles y ids env (f none) [] Q)
    (hSome :
      ∀ id,
        env.lookup name = some id →
          ∀ z,
            Pending y ids env z →
              (z.symbols.type? id).isSome →
                Changes ids z ((f (some id)).outcome z).2 ∧
                  Q ((f (some id)).outcome z).1) :
    Settles y ids env (visible? scope name p >>= f) [] Q := by
  intro z hPending
  have hFound :
      z.symbols.findVisible? scope name p.offset =
        env.lookup name := by
    rw [← Symbols.findVisible?_untyped, hPending.untyped_eq]
    exact hSees.findVisible?_eq hStart hStop name
  have hRun :
      (visible? scope name p >>= f).outcome z =
        (f (z.symbols.findVisible? scope name
          p.offset)).outcome z :=
    rfl
  rw [hRun, hFound]
  cases hLookup : env.lookup name with
  | none => exact hNone hLookup z hPending
  | some id =>
      have hKnown :=
        hPending.known _
          (Environment.mem_flatten_of_lookup hLookup)
      rcases hSome id hLookup z hPending hKnown with
        ⟨hChanges, hResult⟩
      exact ⟨hChanges, nofun, hResult⟩

/- What is imported is no definition of the program. -/
theorem definition_importedProperty
    (name : String)
    (target : Target)
    (p : Position)
    (z : ResolverState) :
    ((importedProperty name target p).outcome
      z).1.1.definition = target.definition := by
  unfold importedProperty
  rw [outcome_bind, outcome_get]
  dsimp only
  split
  · rfl
  · rfl
  · rfl

/- A name is bound as the environment says. -/
theorem settles_reference
    (hScope : around.scope = some scope)
    (hSees : y.Sees a b (some scope) env)
    (hStart : a ≤ p.offset)
    (hStop : p.offset < b)
    (name : String) :
    Settles y ids env
      (Resolver.reference around name .unknown p) []
      (fun r => r.1.definition = env.lookup name) := by
  unfold Resolver.reference
  rw [hScope]
  refine settles_visible? hSees hStart hStop ?_ ?_
  · intro hLookup z _
    have hCalm :=
      (Alignment.helps_importedProperty name .unknown p
        p).calm z
    have hNothing :=
      definition_importedProperty name .unknown p z
    rw [hLookup]
    dsimp only
    rw [outcome_bind, outcome_get]
    dsimp only
    cases z.types.find? name with
    | some type => exact ⟨.refl _ _, nofun, rfl⟩
    | none =>
        exact ⟨hCalm.mono (Set.empty_subset ids), nofun,
          hNothing⟩
  · intro id hLookup z _ hKnown
    have hState := outcome_definitionType hKnown p
    rw [hLookup]
    unfold typed
    dsimp only
    rw [outcome_bind, hState]
    exact ⟨.refl _ _, rfl⟩

/- The name in a call is bound as the environment says. -/
theorem settles_invocation
    (hScope : around.scope = some scope)
    (hSees : y.Sees a b (some scope) env)
    (hStart : a ≤ p.offset)
    (hStop : p.offset < b)
    (name : String)
    (arguments : List Ty) :
    Settles y ids env
      (Resolver.invocation around name arguments .unknown p)
      [] (fun r => r.1.definition = env.lookup name) := by
  unfold Resolver.invocation
  rw [hScope]
  refine settles_visible? hSees hStart hStop ?_ ?_
  · intro hLookup z _
    have hCalm :=
      (Alignment.helps_noFunction name arguments p p).calm z
    rw [hLookup]
    dsimp only
    rw [outcome_bind, outcome_get]
    dsimp only
    cases z.members.functions name arguments with
    | cons f _ => exact ⟨.refl _ _, nofun, rfl⟩
    | nil =>
        exact ⟨hCalm.mono (Set.empty_subset ids), nofun,
          rfl⟩
  · intro id hLookup z _ hKnown
    have hState := outcome_definitionType hKnown p
    rw [hLookup, outcome_bind, hState]
    generalize ((definitionType id p).outcome z).1 = callee
    have hCalm :=
      (Alignment.helps_callType name callee arguments p
        p).calm z
    exact ⟨hCalm.mono (Set.empty_subset ids), rfl⟩

end Names

end SourceCheck
