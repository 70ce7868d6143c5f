import SourceCheck.Proofs.Scoping.Environment
import SourceCheck.Scope.Symbols

/-
  Names are looked up as an environment says.

  In a window of the source text the scopes that are open
  there show exactly the frames of an environment: of what a
  scope binds, the names declared before the window may be
  seen in it, and the names declared behind it may not.

  Key definitions include:
    * `Symbols.untyped`
    * `Symbols.Holds`
    * `Symbols.Shows`
    * `Symbols.Sees`
    * `Symbols.Reaches`

  Key theorems include:
    * `Symbols.Holds.shows`
    * `Symbols.Sees.findVisible?_eq`
    * `Symbols.Reaches.advance`
-/

namespace SourceCheck

namespace Symbols

------------------------------------------------------------
-- Symbols without types
------------------------------------------------------------

/- The symbols before any definition got its type. -/
def untyped (y : Symbols) : Symbols where
  scopes := y.scopes
  definitions :=
    y.definitions.map fun d => { d with type := none }

theorem chainOf_untyped
    (y : Symbols)
    (steps : Nat)
    (scope : Option ScopeId) :
    y.untyped.chainOf steps scope = y.chainOf steps scope := by
  induction steps generalizing scope with
  | zero => rfl
  | succ steps ih =>
      cases scope with
      | none => rfl
      | some scope =>
          unfold chainOf
          rw [ih]
          rfl

theorem isVisible_untyped
    (y : Symbols)
    (offset : Nat)
    (id : DefinitionId) :
    y.untyped.isVisible offset id = y.isVisible offset id := by
  unfold isVisible untyped
  rw [Array.getElem?_map]
  cases y.definitions[id]? with
  | none => rfl
  | some d => rfl

/- Types do not matter for what a name is bound to. -/
theorem findVisible?_untyped
    (y : Symbols)
    (scope : ScopeId)
    (name : String)
    (offset : Nat) :
    y.untyped.findVisible? scope name offset =
      y.findVisible? scope name offset := by
  have hVisible :
      y.untyped.isVisible offset = y.isVisible offset :=
    funext (y.isVisible_untyped offset)
  unfold findVisible? chain
  rw [chainOf_untyped, hVisible]
  rfl

theorem findVisible?_of_untyped_eq
    {y z : Symbols}
    (hSame : y.untyped = z.untyped)
    (scope : ScopeId)
    (name : String)
    (offset : Nat) :
    y.findVisible? scope name offset =
      z.findVisible? scope name offset := by
  rw [← findVisible?_untyped, hSame, findVisible?_untyped]

------------------------------------------------------------
-- Scopes and frames
------------------------------------------------------------

/- The definition may be seen from one offset on. -/
def VisibleFrom
    (y : Symbols)
    (id : DefinitionId)
    (offset : Nat) :
    Prop :=
  ∃ d, y.definitions[id]? = some d ∧ d.visibleFrom = offset

/-
  The scope binds exactly the given names, in the order of
  their declaration, and lies in an older one or in none.
-/
structure Holds
    (y : Symbols)
    (scope : ScopeId)
    (parent : Option ScopeId)
    (bindings : List Binding) :
    Prop where
  scope_eq :
    y.scopes[scope]? = some ⟨parent, bindings.reverse⟩
  nodup : (bindings.map Prod.fst).Nodup
  parent_lt : ∀ outer, parent = some outer → outer < scope

/-
  In the window from `a` up to `b` the scope itself shows
  the bindings of a frame.
-/
def Shows
    (y : Symbols)
    (a b : Nat)
    (scope : ScopeId)
    (frame : List Binding) :
    Prop :=
  ∀ offset,
    a ≤ offset →
      offset < b →
        ∀ name,
          (y.local? scope name).filter (y.isVisible offset) =
            frame.lookup name

/-
  Of the names that a scope binds those show that were
  declared before the window, and not the later ones.
-/
theorem Holds.shows
    {y : Symbols}
    {scope : ScopeId}
    {parent : Option ScopeId}
    {before behind : List Binding}
    (hHolds : y.Holds scope parent (before ++ behind))
    {a b : Nat}
    (hBefore :
      ∀ x ∈ before, ∃ v, y.VisibleFrom x.2 v ∧ v ≤ a)
    (hBehind :
      ∀ x ∈ behind, ∃ v, y.VisibleFrom x.2 v ∧ b ≤ v) :
    y.Shows a b scope before.reverse := by
  intro offset hStart hStop name
  have hLocal :
      y.local? scope name =
        (behind.reverse.lookup name).or
          (before.reverse.lookup name) := by
    unfold local?
    rw [hHolds.scope_eq]
    simp only [Option.bind_some, Scope.get?,
      List.reverse_append, List.lookup_append]
  rw [hLocal]
  cases hFound : behind.reverse.lookup name with
  | some id =>
      have hMember : (name, id) ∈ behind := by
        rw [← List.mem_reverse]
        rcases List.lookup_eq_some_iff.1 hFound with
          ⟨front, back, hSplit, -⟩
        rw [hSplit]
        simp
      have hNone : before.reverse.lookup name = none := by
        rw [List.lookup_eq_none_iff]
        intro x hOther
        have hNodup := hHolds.nodup
        rw [List.map_append, List.nodup_append] at hNodup
        have hNe :=
          hNodup.2.2 x.1
            (List.mem_map_of_mem (List.mem_reverse.1 hOther))
            name (List.mem_map_of_mem hMember)
        exact bne_iff_ne.2 hNe.symm
      rcases hBehind _ hMember with
        ⟨v, ⟨d, hDefinition, hVisible⟩, hLate⟩
      have hHidden : y.isVisible offset id = false := by
        unfold isVisible
        rw [hDefinition]
        simp only [hVisible, decide_eq_false_iff_not]
        omega
      rw [hNone, Option.some_or]
      simp [hHidden]
  | none =>
      rw [Option.none_or]
      cases hFound : before.reverse.lookup name with
      | none => rfl
      | some id =>
          have hMember : (name, id) ∈ before := by
            rw [← List.mem_reverse]
            rcases List.lookup_eq_some_iff.1 hFound with
              ⟨front, back, hSplit, -⟩
            rw [hSplit]
            simp
          rcases hBefore _ hMember with
            ⟨v, ⟨d, hDefinition, hVisible⟩, hEarly⟩
          have hSeen : y.isVisible offset id = true := by
            unfold isVisible
            rw [hDefinition]
            simp only [hVisible, decide_eq_true_eq]
            omega
          simp [hSeen]

------------------------------------------------------------
-- Scopes and environments
------------------------------------------------------------

/-
  In the window from `a` up to `b` the scope and the scopes
  around it show the frames of the environment.
-/
inductive Sees
    (y : Symbols)
    (a b : Nat) :
    Option ScopeId → Environment → Prop where
  | nowhere : Sees y a b none []
  | within {scope parent bindings frame env}
      (hHolds : y.Holds scope parent bindings)
      (hShows : y.Shows a b scope frame)
      (hOuter : Sees y a b parent env) :
      Sees y a b (some scope) (frame :: env)

/- What is seen in a window is seen in every part of it. -/
theorem Sees.mono
    {y : Symbols}
    {a b c d : Nat}
    {scope : Option ScopeId}
    {env : Environment}
    (hSees : y.Sees a b scope env)
    (hStart : a ≤ c)
    (hStop : d ≤ b) :
    y.Sees c d scope env := by
  induction hSees with
  | nowhere => exact .nowhere
  | within hHolds hShows _ ih =>
      refine .within hHolds ?_ ih
      intro offset hFrom hTo
      exact hShows offset (by omega) (by omega)

/-
  A name is looked up along the scopes as it is looked up in
  the environment.
-/
theorem Sees.findSome?_eq
    {y : Symbols}
    {a b : Nat}
    {scope : Option ScopeId}
    {env : Environment}
    (hSees : y.Sees a b scope env)
    {offset : Nat}
    (hStart : a ≤ offset)
    (hStop : offset < b)
    (name : String)
    (steps : Nat)
    (hSteps : ∀ inner, scope = some inner → inner < steps) :
    ((y.chainOf steps scope).findSome? fun id =>
        (y.local? id name).filter (y.isVisible offset)) =
      env.lookup name := by
  induction hSees generalizing steps with
  | nowhere =>
      cases steps with
      | zero => rfl
      | succ steps => rfl
  | @within scope parent bindings frame env hHolds hShows
      _ ih =>
      have hBound := hSteps scope rfl
      cases steps with
      | zero => exact absurd hBound (Nat.not_lt_zero _)
      | succ steps =>
          have hParent : y.parent? scope = parent := by
            unfold parent?
            rw [hHolds.scope_eq]
            rfl
          have hOuter := ih steps fun inner hInner =>
            Nat.lt_of_lt_of_le
              (hHolds.parent_lt inner hInner)
              (Nat.le_of_lt_succ hBound)
          unfold chainOf Environment.lookup
          rw [List.findSome?_cons, List.findSome?_cons,
            hShows offset hStart hStop, hParent, hOuter]
          rfl

/- In the window names are bound as the environment says. -/
theorem Sees.findVisible?_eq
    {y : Symbols}
    {a b : Nat}
    {scope : ScopeId}
    {env : Environment}
    (hSees : y.Sees a b (some scope) env)
    {offset : Nat}
    (hStart : a ≤ offset)
    (hStop : offset < b)
    (name : String) :
    y.findVisible? scope name offset = env.lookup name := by
  refine hSees.findSome?_eq hStart hStop name _ ?_
  rintro _ ⟨⟩
  cases hSees with
  | within hHolds _ _ =>
      have hSome := hHolds.scope_eq
      rw [Array.getElem?_eq_some_iff] at hSome
      exact hSome.choose

------------------------------------------------------------
-- Scopes on the way
------------------------------------------------------------

/- The names are declared in the window, or at its ends. -/
def Dated
    (y : Symbols)
    (a b : Nat)
    (bindings : List Binding) :
    Prop :=
  ∀ x ∈ bindings, ∃ v, y.VisibleFrom x.2 v ∧ a ≤ v ∧ v ≤ b

/- The names are declared behind the window. -/
def Hidden
    (y : Symbols)
    (b : Nat)
    (bindings : List Binding) :
    Prop :=
  ∀ x ∈ bindings, ∃ v, y.VisibleFrom x.2 v ∧ b ≤ v

theorem Dated.hidden
    {y : Symbols}
    {a b : Nat}
    {bindings : List Binding}
    (hDated : y.Dated a b bindings) :
    y.Hidden a bindings := by
  intro x hMember
  rcases hDated x hMember with ⟨v, hVisible, hStart, -⟩
  exact ⟨v, hVisible, hStart⟩

theorem Hidden.mono
    {y : Symbols}
    {a b : Nat}
    {bindings : List Binding}
    (hHidden : y.Hidden b bindings)
    (hLe : a ≤ b) :
    y.Hidden a bindings := by
  intro x hMember
  rcases hHidden x hMember with ⟨v, hVisible, hStart⟩
  exact ⟨v, hVisible, Nat.le_trans hLe hStart⟩

theorem Hidden.append
    {y : Symbols}
    {b : Nat}
    {bs cs : List Binding}
    (hFirst : y.Hidden b bs)
    (hSecond : y.Hidden b cs) :
    y.Hidden b (bs ++ cs) := by
  intro x hMember
  rcases List.mem_append.1 hMember with hMember | hMember
  · exact hFirst x hMember
  · exact hSecond x hMember

/-
  A walk has come to the window from `a` up to `b`.  Of the
  names that the scope binds some are declared already; the
  scopes around it show the outer environment.
-/
structure Reaches
    (y : Symbols)
    (a b : Nat)
    (scope : ScopeId)
    (done behind : List Binding)
    (outer : Environment) :
    Prop where
  holds :
    ∃ parent,
      y.Holds scope parent (done ++ behind) ∧
        y.Sees a b parent outer
  declared :
    ∀ x ∈ done, ∃ v, y.VisibleFrom x.2 v ∧ v ≤ a

namespace Reaches

variable {y : Symbols}
variable {a b c d : Nat}
variable {scope : ScopeId}
variable {done new behind : List Binding}
variable {outer : Environment}

/- Names of the scope show if they are declared already. -/
theorem sees
    (hReaches : y.Reaches a b scope done behind outer)
    (hHidden : y.Hidden d behind)
    (hStop : d ≤ b) :
    y.Sees a d (some scope) (done.reverse :: outer) := by
  rcases hReaches.holds with ⟨parent, hHolds, hSees⟩
  have hOuter := hSees.mono (Nat.le_refl a) hStop
  exact .within hHolds
    (hHolds.shows hReaches.declared hHidden) hOuter

/- The walk comes to a part of the window. -/
theorem mono
    (hReaches : y.Reaches a b scope done behind outer)
    (hStart : a ≤ c)
    (hStop : d ≤ b) :
    y.Reaches c d scope done behind outer where
  holds := by
    rcases hReaches.holds with ⟨parent, hHolds, hSees⟩
    exact ⟨parent, hHolds, hSees.mono hStart hStop⟩
  declared x hMember := by
    rcases hReaches.declared x hMember with
      ⟨v, hVisible, hLe⟩
    exact ⟨v, hVisible, Nat.le_trans hLe hStart⟩

/- Behind their declarations more names are declared. -/
theorem advance
    (hReaches :
      y.Reaches a b scope done (new ++ behind) outer)
    (hStart : a ≤ c)
    (hNew :
      ∀ x ∈ new, ∃ v, y.VisibleFrom x.2 v ∧ v ≤ c) :
    y.Reaches c b scope (done ++ new) behind outer where
  holds := by
    rcases hReaches.holds with ⟨parent, hHolds, hSees⟩
    rw [← List.append_assoc] at hHolds
    exact ⟨parent, hHolds, hSees.mono hStart (Nat.le_refl b)⟩
  declared x hMember := by
    rcases List.mem_append.1 hMember with hMember | hMember
    · rcases hReaches.declared x hMember with
        ⟨v, hVisible, hLe⟩
      exact ⟨v, hVisible, Nat.le_trans hLe hStart⟩
    · exact hNew x hMember

/- A walk enters a scope whose names are all declared later. -/
theorem enter
    {inner : ScopeId}
    {parent : Option ScopeId}
    {env : Environment}
    (hHolds : y.Holds inner parent behind)
    (hSees : y.Sees a b parent env) :
    y.Reaches a b inner [] behind env :=
  ⟨⟨parent, hHolds, hSees⟩, nofun⟩

end Reaches

end Symbols

end SourceCheck
