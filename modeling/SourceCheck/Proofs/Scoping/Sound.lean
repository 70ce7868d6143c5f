import SourceCheck.Scope.Symbols

/-
  Sound symbols.

  Scopes lie in older ones, and names are bound to
  definitions that exist.  Whatever is done to symbols keeps
  them sound.

  Key definitions include:
    * `Symbols.Sound`

  Key theorems include:
    * `Symbols.Sound.openScope`
    * `Symbols.Sound.addDefinition`
    * `Symbols.Sound.insert`
    * `Symbols.Sound.fillType`
-/

namespace SourceCheck

namespace Symbols

variable {y : Symbols}

/-
  Scopes lie in older ones, and names are bound to
  definitions that exist.
-/
structure Sound (y : Symbols) : Prop where
  parent_lt :
    ∀ scope outer,
      y.parent? scope = some outer → outer < scope
  bound_lt :
    ∀ scope name id,
      y.local? scope name = some id →
        id < y.definitions.size

theorem sound_empty : empty.Sound :=
  ⟨nofun, nofun⟩

/- A scope is opened in one that exists. -/
theorem Sound.openScope
    {parent : Option ScopeId}
    (hSound : y.Sound)
    (hParent :
      ∀ outer, parent = some outer → outer < y.scopes.size) :
    (y.openScope parent).2.Sound where
  parent_lt scope outer hOuter := by
    unfold parent? Symbols.openScope at hOuter
    dsimp only at hOuter
    rw [Array.getElem?_push] at hOuter
    split at hOuter
    · rename_i hNew
      subst hNew
      exact hParent outer hOuter
    · exact hSound.parent_lt scope outer hOuter
  bound_lt scope name id hLocal := by
    unfold local? Symbols.openScope at hLocal
    dsimp only at hLocal
    rw [Array.getElem?_push] at hLocal
    split at hLocal
    · cases hLocal
    · exact hSound.bound_lt scope name id hLocal

theorem Sound.addDefinition
    (hSound : y.Sound)
    (d : Definition) :
    (y.addDefinition d).2.Sound where
  parent_lt := hSound.parent_lt
  bound_lt scope name id hLocal := by
    have hLess := hSound.bound_lt scope name id hLocal
    unfold Symbols.addDefinition
    rw [Array.size_push]
    exact Nat.lt_succ_of_lt hLess

/- A name is bound to a definition that exists. -/
theorem Sound.insert
    {id : DefinitionId}
    (hSound : y.Sound)
    (hId : id < y.definitions.size)
    (scope : ScopeId)
    (name : String) :
    Sound
      { y with
        scopes :=
          y.scopes.modify scope (·.insert name id) } where
  parent_lt other outer hOuter := by
    refine hSound.parent_lt other outer ?_
    unfold parent? at hOuter ⊢
    dsimp only at hOuter
    rw [Array.getElem?_modify] at hOuter
    split at hOuter
    · cases hScope : y.scopes[other]? with
      | none =>
          rw [hScope] at hOuter
          cases hOuter
      | some old =>
          rw [hScope] at hOuter
          exact hOuter
    · exact hOuter
  bound_lt other text found hLocal := by
    have hOld := hSound.bound_lt other text found
    unfold local? at hLocal hOld
    dsimp only at hLocal
    rw [Array.getElem?_modify] at hLocal
    split at hLocal
    · cases hScope : y.scopes[other]? with
      | none =>
          rw [hScope] at hLocal
          cases hLocal
      | some old =>
          rw [hScope] at hLocal hOld
          rw [Option.map_some, Option.bind_some,
            Scope.get?_insert] at hLocal
          split at hLocal
          · cases hLocal
            exact hId
          · exact hOld hLocal
    · exact hOld hLocal

theorem Sound.fillType
    (hSound : y.Sound)
    (id : DefinitionId)
    (type : Ty) :
    (y.fillType id type).Sound where
  parent_lt := hSound.parent_lt
  bound_lt scope name found hLocal := by
    have hLess := hSound.bound_lt scope name found hLocal
    unfold Symbols.fillType
    rw [Array.size_modify]
    exact hLess

end Symbols

end SourceCheck
