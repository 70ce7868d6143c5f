import SourceCheck.Proofs.Scoping.Sound

/-
  Operations on symbols that may stop the program.

  Scopes and definitions are kept in arrays, and a number
  that is out of range stops the program; so does a binding
  of a name that the scope binds already.  Checked operations
  say so.  Where they are used within range, on symbols that
  are sound, they give what the operations without checks
  give.

  Key definitions include:
    * `Fault`
    * `Symbols.declareAt`
    * `Symbols.findAt`
    * `Symbols.findVisibleAt`
    * `Symbols.fillTypeAt`
    * `Symbols.Searchable`

  Key theorems include:
    * `Symbols.declareAt_eq`
    * `Symbols.Sound.searchAt_eq`
    * `Symbols.Sound.searchable`
    * `Symbols.fillTypeAt_eq`
-/

namespace SourceCheck

------------------------------------------------------------
-- Checked operations
------------------------------------------------------------

/-
  What stops the program: no such scope, no such definition,
  a name that is bound already, or scopes that lie in each
  other without end.
-/
inductive Fault where
  | noScope (scope : ScopeId)
  | noDefinition (id : DefinitionId)
  | alreadyBound (e : AlreadyBound)
  | endless
deriving DecidableEq

namespace Symbols

/- The scope with a number. -/
def scopeAt
    (y : Symbols)
    (scope : ScopeId) :
    Except Fault Scope :=
  match y.scopes[scope]? with
  | some found => .ok found
  | none => .error (.noScope scope)

/- The definition with a number. -/
def definitionAt
    (y : Symbols)
    (id : DefinitionId) :
    Except Fault Definition :=
  match y.definitions[id]? with
  | some d => .ok d
  | none => .error (.noDefinition id)

/- The scope itself binds the name. -/
def bindsAt
    (y : Symbols)
    (scope : ScopeId)
    (name : String) :
    Except Fault Bool := do
  return ((← y.scopeAt scope).get? name).isSome

/- Bind a name in a scope, which must not bind it yet. -/
def bindAt
    (y : Symbols)
    (scope : ScopeId)
    (name : String)
    (id : DefinitionId) :
    Except Fault Symbols := do
  let found ← y.scopeAt scope
  if (found.get? name).isSome then
    throw (.alreadyBound ⟨name, scope⟩)
  else
    let changed := found.insert name id
    return { y with
      scopes := y.scopes.setIfInBounds scope changed }

/-
  Add a definition, and bind its name unless the scope binds
  it already.
-/
def declareAt
    (y : Symbols)
    (scope : ScopeId)
    (d : Definition) :
    Except Fault (DefinitionId × Symbols) := do
  let (id, made) := y.addDefinition d
  if ← made.bindsAt scope d.name then
    return (id, made)
  else
    return (id, ← made.bindAt scope d.name id)

/-
  What the nearest scope binds a name to, passing over what
  is not accepted, in a number of steps.
-/
def searchAt
    (y : Symbols)
    (name : String)
    (accepts : DefinitionId → Except Fault Bool) :
    Nat →
      Option ScopeId → Except Fault (Option DefinitionId)
  | _, none => return none
  | 0, some _ => throw .endless
  | steps + 1, some scope => do
      let found ← y.scopeAt scope
      match found.get? name with
      | none => y.searchAt name accepts steps found.parent
      | some id =>
          if ← accepts id then
            return some id
          else
            y.searchAt name accepts steps found.parent

/- What the nearest scope binds the name to. -/
def findAt
    (y : Symbols)
    (scope : ScopeId)
    (name : String) :
    Except Fault (Option DefinitionId) :=
  y.searchAt name (fun _ => .ok true) y.scopes.size
    (some scope)

/- The same for what may be seen at the offset. -/
def findVisibleAt
    (y : Symbols)
    (scope : ScopeId)
    (name : String)
    (offset : Nat) :
    Except Fault (Option DefinitionId) :=
  let accepts := fun id => do
    return decide ((← y.definitionAt id).visibleFrom ≤ offset)
  y.searchAt name accepts y.scopes.size (some scope)

/- Give a definition a type unless it has one. -/
def fillTypeAt
    (y : Symbols)
    (id : DefinitionId)
    (type : Ty) :
    Except Fault Symbols := do
  let d ← y.definitionAt id
  let filled := { d with type := d.type.or (some type) }
  return { y with
    definitions := y.definitions.setIfInBounds id filled }

------------------------------------------------------------
-- Within range
------------------------------------------------------------

variable {y : Symbols}
variable {scope : ScopeId}
variable {id : DefinitionId}

theorem ok_bind
    {α β : Type}
    (a : α)
    (f : α → Except Fault β) :
    (Except.ok a >>= f) = f a :=
  rfl

theorem scopeAt_of_lt (hScope : scope < y.scopes.size) :
    y.scopeAt scope = .ok y.scopes[scope] := by
  unfold scopeAt
  rw [Array.getElem?_eq_getElem hScope]

theorem definitionAt_of_lt (hId : id < y.definitions.size) :
    y.definitionAt id = .ok y.definitions[id] := by
  unfold definitionAt
  rw [Array.getElem?_eq_getElem hId]

theorem bindsAt_of_lt
    (hScope : scope < y.scopes.size)
    (name : String) :
    y.bindsAt scope name = .ok (y.hasLocal scope name) := by
  unfold bindsAt hasLocal local?
  rw [scopeAt_of_lt hScope, Array.getElem?_eq_getElem hScope]
  rfl

/- The element that is changed is the one at the place. -/
theorem setIfInBounds_eq_modify
    {α : Type}
    {as : Array α}
    {i : Nat}
    (hLess : i < as.size)
    (f : α → α) :
    as.setIfInBounds i (f as[i]) = as.modify i f := by
  refine Array.ext_getElem? fun j => ?_
  rw [Array.getElem?_setIfInBounds, Array.getElem?_modify]
  split
  · rename_i hSame
    subst hSame
    rw [Array.getElem?_eq_getElem hLess]
    rfl
  · rfl

/- Where the name is not bound it can be. -/
theorem bindAt_of_lt
    {name : String}
    (hScope : scope < y.scopes.size)
    (hNew : y.hasLocal scope name = false)
    (id : DefinitionId) :
    y.bindAt scope name id =
      .ok
        { y with
          scopes :=
            y.scopes.modify scope (·.insert name id) } := by
  unfold hasLocal local? at hNew
  rw [Array.getElem?_eq_getElem hScope,
    Option.bind_some] at hNew
  unfold bindAt
  rw [scopeAt_of_lt hScope, ok_bind, hNew,
    ← setIfInBounds_eq_modify hScope]
  rfl

/-
  No declaration in a scope that exists stops the program,
  as its name is looked up first.
-/
theorem declareAt_eq
    (hScope : scope < y.scopes.size)
    (d : Definition) :
    y.declareAt scope d =
      .ok
        (y.definitions.size,
          if y.hasLocal scope d.name then
            (y.addDefinition d).2
          else
            ⟨y.scopes.modify scope
                (·.insert d.name y.definitions.size),
              y.definitions.push d⟩) := by
  have hThere : scope < (y.addDefinition d).2.scopes.size :=
    hScope
  have hLocal :
      (y.addDefinition d).2.hasLocal scope d.name =
        y.hasLocal scope d.name :=
    rfl
  unfold declareAt
  dsimp only
  rw [bindsAt_of_lt hThere, hLocal, ok_bind]
  cases hFound : y.hasLocal scope d.name with
  | true => rfl
  | false =>
      rw [hFound] at hLocal
      rw [bindAt_of_lt hThere hLocal]
      rfl

/-
  A search ends, as scopes lie in older ones, and meets only
  scopes and definitions that exist.
-/
theorem Sound.searchAt_eq
    {accepts : DefinitionId → Except Fault Bool}
    {shows : DefinitionId → Bool}
    (hSound : y.Sound)
    (name : String)
    (hAccepts :
      ∀ id < y.definitions.size, accepts id = .ok (shows id)) :
    ∀ (steps : Nat) (start : Option ScopeId),
      (∀ scope,
          start = some scope →
            scope < steps ∧ scope < y.scopes.size) →
        y.searchAt name accepts steps start =
          .ok
            ((y.chainOf steps start).findSome? fun scope =>
              (y.local? scope name).filter shows)
  | 0, none, _ => rfl
  | _ + 1, none, _ => rfl
  | 0, some scope, hStart =>
      absurd (hStart scope rfl).1 (Nat.not_lt_zero _)
  | steps + 1, some scope, hStart => by
      rcases hStart scope rfl with ⟨hSteps, hScope⟩
      have hElement := Array.getElem?_eq_getElem hScope
      have hParent :
          y.scopes[scope].parent = y.parent? scope := by
        unfold parent?
        rw [hElement]
        rfl
      have hLocal :
          y.scopes[scope].get? name = y.local? scope name := by
        unfold local?
        rw [hElement]
        rfl
      -- The scope around is older: one step less is enough.
      have hRest :=
        searchAt_eq hSound name hAccepts steps
          (y.parent? scope) fun outer hOuter => by
            have hOlder : outer < scope :=
              hSound.parent_lt scope outer hOuter
            exact ⟨Nat.lt_of_lt_of_le hOlder
                (Nat.le_of_lt_succ hSteps),
              Nat.lt_trans hOlder hScope⟩
      unfold searchAt chainOf
      rw [scopeAt_of_lt hScope, List.findSome?_cons, ok_bind,
        hLocal, hParent]
      cases hFound : y.local? scope name with
      | none => exact hRest
      | some id =>
          have hId := hSound.bound_lt scope name id hFound
          dsimp only
          rw [hAccepts id hId, Option.filter_some, ok_bind]
          cases shows id with
          | true => rfl
          | false => exact hRest

theorem Sound.findAt_eq
    (hSound : y.Sound)
    (hScope : scope < y.scopes.size)
    (name : String) :
    y.findAt scope name = .ok (y.find? scope name) := by
  have hSearch :
      y.findAt scope name =
        .ok
          ((y.chain scope).findSome? fun id =>
            (y.local? id name).filter fun _ => true) :=
    hSound.searchAt_eq name (fun _ _ => rfl) _ _ <| by
      rintro _ ⟨⟩
      exact ⟨hScope, hScope⟩
  have hAll (found : Option DefinitionId) :
      found.filter (fun _ => true) = found := by
    cases found <;> rfl
  rw [hSearch]
  simp only [hAll]
  rfl

theorem Sound.findVisibleAt_eq
    (hSound : y.Sound)
    (hScope : scope < y.scopes.size)
    (name : String)
    (offset : Nat) :
    y.findVisibleAt scope name offset =
      .ok (y.findVisible? scope name offset) := by
  refine hSound.searchAt_eq name (fun id hId => ?_)
    y.scopes.size (some scope) ?_
  · unfold isVisible
    rw [definitionAt_of_lt hId, Array.getElem?_eq_getElem hId]
    rfl
  · rintro _ ⟨⟩
    exact ⟨hScope, hScope⟩

/- Names can be looked up in all scopes. -/
def Searchable (y : Symbols) : Prop :=
  ∀ scope name,
    scope < y.scopes.size →
      y.findAt scope name = .ok (y.find? scope name) ∧
        ∀ offset,
          y.findVisibleAt scope name offset =
            .ok (y.findVisible? scope name offset)

theorem Sound.searchable (hSound : y.Sound) : y.Searchable :=
  fun _ name hScope =>
    ⟨hSound.findAt_eq hScope name,
      hSound.findVisibleAt_eq hScope name⟩

/- A definition that exists can be given a type. -/
theorem fillTypeAt_eq
    (hId : id < y.definitions.size)
    (type : Ty) :
    y.fillTypeAt id type = .ok (y.fillType id type) := by
  unfold fillTypeAt fillType
  rw [definitionAt_of_lt hId, ok_bind,
    ← setIfInBounds_eq_modify hId]
  rfl

end Symbols

end SourceCheck
