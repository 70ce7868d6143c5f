import SourceCheck.Proofs.Safety.Checked

/-
  Names are looked up along chains of scopes.

  However symbols are built, each scope lies in an older one
  or in none.  So no chain of scopes goes on without end,
  and a search along a chain stops: it gives the binding of
  the nearest scope whose binding may be seen.  At a later
  offset a search stops in the same scope, or earlier.

  Key definitions include:
    * `Symbols.IsBuilt`
    * `Symbols.outward?`
    * `Symbols.SeenAt`
    * `Symbols.FoundAt`
    * `Symbols.Searches`
    * `Symbols.LooksUp`

  Key theorems include:
    * `Symbols.IsBuilt.sound`
    * `Symbols.Sound.getElem?_chainOf`
    * `Symbols.Sound.findSome?_chain_iff`
    * `Symbols.Sound.searches_iff`

  The main statement is `Symbols.looksUp_of_isBuilt`.
-/

namespace SourceCheck

namespace Symbols

variable {y z : Symbols}
variable {scope : ScopeId}
variable {name : String}

------------------------------------------------------------
-- Building symbols
------------------------------------------------------------

/-
  The symbols are made from none: scopes are opened in
  scopes that exist or in none, definitions are added, and
  names are bound to definitions that exist, in scopes that
  exist and do not bind them yet.
-/
inductive IsBuilt : Symbols → Prop where
  | empty : IsBuilt .empty
  | openScope
      {y : Symbols}
      {parent : Option ScopeId}
      (hBuilt : IsBuilt y)
      (hParent :
        ∀ outer, parent = some outer → outer < y.scopes.size) :
      IsBuilt (y.openScope parent).2
  | addDefinition
      {y : Symbols}
      (hBuilt : IsBuilt y)
      (d : Definition) :
      IsBuilt (y.addDefinition d).2
  | bind
      {y z : Symbols}
      (hBuilt : IsBuilt y)
      (scope : ScopeId)
      (name : String)
      (id : DefinitionId)
      (hScope : scope < y.scopes.size)
      (hId : id < y.definitions.size)
      (hBind : y.bind scope name id = .ok z) :
      IsBuilt z

/- A name that was bound is one more binding. -/
theorem eq_of_bind_eq
    {id : DefinitionId}
    (hBind : y.bind scope name id = .ok z) :
    z =
      { y with
        scopes :=
          y.scopes.modify scope (·.insert name id) } := by
  unfold Symbols.bind at hBind
  split at hBind
  · cases hBind
  · cases hBind
    rfl

/- However symbols are built, they are sound. -/
theorem IsBuilt.sound (hBuilt : y.IsBuilt) : y.Sound := by
  induction hBuilt with
  | empty => exact sound_empty
  | openScope _ hParent ih => exact ih.openScope hParent
  | addDefinition _ d ih => exact ih.addDefinition d
  | bind _ _ _ _ _ hId hBind ih =>
      rw [eq_of_bind_eq hBind]
      exact ih.insert hId _ _

------------------------------------------------------------
-- Scopes around a scope
------------------------------------------------------------

/- The scope that lies a number of steps outward. -/
def outward? (y : Symbols) : Nat → ScopeId → Option ScopeId
  | 0, scope => some scope
  | steps + 1, scope =>
      (y.parent? scope).bind (y.outward? steps)

/- Each step outward leads to an older scope. -/
theorem Sound.outward?_le
    (hSound : y.Sound)
    {steps : Nat}
    {table : ScopeId}
    (hOutward : y.outward? steps scope = some table) :
    table + steps ≤ scope := by
  induction steps generalizing scope with
  | zero =>
      simp only [outward?, Option.some.injEq] at hOutward
      exact Nat.le_of_eq hOutward.symm
  | succ steps ih =>
      simp only [outward?, Option.bind_eq_some_iff] at hOutward
      rcases hOutward with ⟨outer, hParent, hRest⟩
      have hOlder := hSound.parent_lt scope outer hParent
      calc table + (steps + 1)
          = table + steps + 1 := rfl
        _ ≤ outer + 1 := Nat.succ_le_succ (ih hRest)
        _ ≤ scope := hOlder

/- No chain of scopes goes on without end. -/
theorem Sound.wellFounded_parent (hSound : y.Sound) :
    WellFounded fun outer inner =>
      y.parent? inner = some outer := by
  refine Subrelation.wf ?_ Nat.lt_wfRel.wf
  intro outer inner hParent
  exact hSound.parent_lt inner outer hParent

theorem chainOf_none (y : Symbols) (steps : Nat) :
    y.chainOf steps none = [] := by
  cases steps with
  | zero => rfl
  | succ steps => rfl

/-
  A chain that is not cut off has all scopes around a scope,
  one for each step.
-/
theorem Sound.getElem?_chainOf
    (hSound : y.Sound)
    {steps : Nat}
    (hLess : scope < steps)
    (n : Nat) :
    (y.chainOf steps (some scope))[n]? =
      y.outward? n scope := by
  induction steps generalizing scope n with
  | zero => exact absurd hLess (Nat.not_lt_zero scope)
  | succ steps ih =>
      cases n with
      | zero => simp [chainOf, outward?]
      | succ n =>
          simp only [chainOf, outward?,
            List.getElem?_cons_succ]
          cases hParent : y.parent? scope with
          | none =>
              rw [chainOf_none]
              rfl
          | some outer =>
              have hOlder :=
                hSound.parent_lt scope outer hParent
              apply ih
              exact Nat.lt_of_lt_of_le hOlder
                (Nat.le_of_lt_succ hLess)

------------------------------------------------------------
-- The nearest binding
------------------------------------------------------------

/- The definition exists, and shows from the offset on. -/
def SeenAt
    (y : Symbols)
    (offset : Nat)
    (id : DefinitionId) :
    Prop :=
  ∃ d, y.definitions[id]? = some d ∧ d.visibleFrom ≤ offset

theorem isVisible_iff
    {offset : Nat}
    {id : DefinitionId} :
    y.isVisible offset id = true ↔ y.SeenAt offset id := by
  unfold isVisible SeenAt
  cases y.definitions[id]? with
  | none => simp
  | some d => simp

/- What may be seen may be seen later too. -/
theorem SeenAt.mono
    {early late : Nat}
    {id : DefinitionId}
    (hSeen : y.SeenAt early id)
    (hLe : early ≤ late) :
    y.SeenAt late id := by
  rcases hSeen with ⟨d, hDefinition, hEarly⟩
  exact ⟨d, hDefinition, Nat.le_trans hEarly hLe⟩

/-
  A number of steps outward a scope binds the name to a
  definition that is accepted, and no nearer scope does.
-/
structure FoundAt
    (y : Symbols)
    (name : String)
    (accepts : DefinitionId → Prop)
    (scope : ScopeId)
    (steps : Nat)
    (table : ScopeId)
    (id : DefinitionId) :
    Prop where
  outward : y.outward? steps scope = some table
  binds : y.local? table name = some id
  accepted : accepts id
  nearest :
    ∀ fewer < steps, ∀ nearer other,
      y.outward? fewer scope = some nearer →
        y.local? nearer name = some other →
          ¬ accepts other

/- The first result in a list, by its place. -/
theorem findSome?_eq_some_iff_getElem?
    {α β : Type}
    {f : α → Option β}
    {as : List α}
    {b : β} :
    as.findSome? f = some b ↔
      ∃ (n : Nat) (a : α),
        as[n]? = some a ∧ f a = some b ∧
          ∀ m < n, ∀ c, as[m]? = some c → f c = none := by
  rw [List.findSome?_eq_some_iff]
  constructor
  · rintro ⟨front, a, back, rfl, hFound, hFront⟩
    refine ⟨front.length, a, by simp, hFound, ?_⟩
    intro m hLess c hElement
    rw [List.getElem?_append_left hLess] at hElement
    exact hFront c (List.mem_of_getElem? hElement)
  · rintro ⟨n, a, hElement, hFound, hBefore⟩
    rcases List.getElem?_eq_some_iff.1 hElement with
      ⟨hLess, rfl⟩
    refine ⟨as.take n, as[n], as.drop (n + 1), ?_, hFound, ?_⟩
    · simp
    · intro c hMember
      rcases List.mem_take_iff_getElem.1 hMember with
        ⟨m, hBound, rfl⟩
      refine hBefore m (by omega) _ ?_
      exact List.getElem?_eq_getElem _

/- A search along a chain gives the nearest binding. -/
theorem Sound.findSome?_chain_iff
    (hSound : y.Sound)
    (hScope : scope < y.scopes.size)
    {shows : DefinitionId → Bool}
    {id : DefinitionId} :
    ((y.chain scope).findSome? fun table =>
        (y.local? table name).filter shows) = some id ↔
      ∃ steps table,
        y.FoundAt name (fun id => shows id = true) scope
          steps table id := by
  rw [findSome?_eq_some_iff_getElem?]
  simp only [chain, hSound.getElem?_chainOf hScope,
    Option.filter_eq_some_iff, Option.filter_eq_none_iff]
  constructor
  · rintro ⟨steps, table, hOutward, ⟨hBinds, hShows⟩, hBefore⟩
    refine ⟨steps, table, hOutward, hBinds, hShows, ?_⟩
    intro fewer hLess nearer other hNearer hOther
    exact hBefore fewer hLess nearer hNearer other hOther
  · rintro ⟨steps, table, hFound⟩
    refine ⟨steps, table, hFound.outward,
      ⟨hFound.binds, hFound.accepted⟩, ?_⟩
    intro fewer hLess nearer hNearer other hOther
    exact hFound.nearest fewer hLess nearer other hNearer
      hOther

/- A search that takes whatever is bound. -/
theorem find?_eq_findSome?_filter
    (y : Symbols)
    (scope : ScopeId)
    (name : String) :
    y.find? scope name =
      (y.chain scope).findSome? fun table =>
        (y.local? table name).filter fun _ => true := by
  unfold find?
  congr 1
  funext table
  cases y.local? table name with
  | none => rfl
  | some id => rfl

theorem Sound.find?_iff
    (hSound : y.Sound)
    (hScope : scope < y.scopes.size)
    {id : DefinitionId} :
    y.find? scope name = some id ↔
      ∃ steps table,
        y.FoundAt name (fun _ => True) scope steps table id := by
  rw [find?_eq_findSome?_filter,
    hSound.findSome?_chain_iff hScope]
  simp

theorem Sound.findVisible?_iff
    (hSound : y.Sound)
    (hScope : scope < y.scopes.size)
    {offset : Nat}
    {id : DefinitionId} :
    y.findVisible? scope name offset = some id ↔
      ∃ steps table,
        y.FoundAt name (y.SeenAt offset) scope steps table
          id := by
  unfold findVisible?
  rw [hSound.findSome?_chain_iff hScope]
  simp only [isVisible_iff]

/- Nothing is found where no scope shows the name. -/
theorem Sound.findVisible?_eq_none_iff
    (hSound : y.Sound)
    (hScope : scope < y.scopes.size)
    {offset : Nat} :
    y.findVisible? scope name offset = none ↔
      ∀ steps table id,
        y.outward? steps scope = some table →
          y.local? table name = some id →
            ¬ y.SeenAt offset id := by
  unfold findVisible? chain
  simp only [List.findSome?_eq_none_iff,
    List.mem_iff_getElem?, hSound.getElem?_chainOf hScope,
    Option.filter_eq_none_iff, isVisible_iff]
  constructor
  · intro hNone steps table id hOutward hBinds
    exact hNone table ⟨steps, hOutward⟩ id hBinds
  · rintro hNone table ⟨steps, hOutward⟩ id hBinds
    exact hNone steps table id hOutward hBinds

/- Where all definitions show, visibility does not matter. -/
theorem Sound.findVisible?_eq_find?
    (hSound : y.Sound)
    {offset : Nat}
    (hAll : ∀ d ∈ y.definitions, d.visibleFrom ≤ offset)
    (scope : ScopeId)
    (name : String) :
    y.findVisible? scope name offset = y.find? scope name := by
  unfold findVisible? find?
  congr 1
  funext table
  cases hBinds : y.local? table name with
  | none => rfl
  | some id =>
      have hId := hSound.bound_lt table name id hBinds
      have hSeen : y.SeenAt offset id :=
        ⟨y.definitions[id], Array.getElem?_eq_getElem hId,
          hAll _ (Array.getElem_mem hId)⟩
      rw [Option.filter_some, isVisible_iff.2 hSeen]
      rfl

/-
  What ends a search at one offset ends it at later ones,
  unless something nearer, not seen before, ends it first.
-/
theorem Sound.exists_nearer
    (hSound : y.Sound)
    (hScope : scope < y.scopes.size)
    {early late steps : Nat}
    {table : ScopeId}
    {id : DefinitionId}
    (hLe : early ≤ late)
    (hFound :
      y.FoundAt name (y.SeenAt early) scope steps table id) :
    ∃ fewer ≤ steps, ∃ nearer other,
      y.FoundAt name (y.SeenAt late) scope fewer nearer
        other := by
  have hSeen : y.SeenAt late id := hFound.accepted.mono hLe
  cases hSearch : y.findVisible? scope name late with
  | none =>
      rw [hSound.findVisible?_eq_none_iff hScope] at hSearch
      exact absurd hSeen
        (hSearch steps table id hFound.outward hFound.binds)
  | some other =>
      rw [hSound.findVisible?_iff hScope] at hSearch
      rcases hSearch with ⟨fewer, nearer, hOther⟩
      refine ⟨fewer, ?_, nearer, other, hOther⟩
      apply Nat.le_of_not_lt
      intro hMore
      exact hOther.nearest steps hMore table id
        hFound.outward hFound.binds hSeen

------------------------------------------------------------
-- Searches
------------------------------------------------------------

/-
  What a search comes to, without any bound on its rounds.
  In each round a scope that exists is read: a binding of
  the name is taken if it is accepted, and otherwise the
  search goes on in the scope around.
-/
inductive Searches
    (y : Symbols)
    (name : String)
    (accepts : DefinitionId → Except Fault Bool) :
    Option ScopeId → Option DefinitionId → Prop where
  | outermost : Searches y name accepts none none
  | unbound
      {scope : ScopeId}
      {found : Scope}
      {result : Option DefinitionId}
      (hScope : y.scopeAt scope = .ok found)
      (hUnbound : found.get? name = none)
      (hRest : Searches y name accepts found.parent result) :
      Searches y name accepts (some scope) result
  | taken
      {scope : ScopeId}
      {found : Scope}
      {id : DefinitionId}
      (hScope : y.scopeAt scope = .ok found)
      (hBinds : found.get? name = some id)
      (hAccepts : accepts id = .ok true) :
      Searches y name accepts (some scope) (some id)
  | passed
      {scope : ScopeId}
      {found : Scope}
      {id : DefinitionId}
      {result : Option DefinitionId}
      (hScope : y.scopeAt scope = .ok found)
      (hBinds : found.get? name = some id)
      (hRefuses : accepts id = .ok false)
      (hRest : Searches y name accepts found.parent result) :
      Searches y name accepts (some scope) result

/- Whatever a name is bound to is taken. -/
def takesAny (_ : DefinitionId) : Except Fault Bool :=
  .ok true

/- A definition is looked at, and taken if it may be seen. -/
def takesSeen
    (y : Symbols)
    (offset : Nat)
    (id : DefinitionId) :
    Except Fault Bool := do
  return decide ((← y.definitionAt id).visibleFrom ≤ offset)

section Searching

variable {accepts : DefinitionId → Except Fault Bool}
variable {start : Option ScopeId}

/- What succeeds is made of parts that do. -/
theorem exists_of_ok_bind
    {α β : Type}
    {x : Except Fault α}
    {f : α → Except Fault β}
    {b : β}
    (hOk : x >>= f = .ok b) :
    ∃ a, x = .ok a ∧ f a = .ok b := by
  cases x with
  | error e => cases hOk
  | ok a => exact ⟨a, rfl, hOk⟩

/- A search that ends within its rounds needs no bound. -/
theorem searches_of_searchAt
    {steps : Nat}
    {result : Option DefinitionId}
    (hSearch :
      y.searchAt name accepts steps start = .ok result) :
    y.Searches name accepts start result := by
  induction steps generalizing start with
  | zero =>
      cases start with
      | none =>
          cases hSearch
          exact .outermost
      | some scope => cases hSearch
  | succ steps ih =>
      cases start with
      | none =>
          cases hSearch
          exact .outermost
      | some scope =>
          unfold searchAt at hSearch
          rcases exists_of_ok_bind hSearch with
            ⟨found, hScope, hRound⟩
          cases hGet : found.get? name with
          | none =>
              rw [hGet] at hRound
              exact .unbound hScope hGet (ih hRound)
          | some id =>
              rw [hGet] at hRound
              rcases exists_of_ok_bind hRound with
                ⟨takes, hAccepts, hEnd⟩
              cases takes with
              | true =>
                  cases hEnd
                  exact .taken hScope hGet hAccepts
              | false =>
                  exact .passed hScope hGet hAccepts
                    (ih hEnd)

/- A search comes to one result. -/
theorem Searches.unique
    {a b : Option DefinitionId}
    (hLeft : y.Searches name accepts start a)
    (hRight : y.Searches name accepts start b) :
    a = b := by
  induction hLeft with
  | outermost =>
      cases hRight
      rfl
  | unbound hScope hUnbound _ ih =>
      cases hRight <;> grind
  | taken hScope hBinds hAccepts =>
      cases hRight <;> grind
  | passed hScope hBinds hRefuses _ ih =>
      cases hRight <;> grind

/-
  In sound symbols a search that reads nothing but what
  exists stops, with what a chain of scopes gives.
-/
theorem Sound.searches_iff
    (hSound : y.Sound)
    (hScope : scope < y.scopes.size)
    {shows : DefinitionId → Bool}
    (hAccepts :
      ∀ id < y.definitions.size, accepts id = .ok (shows id))
    (result : Option DefinitionId) :
    y.Searches name accepts (some scope) result ↔
      result =
        (y.chain scope).findSome? fun table =>
          (y.local? table name).filter shows := by
  have hStart :
      ∀ s, some scope = some s →
        s < y.scopes.size ∧ s < y.scopes.size := by
    rintro s ⟨⟩
    exact ⟨hScope, hScope⟩
  have hStops :=
    searches_of_searchAt
      (hSound.searchAt_eq name hAccepts _ _ hStart)
  constructor
  · intro hSearches
    exact hSearches.unique hStops
  · rintro rfl
    exact hStops

end Searching

theorem Sound.searches_find?_iff
    (hSound : y.Sound)
    (hScope : scope < y.scopes.size)
    (result : Option DefinitionId) :
    y.Searches name takesAny (some scope) result ↔
      result = y.find? scope name := by
  rw [find?_eq_findSome?_filter]
  apply hSound.searches_iff hScope
  intro id _
  rfl

theorem Sound.searches_findVisible?_iff
    (hSound : y.Sound)
    (hScope : scope < y.scopes.size)
    (offset : Nat)
    (result : Option DefinitionId) :
    y.Searches name (y.takesSeen offset) (some scope)
        result ↔
      result = y.findVisible? scope name offset := by
  apply hSound.searches_iff hScope
  intro id hId
  unfold takesSeen isVisible
  rw [definitionAt_of_lt hId, Array.getElem?_eq_getElem hId]
  rfl

------------------------------------------------------------
-- Looking names up
------------------------------------------------------------

/-
  How a name is looked up from a scope: what searches come
  to, which binding they give, and how that depends on the
  offset.
-/
structure LooksUp
    (y : Symbols)
    (scope : ScopeId)
    (name : String) :
    Prop where
  -- The chain ends: each step leads to an older scope.
  wellFounded :
    WellFounded fun outer inner =>
      y.parent? inner = some outer
  outward_le :
    ∀ steps table,
      y.outward? steps scope = some table →
        table + steps ≤ scope
  -- Both searches stop, each with one result.
  find_stops :
    ∀ result,
      y.Searches name takesAny (some scope) result ↔
        result = y.find? scope name
  findVisible_stops :
    ∀ offset result,
      y.Searches name (y.takesSeen offset) (some scope)
          result ↔
        result = y.findVisible? scope name offset
  -- The result is the nearest binding that is accepted.
  find_some :
    ∀ id,
      y.find? scope name = some id ↔
        ∃ steps table,
          y.FoundAt name (fun _ => True) scope steps table id
  findVisible_some :
    ∀ offset id,
      y.findVisible? scope name offset = some id ↔
        ∃ steps table,
          y.FoundAt name (y.SeenAt offset) scope steps table
            id
  findVisible_none :
    ∀ offset,
      y.findVisible? scope name offset = none ↔
        ∀ steps table id,
          y.outward? steps scope = some table →
            y.local? table name = some id →
              ¬ y.SeenAt offset id
  -- Behind all definitions visibility does not matter.
  findVisible_eq_find :
    ∀ offset,
      (∀ d ∈ y.definitions, d.visibleFrom ≤ offset) →
        y.findVisible? scope name offset =
          y.find? scope name
  -- Later searches end in the same scope, or nearer.
  nearer :
    ∀ early late steps table id,
      early ≤ late →
        y.FoundAt name (y.SeenAt early) scope steps table
            id →
          ∃ fewer ≤ steps, ∃ nearer other,
            y.FoundAt name (y.SeenAt late) scope fewer nearer
              other

/- However symbols are built, names are looked up so. -/
theorem looksUp_of_isBuilt
    (hBuilt : y.IsBuilt)
    (hScope : scope < y.scopes.size)
    (name : String) :
    y.LooksUp scope name := by
  have hSound : y.Sound := hBuilt.sound
  exact
    { wellFounded := hSound.wellFounded_parent
      outward_le := fun _ _ hOutward =>
        hSound.outward?_le hOutward
      find_stops := hSound.searches_find?_iff hScope
      findVisible_stops :=
        hSound.searches_findVisible?_iff hScope
      find_some := fun _ => hSound.find?_iff hScope
      findVisible_some := fun _ _ =>
        hSound.findVisible?_iff hScope
      findVisible_none := fun _ =>
        hSound.findVisible?_eq_none_iff hScope
      findVisible_eq_find := fun _ hAll =>
        hSound.findVisible?_eq_find? hAll scope name
      nearer := fun _ _ _ _ _ hLe hFound =>
        hSound.exists_nearer hScope hLe hFound }

/- A variable that may be seen from an offset on. -/
def variableFrom (offset : Nat) : Definition where
  name := "a"
  kind := .localVariable
  span := Span.null
  visibleFrom := offset
  isMutable := false
  type := none

/-
  The inner one of two scopes binds a name again, to a
  variable that may be seen later.
-/
def shadowing : Symbols where
  scopes := #[⟨none, [("a", 0)]⟩, ⟨some 0, [("a", 1)]⟩]
  definitions := #[variableFrom 0, variableFrom 20]

theorem isBuilt_shadowing : shadowing.IsBuilt := by
  have hOuter : IsBuilt (empty.openScope none).2 :=
    IsBuilt.empty.openScope (by rintro outer ⟨⟩)
  have hInner :
      IsBuilt
        ((empty.openScope none).2.openScope (some 0)).2 :=
    hOuter.openScope (by rintro outer ⟨⟩; decide)
  have hDefinitions :=
    (hInner.addDefinition (variableFrom 0)).addDefinition
      (variableFrom 20)
  have hBound :=
    hDefinitions.bind 0 "a" 0 (by decide) (by decide) rfl
  exact hBound.bind 1 "a" 1 (by decide) (by decide) rfl

/- The outer variable is found until the inner one shows. -/
theorem looksUp_of_isBuilt_shadowing :
    shadowing.IsBuilt ∧
      1 < shadowing.scopes.size ∧
        shadowing.findVisible? 1 "a" 5 = some 0 ∧
          shadowing.findVisible? 1 "a" 20 = some 1 ∧
            shadowing.LooksUp 1 "a" := by
  have hScope : 1 < shadowing.scopes.size := by decide
  refine ⟨isBuilt_shadowing, hScope, by decide, by decide, ?_⟩
  exact looksUp_of_isBuilt isBuilt_shadowing hScope "a"

end Symbols

end SourceCheck
