import SourceCheck.Proofs.Resolution.Lexical

/-
  Walks that declare names.

  Parameters, statements and declarations bind names in the
  scope where they stand.  A walk over them comes from one
  name to the next, and each name is in force from its own
  place on.

  Key definitions include:
    * `Declaring`
    * `ResolvesParameters`
    * `ResolvesStatements`

  Key theorems include:
    * `ResolvesForm.function`
    * `ResolvesForm.block`
    * `ResolvesVariable.intro`
    * `ResolvesFunction.intro`
-/

namespace SourceCheck

open SourceCheck.Resolver
open SourceCheck.Alignment

------------------------------------------------------------
-- Environments and types
------------------------------------------------------------

/- Binding parameters puts them into the innermost frame. -/
theorem Environment.bindParameters_eq
    (frame : List Binding)
    (outer : Environment)
    (ps : List Parameter) :
    Environment.bindParameters (frame :: outer) ps =
      ((ps.map Parameter.binding).reverse ++ frame) ::
        outer := by
  induction ps generalizing frame with
  | nil => rfl
  | cons p ps ih =>
      rw [bindParameters_cons]
      have hRest := ih (p.binding :: frame)
      rw [List.map_cons, List.reverse_cons, List.append_assoc]
      exact hRest

/- Names in force stay so when more are declared. -/
theorem Environment.flatten_subset
    (done new : List Binding)
    (outer : Environment) :
    List.flatten (done.reverse :: outer) ⊆
      List.flatten
        ((done ++ new).reverse :: outer) := by
  intro x hMember
  rw [List.flatten_cons, List.reverse_append,
    List.append_assoc]
  exact List.mem_append_right _ hMember

/- In force is what was so before, and what is new. -/
theorem Environment.flatten_subset_new
    (done new : List Binding)
    (outer : Environment) :
    List.flatten ((done ++ new).reverse :: outer) ⊆
      new ++ List.flatten (done.reverse :: outer) := by
  intro x hMember
  rw [List.flatten_cons, List.reverse_append,
    List.append_assoc] at hMember
  rcases List.mem_append.1 hMember with hMember | hMember
  · exact List.mem_append_left _ (List.mem_reverse.1 hMember)
  · exact List.mem_append_right _ hMember

namespace Symbols

theorem untyped_fillType
    (y : Symbols)
    (id : DefinitionId)
    (type : Ty) :
    (y.fillType id type).untyped = y.untyped := by
  unfold untyped fillType
  congr 1
  apply Array.ext
  · simp
  · intro i hi hj
    simp only [Array.getElem_map, Array.getElem_modify]
    split
    · rfl
    · rfl

theorem type?_fillType_of_ne
    {y : Symbols}
    {id other : DefinitionId}
    (hNe : other ≠ id)
    (type : Ty) :
    (y.fillType id type).type? other = y.type? other := by
  unfold type? fillType
  rw [Array.getElem?_modify, if_neg hNe.symm]

/- A definition that is filled has a type. -/
theorem isSome_type?_fillType
    {y : Symbols}
    {id : DefinitionId}
    {v : Nat}
    (hVisible : y.untyped.VisibleFrom id v)
    (type : Ty) :
    ((y.fillType id type).type? id).isSome := by
  rcases hVisible with ⟨d, hSome, -⟩
  unfold untyped at hSome
  rw [Array.getElem?_map] at hSome
  rcases Option.map_eq_some_iff.1 hSome with ⟨e, hFound, -⟩
  unfold type? fillType
  rw [Array.getElem?_modify, if_pos rfl, hFound]
  cases hType : e.type with
  | none => simp [hType]
  | some type => simp [hType]

end Symbols

------------------------------------------------------------
-- Walks that declare
------------------------------------------------------------

/-
  In the window from `a` up to `b` of a scope the walk
  settles what it meets, and the bindings are declared in
  the scope itself.
-/
structure Declaring
    {α : Type}
    (y : Symbols)
    (scope : ScopeId)
    (a b lo hi : Nat)
    (bindings : List Binding)
    (p : Surroundings → Resolver α)
    (Q : Environment → α → Prop) :
    Prop where
  le : lo ≤ hi
  window : a ≤ b
  dated : y.Dated a b bindings
  settles :
    ∀ {around done behind outer},
      around.scope = some scope →
        y.Reaches a b scope done (bindings ++ behind)
          outer →
          y.Hidden b behind →
            Settles y (Set.Ico lo hi)
              (done.reverse :: outer) (p around) bindings
              (Q (done.reverse :: outer))

/- The walk settles the uses in a variable. -/
def ResolvesVariable
    (y : Symbols)
    (scope : ScopeId)
    (a b lo hi : Nat)
    (v : VariableDecl) :
    Prop :=
  Declaring y scope a b lo hi [(v.name, v.definition)]
    (fun around => resolveVariable around v)
    (fun env r =>
      r.uses env = (v.uses env).map Use.settled ∧
        r.name = v.name ∧ r.definition = v.definition)

/- The walk settles the uses in a function. -/
def ResolvesFunction
    (y : Symbols)
    (scope : ScopeId)
    (a b lo hi : Nat)
    (f : FunctionDecl) :
    Prop :=
  Declaring y scope a b lo hi [(f.name, f.definition)]
    (fun around => resolveFunction around f)
    (fun env r =>
      r.uses env = (f.uses env).map Use.settled ∧
        r.name = f.name ∧ r.definition = f.definition)

/- The walk settles the uses in a statement. -/
def ResolvesStatement
    (y : Symbols)
    (scope : ScopeId)
    (a b lo hi : Nat)
    (x : Statement) :
    Prop :=
  Declaring y scope a b lo hi x.bindings
    (fun around => resolveStatement around x)
    (fun env r =>
      r.1.uses env = (x.uses env).map Use.settled ∧
        r.1.bindings = x.bindings)

/- The walk settles the uses in a declaration. -/
def ResolvesDeclaration
    (y : Symbols)
    (scope : ScopeId)
    (a b lo hi : Nat)
    (x : Declaration) :
    Prop :=
  Declaring y scope a b lo hi x.bindings
    (fun around => resolveDeclaration around x)
    (fun env r =>
      r.uses env = (x.uses env).map Use.settled ∧
        r.bindings = x.bindings)

/-
  The parameter is the last definition of its part, and its
  default is walked before it is in force.
-/
structure ResolvesParameter
    (y : Symbols)
    (scope : ScopeId)
    (a b lo hi : Nat)
    (p : Parameter) :
    Prop where
  lt : p.definition < hi
  visible :
    ∃ v,
      y.VisibleFrom p.definition v ∧
        a ≤ v ∧
          v ≤ b ∧
            ResolvesOption y scope a v lo p.definition
              p.fallback

/-
  Parts stand one after the other up to `b`, and declare
  what is below `hi`.
-/
inductive InOrder
    {ξ : Type}
    (P : Nat → Nat → Nat → Nat → ξ → Prop)
    (b hi : Nat) :
    Nat → Nat → List ξ → Prop where
  | nil {a lo}
      (hWindow : a ≤ b)
      (hLe : lo ≤ hi) :
      InOrder P b hi a lo []
  | cons {a c lo mid x xs}
      (hFirst : P a c lo mid x)
      (hRest : InOrder P b hi c mid xs) :
      InOrder P b hi a lo (x :: xs)

/- Parameters are declared one after the other. -/
def ResolvesParameters
    (y : Symbols)
    (scope : ScopeId)
    (b hi a lo : Nat)
    (ps : List Parameter) :
    Prop :=
  InOrder (ResolvesParameter y scope) b hi a lo ps

/- Statements are walked one after the other. -/
def ResolvesStatements
    (y : Symbols)
    (scope : ScopeId)
    (b hi a lo : Nat)
    (xs : List Statement) :
    Prop :=
  InOrder (ResolvesStatement y scope) b hi a lo xs

/- Declarations are walked one after the other. -/
def ResolvesDeclarations
    (y : Symbols)
    (scope : ScopeId)
    (b hi a lo : Nat)
    (xs : List Declaration) :
    Prop :=
  InOrder (ResolvesDeclaration y scope) b hi a lo xs

variable {y : Symbols}
variable {scope inner : ScopeId}
variable {a b c d : Nat}
variable {lo mid hi : Nat}
variable {span : Span}
variable {env outer : Environment}
variable {done behind : List Binding}
variable {around : Surroundings}

namespace InOrder

variable {ξ : Type}
variable {P : Nat → Nat → Nat → Nat → ξ → Prop}
variable {xs : List ξ}

theorem le
    (hOrder : InOrder P b hi a lo xs)
    (hEach : ∀ {a b lo hi x}, P a b lo hi x → lo ≤ hi) :
    lo ≤ hi := by
  induction hOrder with
  | nil _ hLe => exact hLe
  | cons hFirst _ ih => exact Nat.le_trans (hEach hFirst) ih

theorem window
    (hOrder : InOrder P b hi a lo xs)
    (hEach : ∀ {a b lo hi x}, P a b lo hi x → a ≤ b) :
    a ≤ b := by
  induction hOrder with
  | nil hWindow _ => exact hWindow
  | cons hFirst _ ih => exact Nat.le_trans (hEach hFirst) ih

/- Parts in order stand in order in a larger window. -/
theorem mono
    {last : Nat}
    (hOrder : InOrder P b hi a lo xs)
    (hEach :
      ∀ {a b lo hi x}, P a b lo hi x → c ≤ a → P c b lo hi x)
    (hStart : c ≤ a)
    (hStop : b ≤ d)
    (hLast : hi ≤ last) :
    InOrder P d last c lo xs := by
  have hRest {a lo xs}
      (hOrder : InOrder P b hi a lo xs) :
      InOrder P d last a lo xs := by
    induction hOrder with
    | nil hWindow hLe =>
        exact .nil (Nat.le_trans hWindow hStop)
          (Nat.le_trans hLe hLast)
    | cons hFirst _ ih => exact .cons hFirst ih
  cases hOrder with
  | nil hWindow hLe =>
      exact .nil
        (Nat.le_trans hStart (Nat.le_trans hWindow hStop))
        (Nat.le_trans hLe hLast)
  | cons hFirst hOthers =>
      exact .cons (hEach hFirst hStart) (hRest hOthers)

/- What the parts declare is declared in the window. -/
theorem dated
    {bindings : ξ → List Binding}
    (hOrder : InOrder P b hi a lo xs)
    (hWindow : ∀ {a b lo hi x}, P a b lo hi x → a ≤ b)
    (hEach :
      ∀ {a b lo hi x},
        P a b lo hi x → y.Dated a b (bindings x)) :
    y.Dated a b (xs.flatMap bindings) := by
  induction hOrder with
  | nil _ _ => nofun
  | cons hFirst hRest ih =>
      intro x hMember
      rw [List.flatMap_cons] at hMember
      rcases List.mem_append.1 hMember with hMember | hMember
      · rcases hEach hFirst x hMember with
          ⟨v, hVisible, hFrom, hTo⟩
        exact ⟨v, hVisible, hFrom,
          Nat.le_trans hTo (hRest.window hWindow)⟩
      · rcases ih x hMember with ⟨v, hVisible, hFrom, hTo⟩
        exact ⟨v, hVisible,
          Nat.le_trans (hWindow hFirst) hFrom, hTo⟩

end InOrder

/- Filling gives a type to one definition. -/
theorem settles_fillType
    {id : DefinitionId}
    {v : Nat}
    (hVisible : y.VisibleFrom id v)
    (name : String)
    (type : Ty) :
    Settles y {id} env (fillType id type) [(name, id)]
      (fun _ => True) := by
  intro z hPending
  unfold fillType
  rw [outcome_modify]
  rw [← hPending.untyped_eq] at hVisible
  refine ⟨⟨z.symbols.untyped_fillType id type, ?_, [], ?_,
    nofun⟩, ?_, trivial⟩
  · intro other hNot
    exact Symbols.type?_fillType_of_ne
      (fun hSame => hNot hSame) type
  · exact (List.append_nil _).symm
  · intro x hMember
    rw [List.mem_singleton.1 hMember]
    exact Symbols.isSome_type?_fillType hVisible type

------------------------------------------------------------
-- Parameters
------------------------------------------------------------

theorem ResolvesParameter.le
    {p : Parameter}
    (hParameter : ResolvesParameter y scope a b lo hi p) :
    lo ≤ p.definition := by
  rcases hParameter.visible with ⟨_, _, _, _, hOption⟩
  exact hOption.lexical.le

theorem ResolvesParameter.window
    {p : Parameter}
    (hParameter : ResolvesParameter y scope a b lo hi p) :
    a ≤ b := by
  rcases hParameter.visible with ⟨_, _, hStart, hStop, _⟩
  exact Nat.le_trans hStart hStop

theorem ResolvesParameter.mono
    {p : Parameter}
    (hParameter : ResolvesParameter y scope a b lo hi p)
    (hStart : c ≤ a)
    (hStop : b ≤ d) :
    ResolvesParameter y scope c d lo hi p where
  lt := hParameter.lt
  visible := by
    rcases hParameter.visible with
      ⟨v, hVisible, hFrom, hTo, hOption⟩
    exact ⟨v, hVisible, Nat.le_trans hStart hFrom,
      Nat.le_trans hTo hStop,
      hOption.mono hStart (Nat.le_refl v) (Nat.le_refl lo)
        (Nat.le_refl _)⟩

namespace ResolvesParameters

variable {ps : List Parameter}

theorem mono
    {last : Nat}
    (hParameters :
      ResolvesParameters y scope b hi a lo ps)
    (hStart : c ≤ a)
    (hStop : b ≤ d)
    (hLast : hi ≤ last) :
    ResolvesParameters y scope d last c lo ps :=
  InOrder.mono hParameters
    (fun hFirst hLe => hFirst.mono hLe (Nat.le_refl _))
    hStart hStop hLast

theorem le
    (hParameters :
      ResolvesParameters y scope b hi a lo ps) :
    lo ≤ hi :=
  InOrder.le hParameters fun hFirst =>
    Nat.le_trans hFirst.le (Nat.le_of_lt hFirst.lt)

theorem window
    (hParameters :
      ResolvesParameters y scope b hi a lo ps) :
    a ≤ b :=
  InOrder.window hParameters ResolvesParameter.window

theorem dated
    (hParameters :
      ResolvesParameters y scope b hi a lo ps) :
    y.Dated a b (ps.map Parameter.binding) := by
  rw [List.map_eq_flatMap]
  refine InOrder.dated hParameters ResolvesParameter.window
    fun hFirst x hMember => ?_
  rw [List.mem_singleton.1 hMember]
  rcases hFirst.visible with ⟨v, hVisible, hFrom, hTo, -⟩
  exact ⟨v, hVisible, hFrom, hTo⟩

theorem bounds
    (hParameters :
      ResolvesParameters y scope b hi a lo ps) :
    ∀ p ∈ ps, lo ≤ p.definition ∧ p.definition < hi := by
  induction hParameters with
  | nil _ _ => nofun
  | @cons a c lo mid p ps hFirst hRest ih =>
      intro q hMember
      rcases List.mem_cons.1 hMember with rfl | hMember
      · exact ⟨hFirst.le,
          Nat.lt_of_lt_of_le hFirst.lt (le hRest)⟩
      · have hBounds := ih q hMember
        have hLow :=
          Nat.le_trans hFirst.le (Nat.le_of_lt hFirst.lt)
        exact ⟨Nat.le_trans hLow hBounds.1, hBounds.2⟩

/- No two parameters are the same definition. -/
theorem nodup
    (hParameters :
      ResolvesParameters y scope b hi a lo ps) :
    (ps.map Parameter.definition).Nodup := by
  induction hParameters with
  | nil _ _ => exact List.nodup_nil
  | @cons a c lo mid p ps hFirst hRest ih =>
      rw [List.map_cons]
      refine List.nodup_cons.2 ⟨?_, ih⟩
      intro hMember
      rcases List.mem_map.1 hMember with ⟨q, hq, hSame⟩
      have hBounds := bounds hRest q hq
      rw [hSame] at hBounds
      exact absurd hFirst.lt (Nat.not_lt.2 hBounds.1)

end ResolvesParameters

/- What parameters define. -/
def parameterIds (ps : List Parameter) : Set Nat :=
  {id | ∃ p ∈ ps, p.definition = id}

/- What is defined in the defaults of parameters. -/
def defaultIds
    (lo hi : Nat)
    (ps : List Parameter) :
    Set Nat :=
  {id | lo ≤ id ∧ id < hi ∧ ∀ p ∈ ps, p.definition ≠ id}

theorem settles_parameterType
    {p : Parameter}
    {v : Nat}
    (hVisible : y.VisibleFrom p.definition v) :
    Settles y {p.definition} env (parameterType p)
      [p.binding] (fun _ => True) := by
  have hFill (type : Ty) (typeExpr : TypeExpr) :
      Settles y {p.definition} env
        (fillType p.definition type >>= fun _ =>
          pure (typeExpr, type))
        [p.binding] (fun _ => True) :=
    (settles_fillType hVisible p.name type).last
      fun _ _ => settles_pure trivial
  unfold parameterType
  refine Helps.settles (helps_resolveDeclared (typeExprs_identity _))
    fun r => ?_
  rcases r with ⟨typeExpr, declared⟩
  cases declared with
  | some type => exact hFill type typeExpr
  | none =>
      exact Helps.settles (helps_errorType rfl _ _)
        fun type => hFill type typeExpr

/- All parameters have types before a default is walked. -/
theorem settles_parameterTypes
    {ps : List Parameter}
    (hVisible :
      ∀ p ∈ ps, ∃ v, y.VisibleFrom p.definition v)
    (hNodup : (ps.map Parameter.definition).Nodup) :
    Settles y (parameterIds ps) env (ps.mapM parameterType)
      (ps.map Parameter.binding)
      (fun types => types.length = ps.length) := by
  induction ps with
  | nil => exact settles_pure rfl
  | cons p ps ih =>
      rw [List.map_cons] at hNodup
      rcases List.nodup_cons.1 hNodup with ⟨hNew, hOthers⟩
      rcases hVisible p List.mem_cons_self with ⟨v, hFirst⟩
      have hRest :=
        ih (fun q hq => hVisible q (List.mem_cons_of_mem _ hq))
          hOthers
      have hSplits :
          Splits (parameterIds (p :: ps))
            {p.definition} (parameterIds ps) := by
        refine ⟨?_, ?_, ?_⟩
        · rintro _ rfl
          exact ⟨p, List.mem_cons_self, rfl⟩
        · rintro _ ⟨q, hq, rfl⟩
          exact ⟨q, List.mem_cons_of_mem _ hq, rfl⟩
        · rintro _ rfl ⟨q, hq, hSame⟩
          exact hNew (List.mem_map.2 ⟨q, hq, hSame⟩)
      rw [List.mapM_cons]
      refine (settles_parameterType hFirst).andThen hSplits
        (fun _ h => List.mem_append_right _ h) fun r _ => ?_
      refine hRest.last fun rs hrs => settles_pure ?_
      rw [List.length_cons, List.length_cons, hrs]

/- A default is compared with a type that is known. -/
theorem settles_checkDefault
    {β : Type}
    {ids : Set Nat}
    {f : PUnit → Resolver β}
    {R : β → Prop}
    {name : String}
    {id : DefinitionId}
    (hKnown : (name, id) ∈ env.flatten)
    (received : Ty)
    (p q : Position)
    (hRest : ∀ u, Settles y ids env (f u) [] R) :
    Settles y ids env
      (checkDefault id received p q >>= f) [] R := by
  intro z hPending
  have hState :=
    outcome_definitionType (hPending.known _ hKnown) p
  have hRun :
      (checkDefault id received p q >>= f).outcome z =
        (checkAssignable
          ((definitionType id p).outcome z).1 received q >>=
            f).outcome ((definitionType id p).outcome z).2 :=
    rfl
  rw [hRun, hState]
  exact Helps.settles (helps_checkAssignable _ received q q)
    hRest z hPending

section Defaults

variable {p : Parameter}
variable {ps : List Parameter}

theorem defaultIds_cons_subset
    (hFirst : ResolvesParameter y scope a c lo mid p) :
    defaultIds mid hi ps ⊆ defaultIds lo hi (p :: ps) := by
  rintro id ⟨hFrom, hTo, hNot⟩
  have hLow :=
    Nat.le_trans hFirst.le (Nat.le_of_lt hFirst.lt)
  refine ⟨Nat.le_trans hLow hFrom, hTo, ?_⟩
  intro q hMember
  rcases List.mem_cons.1 hMember with rfl | hMember
  · exact Nat.ne_of_lt (Nat.lt_of_lt_of_le hFirst.lt hFrom)
  · exact hNot q hMember

/- A default is apart from the defaults behind it. -/
theorem splits_defaultIds
    (hFirst : ResolvesParameter y scope a c lo mid p)
    (hRest : ResolvesParameters y scope b hi c mid ps) :
    Splits (defaultIds lo hi (p :: ps))
      (Set.Ico lo p.definition) (defaultIds mid hi ps) := by
  have hLess
      (id : Nat)
      (hMember : id ∈ Set.Ico lo p.definition) :
      id < mid :=
    Nat.lt_trans hMember.2 hFirst.lt
  refine ⟨?_, defaultIds_cons_subset hFirst, ?_⟩
  · intro id hMember
    have hBefore := hLess id hMember
    refine ⟨hMember.1,
      Nat.lt_of_lt_of_le hBefore hRest.le, ?_⟩
    intro q hq
    rcases List.mem_cons.1 hq with rfl | hq
    · exact Nat.ne_of_gt hMember.2
    · exact Nat.ne_of_gt
        (Nat.lt_of_lt_of_le hBefore (hRest.bounds q hq).1)
  · intro id hMember hOther
    exact absurd hOther.1 (Nat.not_le.2 (hLess id hMember))

/- Neither a parameter nor a later one is seen before it. -/
theorem hidden_parameters
    {v : Nat}
    (hVisible : y.VisibleFrom p.definition v)
    (hStop : v ≤ c)
    (hRest : ResolvesParameters y scope b hi c mid ps)
    (hHidden : y.Hidden b behind) :
    y.Hidden v
      ((p :: ps).map Parameter.binding ++ behind) := by
  have hOwn : y.Hidden v [p.binding] := by
    intro x hMember
    rw [List.mem_singleton.1 hMember]
    exact ⟨v, hVisible, Nat.le_refl v⟩
  have hOthers :=
    hRest.dated.hidden.append (hHidden.mono hRest.window)
  exact hOwn.append (hOthers.mono hStop)

/- Behind a parameter the walk comes to the next ones. -/
theorem reaches_parameter
    (hReaches :
      y.Reaches a d scope done
        ((p :: ps).map Parameter.binding ++ behind) outer)
    (hFirst : ResolvesParameter y scope a c lo mid p) :
    y.Reaches c d scope (done ++ [p.binding])
      (ps.map Parameter.binding ++ behind) outer := by
  rcases hFirst.visible with ⟨v, hVisible, -, hStop, -⟩
  have hAt :
      y.Reaches a d scope done
        ([p.binding] ++
          (ps.map Parameter.binding ++ behind)) outer :=
    hReaches
  refine hAt.advance hFirst.window ?_
  intro x hMember
  rw [List.mem_singleton.1 hMember]
  exact ⟨v, hVisible, hStop⟩

/- Each default sees the parameters before its own. -/
theorem ResolvesParameters.settles_defaults
    (hParameters :
      ResolvesParameters y scope b hi a lo ps)
    (hScope : around.scope = some scope)
    (hReaches :
      y.Reaches a d scope done
        (ps.map Parameter.binding ++ behind) outer)
    (hHidden : y.Hidden b behind)
    (hStop : b ≤ d) :
    Settles y (defaultIds lo hi ps)
      ((done ++ ps.map Parameter.binding).reverse :: outer)
      (resolveDefaults around ps) []
      (fun qs =>
        usesInParameters (done.reverse :: outer) qs =
            (usesInParameters (done.reverse :: outer)
              ps).map Use.settled ∧
          qs.map Parameter.binding =
            ps.map Parameter.binding) := by
  induction hParameters generalizing done with
  | nil _ _ => exact settles_pure ⟨rfl, rfl⟩
  | @cons a c lo mid p ps hFirst hRest ih =>
      rcases hFirst.visible with
        ⟨v, hVisible, -, hEnd, hFallback⟩
      have hFrame :
          done ++ [p.binding] ++ ps.map Parameter.binding =
            done ++ (p :: ps).map Parameter.binding := by
        rw [List.append_assoc]
        rfl
      have hOthers := ih (reaches_parameter hReaches hFirst)
      rw [hFrame, List.reverse_concat] at hOthers
      have hSplits := splits_defaultIds hFirst hRest
      have hSees :=
        hReaches.sees
          (hidden_parameters hVisible hEnd hRest hHidden)
          (Nat.le_trans hEnd
            (Nat.le_trans (window hRest) hStop))
      have hSmaller :=
        Environment.flatten_subset done
          ((p :: ps).map Parameter.binding) outer
      have hKnown :
          p.binding ∈
            List.flatten
              ((done ++ (p :: ps).map
                Parameter.binding).reverse :: outer) := by
        refine List.mem_flatten.2
          ⟨_, List.mem_cons_self, ?_⟩
        refine List.mem_reverse.2
          (List.mem_append_right _ ?_)
        exact List.mem_cons_self
      rcases p with ⟨name, typeExpr, fallback, id, span⟩
      cases hFallback with
      | none _ =>
          unfold resolveDefaults
          refine (hOthers.imp hSplits.right (fun _ h => h)
            fun _ h => h).last fun qs hqs => settles_pure ?_
          rcases hqs with ⟨hUses, hBindings⟩
          refine ⟨hUses, ?_⟩
          rw [List.map_cons, List.map_cons, hBindings]
      | some hValue =>
          unfold resolveDefaults
          refine ((hValue.alone.settles hScope hSees).imp
            (fun _ h => h) hSmaller fun _ h => h).andThen
              hSplits (fun _ h => h) fun r hr => ?_
          refine settles_checkDefault hKnown r.2 _ _
            fun _ => ?_
          refine hOthers.last fun qs hqs => settles_pure ?_
          rcases hqs with ⟨hUses, hBindings⟩
          constructor
          · simp only [usesInParameters, usesInOption, hr,
              List.map_append]
            exact congrArg _ hUses
          · rw [List.map_cons, List.map_cons, hBindings]
            rfl

end Defaults

------------------------------------------------------------
-- Functions without names
------------------------------------------------------------

/- Written types of parameters are no uses of names. -/
theorem uses_withTypes
    (env : Environment)
    {ps : List Parameter}
    {types : List TypeExpr}
    (hLength : types.length = ps.length) :
    usesInParameters env (withTypes ps types) =
        usesInParameters env ps ∧
      (withTypes ps types).map Parameter.binding =
        ps.map Parameter.binding := by
  induction ps generalizing env types with
  | nil =>
      rw [List.length_eq_zero_iff.1 hLength]
      exact ⟨rfl, rfl⟩
  | cons p ps ih =>
      cases types with
      | nil => cases hLength
      | cons type types =>
          rcases p with ⟨name, typeExpr, fallback, id, span⟩
          rcases ih (env.bind name id)
            (Nat.succ.inj hLength) with ⟨hUses, hBindings⟩
          constructor
          · exact congrArg
              (usesInOption env fallback ++ ·) hUses
          · exact congrArg ((name, id) :: ·) hBindings

/- The parameters of a function are apart from the rest. -/
theorem splits_parameterIds
    {ps : List Parameter}
    (hParameters :
      ResolvesParameters y scope b mid a lo ps)
    (hHigh : mid ≤ hi) :
    Splits (Set.Ico lo hi) (parameterIds ps)
      (defaultIds lo hi ps) where
  left := by
    rintro id ⟨p, hp, rfl⟩
    have hBounds := hParameters.bounds p hp
    exact ⟨hBounds.1, Nat.lt_of_lt_of_le hBounds.2 hHigh⟩
  right id hMember := ⟨hMember.1, hMember.2.1⟩
  apart := by
    rintro id ⟨p, hp, hSame⟩ hOther
    exact hOther.2.2 p hp hSame

/- The defaults of a function are apart from its body. -/
theorem splits_body
    {ps : List Parameter}
    (hParameters :
      ResolvesParameters y scope b mid a lo ps)
    (hHigh : mid ≤ hi) :
    Splits (defaultIds lo hi ps) (defaultIds lo mid ps)
      (Set.Ico mid hi) where
  left id hMember :=
    ⟨hMember.1, Nat.lt_of_lt_of_le hMember.2.1 hHigh,
      hMember.2.2⟩
  right id hMember := by
    refine ⟨Nat.le_trans hParameters.le hMember.1,
      hMember.2, ?_⟩
    intro p hp
    exact Nat.ne_of_lt
      (Nat.lt_of_lt_of_le (hParameters.bounds p hp).2
        hMember.1)
  apart id hMember hOther :=
    absurd hOther.1 (Nat.not_le.2 hMember.2.1)

section Functions

variable {β : Type}
variable {ps : List Parameter}
variable {R : β → Prop}

/-
  All parameters of a function get types first; what follows
  may define the rest, and knows all of them.
-/
theorem ResolvesParameters.settles_types
    {bindings : List Binding}
    {f : List (TypeExpr × Ty) → Resolver β}
    (hParameters :
      ResolvesParameters y scope b mid a lo ps)
    (hHigh : mid ≤ hi)
    (hRest :
      ∀ types,
        types.length = ps.length →
          Settles y (defaultIds lo hi ps)
            ((ps.map Parameter.binding).reverse :: env)
            (f types) bindings R) :
    Settles y (Set.Ico lo hi) env
      (ps.mapM parameterType >>= f)
      (ps.map Parameter.binding ++ bindings) R := by
  have hVisible :
      ∀ p ∈ ps, ∃ v, y.VisibleFrom p.definition v := by
    intro p hp
    rcases hParameters.dated p.binding
      (List.mem_map_of_mem hp) with ⟨v, hFrom, -⟩
    exact ⟨v, hFrom⟩
  refine (settles_parameterTypes hVisible
    hParameters.nodup).andThen
      (splits_parameterIds hParameters hHigh) ?_ hRest
  intro x hMember
  rcases List.mem_append.1 hMember with hMember | hMember
  · exact List.mem_append_left _ (List.mem_reverse.1 hMember)
  · exact List.mem_append_right _ hMember

/- Then the defaults are walked, and what follows them. -/
theorem ResolvesParameters.settles_then
    {f : List Parameter → Resolver β}
    (hParameters :
      ResolvesParameters y scope b mid a lo ps)
    (hHigh : mid ≤ hi)
    (hScope : around.scope = some scope)
    (hReaches :
      y.Reaches a d scope [] (ps.map Parameter.binding) env)
    (hStop : b ≤ d)
    (hRest :
      ∀ qs,
        usesInParameters env.push qs =
            (usesInParameters env.push ps).map Use.settled →
          qs.map Parameter.binding =
            ps.map Parameter.binding →
            Settles y (Set.Ico mid hi)
              ((ps.map Parameter.binding).reverse :: env)
              (f qs) [] R) :
    Settles y (defaultIds lo hi ps)
      ((ps.map Parameter.binding).reverse :: env)
      (resolveDefaults around ps >>= f) [] R := by
  have hAll :
      y.Reaches a d scope []
        (ps.map Parameter.binding ++ []) env := by
    rw [List.append_nil]
    exact hReaches
  refine (hParameters.settles_defaults hScope hAll nofun
    hStop).andThen (splits_body hParameters hHigh)
      (fun _ h => h) ?_
  rintro qs ⟨hUses, hBindings⟩
  exact hRest qs hUses hBindings

/- In the body all parameters are seen. -/
theorem ResolvesParameters.sees
    (hParameters :
      ResolvesParameters y scope b mid a lo ps)
    (hReaches :
      y.Reaches a d scope [] (ps.map Parameter.binding)
        env) :
    y.Sees b d (some scope)
      ((ps.map Parameter.binding).reverse :: env) := by
  have hAll :
      y.Reaches a d scope []
        (ps.map Parameter.binding ++ []) env := by
    rw [List.append_nil]
    exact hReaches
  refine (hAll.advance hParameters.window ?_).sees nofun
    (Nat.le_refl d)
  intro x hMember
  rcases hParameters.dated x hMember with ⟨v, hFrom, -, hLe⟩
  exact ⟨v, hFrom, hLe⟩

theorem bindParameters_push
    (env : Environment)
    (ps : List Parameter) :
    env.push.bindParameters ps =
      (ps.map Parameter.binding).reverse :: env := by
  unfold Environment.push
  rw [Environment.bindParameters_eq, List.append_nil]

/- Resolved parameters settle their uses and bind the same. -/
theorem settled_parameters
    {qs : List Parameter}
    {types : List (TypeExpr × Ty)}
    (hLength : types.length = ps.length)
    (hUses :
      usesInParameters env.push qs =
        (usesInParameters env.push ps).map Use.settled)
    (hBindings :
      qs.map Parameter.binding = ps.map Parameter.binding) :
    usesInParameters env.push
          (withTypes qs (types.map (·.1))) =
        (usesInParameters env.push ps).map Use.settled ∧
      env.push.bindParameters
          (withTypes qs (types.map (·.1))) =
        env.push.bindParameters ps := by
  have hSame : (types.map (·.1)).length = qs.length := by
    have hBoth := congrArg List.length hBindings
    rw [List.length_map, List.length_map] at hBoth
    rw [List.length_map, hLength, hBoth]
  rcases uses_withTypes env.push hSame with
    ⟨hTyped, hBound⟩
  constructor
  · rw [hTyped, hUses]
  · rw [bindParameters_push, bindParameters_push, hBound,
      hBindings]

theorem ResolvesForm.function
    {returnType : TypeExpr}
    {body : Expr}
    (hHolds :
      y.Holds inner (some scope)
        (ps.map Parameter.binding))
    (hParameters :
      ResolvesParameters y inner b mid a lo ps)
    (hBody : Resolves y inner b c mid hi body)
    (hStop : b ≤ c) :
    ResolvesForm y scope a c lo hi span
      (.function ps returnType body inner) := by
  have hHigh := hBody.alone.le
  refine ⟨Nat.le_trans hParameters.le hHigh,
    fun {around env} hScope hSees => ?_⟩
  have hReaches := Symbols.Reaches.enter hHolds hSees
  have hInside := hParameters.sees hReaches
  unfold resolveForm
  refine (hParameters.settles_types hHigh
    fun types hLength => ?_).forget
  refine hParameters.settles_then hHigh rfl hReaches hStop
    fun qs hUses hBindings => ?_
  refine Helps.settles
    (helps_resolveDeclared (typeExprs_identity returnType))
    fun r => ?_
  refine (hBody.alone.settles rfl hInside).last fun u hu => ?_
  refine Helps.settles (helps_checkBody r.2 u.2 _ _)
    fun _ => settles_pure ?_
  rcases settled_parameters hLength hUses hBindings with
    ⟨hDefaults, hBound⟩
  rw [← bindParameters_push] at hu
  refine Use.settled_append hDefaults ?_
  rw [hBound]
  exact hu

theorem ResolvesForm.lambda
    {body : Expr}
    (hHolds :
      y.Holds inner (some scope)
        (ps.map Parameter.binding))
    (hParameters :
      ResolvesParameters y inner b mid a lo ps)
    (hBody : Resolves y inner b c mid hi body)
    (hStop : b ≤ c) :
    ResolvesForm y scope a c lo hi span
      (.lambda ps body inner) := by
  have hHigh := hBody.alone.le
  refine ⟨Nat.le_trans hParameters.le hHigh,
    fun {around env} hScope hSees => ?_⟩
  have hReaches := Symbols.Reaches.enter hHolds hSees
  have hInside := hParameters.sees hReaches
  unfold resolveForm
  refine (hParameters.settles_types hHigh
    fun types hLength => ?_).forget
  refine hParameters.settles_then hHigh rfl hReaches hStop
    fun qs hUses hBindings => ?_
  refine (hBody.alone.settles rfl hInside).last
    fun u hu => settles_pure ?_
  rcases settled_parameters hLength hUses hBindings with
    ⟨hDefaults, hBound⟩
  rw [← bindParameters_push] at hu
  refine Use.settled_append hDefaults ?_
  rw [hBound]
  exact hu

end Functions

------------------------------------------------------------
-- Variables and functions
------------------------------------------------------------

/- What is declared has no type yet. -/
theorem settles_isResolved
    {β : Type}
    {ids : Set Nat}
    {bindings : List Binding}
    {f : Bool → Resolver β}
    {R : β → Prop}
    {id : Nat}
    (hUnknown : id ∈ ids)
    (hRest : Settles y ids env (f false) bindings R) :
    Settles y ids env (isResolved id >>= f) bindings R := by
  intro z hPending
  have hRun :
      (isResolved id >>= f).outcome z =
        (f (z.symbols.type? id).isSome).outcome z :=
    rfl
  rw [hRun, hPending.unknown id hUnknown]
  exact hRest z hPending

/- The last definition of a part is apart from the others. -/
theorem splits_last
    {id : Nat}
    (hLe : lo ≤ id) :
    Splits (Set.Ico lo (id + 1)) (Set.Ico lo id) {id} where
  left _ hMember := ⟨hMember.1, Nat.lt_succ_of_lt hMember.2⟩
  right := by
    rintro _ rfl
    exact ⟨hLe, Nat.lt_succ_self _⟩
  apart := by
    rintro _ hMember rfl
    exact absurd hMember.2 (Nat.lt_irrefl _)

/- A variable is seen behind its declaration only. -/
theorem ResolvesVariable.intro
    {isMutable : Bool}
    {name : String}
    {typeExpr : TypeExpr}
    {initializer : Option Expr}
    {id : Nat}
    {v : Nat}
    (hInitializer :
      ResolvesOption y scope a b lo id initializer)
    (hVisible : y.VisibleFrom id v)
    (hStart : a ≤ v)
    (hBehind : b ≤ v)
    (hStop : v ≤ c) :
    ResolvesVariable y scope a c lo (id + 1)
      ⟨isMutable, name, typeExpr, initializer, id, span⟩ where
  le := Nat.le_succ_of_le hInitializer.lexical.le
  window := Nat.le_trans hStart hStop
  dated := by
    intro x hMember
    rw [List.mem_singleton.1 hMember]
    exact ⟨v, hVisible, hStart, hStop⟩
  settles := by
    intro around done behind outer hScope hReaches hHidden
    have hLe := hInitializer.lexical.le
    have hLater : y.Hidden b ((name, id) :: behind) := by
      have hOwn : y.Hidden b [(name, id)] := by
        intro x hMember
        rw [List.mem_singleton.1 hMember]
        exact ⟨v, hVisible, hBehind⟩
      exact hOwn.append
        (hHidden.mono (Nat.le_trans hBehind hStop))
    have hSees :=
      hReaches.sees hLater (Nat.le_trans hBehind hStop)
    unfold resolveVariable
    refine settles_isResolved
      ⟨hLe, Nat.lt_succ_self id⟩ ?_
    refine Helps.settles
      (helps_resolveDeclared (typeExprs_identity typeExpr))
      fun r => ?_
    refine (hInitializer.lexical.settles hScope
      hSees).andThen (splits_last hLe) (fun _ h => h)
        fun u hu => ?_
    refine Helps.settles
      (helps_variableType name r.2 rfl _ _) fun type => ?_
    exact (settles_fillType hVisible name type).last
      fun _ _ => settles_pure ⟨hu, rfl, rfl⟩

theorem splits_own
    {ps : List Parameter}
    {id : Nat}
    (hParameters :
      ResolvesParameters y scope b mid a lo ps)
    (hHigh : mid ≤ id) :
    Splits (defaultIds lo (id + 1) ps) {id}
      (defaultIds lo id ps) where
  left := by
    rintro _ rfl
    refine ⟨Nat.le_trans hParameters.le hHigh,
      Nat.lt_succ_self _, ?_⟩
    intro p hp
    exact Nat.ne_of_lt
      (Nat.lt_of_lt_of_le (hParameters.bounds p hp).2 hHigh)
  right _ hMember :=
    ⟨hMember.1, Nat.lt_succ_of_lt hMember.2.1, hMember.2.2⟩
  apart := by
    rintro _ rfl hMember
    exact absurd hMember.2.1 (Nat.lt_irrefl _)

/- A function is seen from its name on, also in itself. -/
theorem ResolvesFunction.intro
    {name : String}
    {ps : List Parameter}
    {returnType : TypeExpr}
    {body : Option Expr}
    {id : Nat}
    {v : Nat}
    (hHolds :
      y.Holds inner (some scope)
        (ps.map Parameter.binding))
    (hParameters :
      ResolvesParameters y inner b mid a lo ps)
    (hBody : ResolvesOption y inner b c mid id body)
    (hVisible : y.VisibleFrom id v)
    (hStart : d ≤ v)
    (hInside : v ≤ a)
    (hStop : b ≤ c) :
    ResolvesFunction y scope d c lo (id + 1)
      ⟨name, ps, returnType, body, inner, id, span⟩ where
  le :=
    Nat.le_succ_of_le
      (Nat.le_trans hParameters.le hBody.lexical.le)
  window :=
    Nat.le_trans hStart (Nat.le_trans hInside
      (Nat.le_trans hParameters.window hStop))
  dated := by
    intro x hMember
    rw [List.mem_singleton.1 hMember]
    exact ⟨v, hVisible, hStart, Nat.le_trans hInside
      (Nat.le_trans hParameters.window hStop)⟩
  settles := by
    intro around done behind outer hScope hReaches hHidden
    have hHigh := hBody.lexical.le
    have hLe := Nat.le_trans hParameters.le hHigh
    have hOwn :
        y.Reaches a c scope (done ++ [(name, id)]) behind
          outer := by
      have hAt :
          y.Reaches d c scope done ([(name, id)] ++ behind)
            outer :=
        hReaches
      refine hAt.advance (Nat.le_trans hStart hInside) ?_
      intro x hMember
      rw [List.mem_singleton.1 hMember]
      exact ⟨v, hVisible, hInside⟩
    have hSees := hOwn.sees hHidden (Nat.le_refl c)
    rw [List.reverse_concat] at hSees
    have hEntered := Symbols.Reaches.enter hHolds hSees
    have hInner := hParameters.sees hEntered
    unfold resolveFunction
    refine settles_isResolved
      ⟨hLe, Nat.lt_succ_self id⟩ ?_
    refine (hParameters.settles_types
      (Nat.le_succ_of_le hHigh) fun types hLength =>
        ?_).forget
    refine Helps.settles
      (helps_resolveDeclared (typeExprs_identity returnType))
      fun r => ?_
    have hEnv :
        List.flatten
            ((ps.map Parameter.binding).reverse ::
              ((name, id) :: done.reverse) :: outer) ⊆
          [(name, id)] ++
            List.flatten
              ((ps.map Parameter.binding).reverse ::
                done.reverse :: outer) := by
      intro x hMember
      simp only [List.flatten_cons, List.mem_append,
        List.mem_cons] at hMember ⊢
      tauto
    refine (settles_fillType hVisible name _).andThen
      (splits_own hParameters hHigh) hEnv fun _ _ => ?_
    refine hParameters.settles_then hHigh rfl hEntered hStop
      fun qs hUses hBindings => ?_
    refine (hBody.lexical.settles rfl hInner).last
      fun u hu => ?_
    rcases settled_parameters hLength hUses hBindings with
      ⟨hDefaults, hBound⟩
    rw [← bindParameters_push] at hu
    have hResult :
        FunctionDecl.uses (done.reverse :: outer)
            ⟨name, withTypes qs (types.map (·.1)), r.1, u.1,
              inner, id, span⟩ =
          (FunctionDecl.uses (done.reverse :: outer)
            ⟨name, ps, returnType, body, inner, id,
              span⟩).map Use.settled := by
      simp only [FunctionDecl.uses]
      have hFrame :
          Environment.bind (done.reverse :: outer) name id =
            ((name, id) :: done.reverse) :: outer :=
        rfl
      rw [hFrame, hDefaults, hBound, hu, List.map_append]
    dsimp only
    split
    · exact Helps.settles (helps_checkBody _ _ _ _)
        fun _ => settles_pure ⟨hResult, rfl, rfl⟩
    · exact settles_pure ⟨hResult, rfl, rfl⟩

------------------------------------------------------------
-- Statements and blocks
------------------------------------------------------------

theorem ResolvesStatement.expression
    {e : Expr}
    (hExpr : Resolves y scope a b lo hi e)
    (hWindow : a ≤ b) :
    ResolvesStatement y scope a b lo hi (.expression e) where
  le := hExpr.alone.le
  window := hWindow
  dated := nofun
  settles := by
    intro around done behind outer hScope hReaches hHidden
    have hSees := hReaches.sees hHidden (Nat.le_refl b)
    unfold resolveStatement
    exact (hExpr.alone.settles hScope hSees).last
      fun r hr => settles_pure ⟨hr, rfl⟩

theorem ResolvesStatement.variable
    {v : VariableDecl}
    (hVariable : ResolvesVariable y scope a b lo hi v) :
    ResolvesStatement y scope a b lo hi (.variable v) where
  le := hVariable.le
  window := hVariable.window
  dated := hVariable.dated
  settles := by
    intro around done behind outer hScope hReaches hHidden
    unfold resolveStatement
    refine (hVariable.settles hScope hReaches hHidden).last
      fun r hr => settles_pure ?_
    rcases hr with ⟨hUses, hName, hDefinition⟩
    refine ⟨hUses, ?_⟩
    simp only [Statement.bindings, hName, hDefinition]

theorem ResolvesStatement.function
    {f : FunctionDecl}
    (hFunction : ResolvesFunction y scope a b lo hi f) :
    ResolvesStatement y scope a b lo hi (.function f) where
  le := hFunction.le
  window := hFunction.window
  dated := hFunction.dated
  settles := by
    intro around done behind outer hScope hReaches hHidden
    unfold resolveStatement
    refine (hFunction.settles hScope hReaches hHidden).last
      fun r hr => settles_pure ?_
    rcases hr with ⟨hUses, hName, hDefinition⟩
    refine ⟨hUses, ?_⟩
    simp only [Statement.bindings, hName, hDefinition]

theorem Environment.afterStatement_eq
    (done : List Binding)
    (outer : Environment)
    (x : Statement) :
    Environment.afterStatement (done.reverse :: outer) x =
      (done ++ x.bindings).reverse :: outer := by
  rw [List.reverse_append]
  cases x with
  | expression e => rfl
  | «variable» v => rfl
  | function f => rfl

namespace ResolvesStatements

variable {xs : List Statement}

theorem le
    (hStatements :
      ResolvesStatements y scope b hi a lo xs) :
    lo ≤ hi :=
  InOrder.le hStatements Declaring.le

theorem window
    (hStatements :
      ResolvesStatements y scope b hi a lo xs) :
    a ≤ b :=
  InOrder.window hStatements Declaring.window

theorem dated
    (hStatements :
      ResolvesStatements y scope b hi a lo xs) :
    y.Dated a b (xs.flatMap Statement.bindings) :=
  InOrder.dated hStatements Declaring.window Declaring.dated

/- Each statement sees the names declared before it. -/
theorem settles
    (hStatements :
      ResolvesStatements y scope b hi a lo xs)
    (hScope : around.scope = some scope)
    (hReaches :
      y.Reaches a b scope done
        (xs.flatMap Statement.bindings) outer)
    (type : Ty) :
    Settles y (Set.Ico lo hi) (done.reverse :: outer)
      (resolveStatements around type xs)
      (xs.flatMap Statement.bindings)
      (fun r =>
        usesInStatements (done.reverse :: outer) r.1 =
          (usesInStatements (done.reverse :: outer)
            xs).map Use.settled) := by
  induction hStatements generalizing done type with
  | nil _ _ => exact settles_pure rfl
  | @cons a c lo mid x xs hFirst hRest ih =>
      have hOthers :
          ResolvesStatements y scope b hi c mid xs :=
        hRest
      rw [List.flatMap_cons] at hReaches ⊢
      have hNext := hReaches.advance hFirst.window fun z hz => by
        rcases hFirst.dated z hz with ⟨v, hVisible, -, hTo⟩
        exact ⟨v, hVisible, hTo⟩
      have hOwn :=
        hFirst.settles hScope
          (hReaches.mono (Nat.le_refl a) hOthers.window)
          hOthers.dated.hidden
      unfold resolveStatements
      refine hOwn.andThen (splits_Ico hFirst.le hOthers.le)
        (Environment.flatten_subset_new done x.bindings
          outer) fun r hr => ?_
      refine (ih hNext r.2).last fun u hu => settles_pure ?_
      simp only [usesInStatements, hr.1,
        Environment.afterStatement_eq, hr.2, hu,
        List.map_append]

end ResolvesStatements

/- In a block names are declared one after the other. -/
theorem ResolvesForm.block
    {xs : List Statement}
    (hHolds :
      y.Holds inner (some scope)
        (xs.flatMap Statement.bindings))
    (hStatements :
      ResolvesStatements y inner b hi a lo xs) :
    ResolvesForm y scope a b lo hi span
      (.block xs inner) := by
  refine ⟨hStatements.le,
    fun {around env} hScope hSees => ?_⟩
  have hReaches := Symbols.Reaches.enter hHolds hSees
  have hInside :
      Settles y (Set.Ico lo hi) env
        (resolveStatements (around.within inner) .unit xs) []
        (fun r =>
          usesInStatements env.push r.1 =
            (usesInStatements env.push xs).map
              Use.settled) := by
    intro z hPending
    have hPushed : Pending y (Set.Ico lo hi) env.push z :=
      hPending.imp (fun _ h => h) (fun _ h => h)
    have hWalk :=
      @ResolvesStatements.settles _ _ _ _ _ _ _ _
        (around.within inner) _ hStatements rfl hReaches .unit
    have hBoth := hWalk z hPushed
    exact ⟨hBoth.1, nofun, hBoth.2.2⟩
  unfold resolveForm
  exact hInside.last fun r hr => settles_pure hr

------------------------------------------------------------
-- Declarations
------------------------------------------------------------

theorem ResolvesDeclaration.function
    {f : FunctionDecl}
    (hFunction : ResolvesFunction y scope a b lo hi f) :
    ResolvesDeclaration y scope a b lo hi (.function f) where
  le := hFunction.le
  window := hFunction.window
  dated := hFunction.dated
  settles := by
    intro around done behind outer hScope hReaches hHidden
    unfold resolveDeclaration
    refine (hFunction.settles hScope hReaches hHidden).last
      fun r hr => settles_pure ?_
    rcases hr with ⟨hUses, hName, hDefinition⟩
    refine ⟨hUses, ?_⟩
    simp only [Declaration.bindings, hName, hDefinition]

theorem ResolvesDeclaration.property
    {v : VariableDecl}
    (hVariable : ResolvesVariable y scope a b lo hi v) :
    ResolvesDeclaration y scope a b lo hi (.property v) where
  le := hVariable.le
  window := hVariable.window
  dated := hVariable.dated
  settles := by
    intro around done behind outer hScope hReaches hHidden
    unfold resolveDeclaration
    refine (hVariable.settles hScope hReaches hHidden).last
      fun r hr => settles_pure ?_
    rcases hr with ⟨hUses, hName, hDefinition⟩
    refine ⟨hUses, ?_⟩
    simp only [Declaration.bindings, hName, hDefinition]

theorem Environment.afterDeclaration_eq
    (done : List Binding)
    (outer : Environment)
    (x : Declaration) :
    Environment.afterDeclaration (done.reverse :: outer) x =
      (done ++ x.bindings).reverse :: outer := by
  rw [List.reverse_append]
  cases x with
  | function f => rfl
  | property v => rfl

namespace ResolvesDeclarations

variable {xs : List Declaration}

theorem le
    (hDeclarations :
      ResolvesDeclarations y scope b hi a lo xs) :
    lo ≤ hi :=
  InOrder.le hDeclarations Declaring.le

theorem window
    (hDeclarations :
      ResolvesDeclarations y scope b hi a lo xs) :
    a ≤ b :=
  InOrder.window hDeclarations Declaring.window

theorem dated
    (hDeclarations :
      ResolvesDeclarations y scope b hi a lo xs) :
    y.Dated a b (xs.flatMap Declaration.bindings) :=
  InOrder.dated hDeclarations Declaring.window
    Declaring.dated

/- Each declaration sees the names declared before it. -/
theorem settles
    (hDeclarations :
      ResolvesDeclarations y scope b hi a lo xs)
    (hScope : around.scope = some scope)
    (hReaches :
      y.Reaches a b scope done
        (xs.flatMap Declaration.bindings) outer) :
    Settles y (Set.Ico lo hi) (done.reverse :: outer)
      (xs.mapM (resolveDeclaration around))
      (xs.flatMap Declaration.bindings)
      (fun rs =>
        usesInDeclarations (done.reverse :: outer) rs =
          (usesInDeclarations (done.reverse :: outer)
            xs).map Use.settled) := by
  induction hDeclarations generalizing done with
  | nil _ _ => exact settles_pure rfl
  | @cons a c lo mid x xs hFirst hRest ih =>
      have hOthers :
          ResolvesDeclarations y scope b hi c mid xs :=
        hRest
      rw [List.flatMap_cons] at hReaches ⊢
      have hNext := hReaches.advance hFirst.window fun z hz => by
        rcases hFirst.dated z hz with ⟨v, hVisible, -, hTo⟩
        exact ⟨v, hVisible, hTo⟩
      have hOwn :=
        hFirst.settles hScope
          (hReaches.mono (Nat.le_refl a) hOthers.window)
          hOthers.dated.hidden
      rw [List.mapM_cons]
      refine hOwn.andThen (splits_Ico hFirst.le hOthers.le)
        (Environment.flatten_subset_new done x.bindings
          outer) fun r hr => ?_
      refine (ih hNext).last fun rs hrs => settles_pure ?_
      simp only [usesInDeclarations, hr.1,
        Environment.afterDeclaration_eq, hr.2, hrs,
        List.map_append]

end ResolvesDeclarations

end SourceCheck
