import SourceCheck.Proofs.Resolution.Bounds

/-
  Properties of resolvers.

  A `ResolverProperty` says something of resolvers and of
  what they give, and follows for a resolver from its parts.
  So it holds of all that is done with trees within bounds,
  once it does of the few actions that read the symbols or
  change a state.

  Key definitions include:
    * `ResolverState.SameNames`
    * `ResolverProperty`
    * `ResolverProperty.HoldsWith`

  Key theorems include:
    * `ResolverProperty.HoldsWith.bind`
    * `ResolverProperty.holds_reference`
    * `ResolverProperty.holds_parameterType`
    * `ResolverProperty.holds_resolveImport`
-/

namespace SourceCheck

open SourceCheck.Resolver

------------------------------------------------------------
-- The same names
------------------------------------------------------------

/- Both find the same types by names and by texts. -/
structure TypeNames.Same (t u : TypeNames) : Prop where
  named : ∀ name, t.find? name = u.find? name
  written : ∀ text, t.findWritten? text = u.findWritten? text

/- Both find the same members. -/
structure MemberNames.Same (m n : MemberNames) : Prop where
  found : ∀ name, m.find name = n.find name

/-
  Both states know the same by names, wherever it stands in
  their lists.
-/
structure ResolverState.SameNames
    (z w : ResolverState) :
    Prop where
  types : z.types.Same w.types
  members : z.members.Same w.members

theorem TypeNames.Same.refl (t : TypeNames) : t.Same t :=
  ⟨fun _ => rfl, fun _ => rfl⟩

theorem MemberNames.Same.refl (m : MemberNames) : m.Same m :=
  ⟨fun _ => rfl⟩

theorem ResolverState.SameNames.of_eq
    {z w : ResolverState}
    (hTypes : z.types = w.types)
    (hMembers : z.members = w.members) :
    z.SameNames w := by
  constructor
  · rw [hTypes]
    exact .refl _
  · rw [hMembers]
    exact .refl _

/- The same type for a text is remembered in both. -/
theorem TypeNames.Same.remember
    {t u : TypeNames}
    (hSame : t.Same u)
    (text : String)
    (type : Ty) :
    (t.remember text type).Same (u.remember text type) where
  named := hSame.named
  written other := by
    rw [findWritten?_remember, findWritten?_remember,
      hSame.written]

/- A name with a type, in front of the other names. -/
def TypeNames.withName
    (t : TypeNames)
    (name : String)
    (type : Ty) :
    TypeNames :=
  { t with named := (name, type) :: t.named }

theorem TypeNames.find?_withName
    (t : TypeNames)
    (name other : String)
    (type : Ty) :
    (t.withName name type).find? other =
      if other = name then some type else t.find? other := by
  by_cases hName : other = name
  · simp [find?, withName, hName]
  · have hOther : (other == name) = false :=
      beq_eq_false_iff_ne.2 hName
    simp [find?, withName, List.lookup_cons, hOther, hName]

theorem TypeNames.Same.withName
    {t u : TypeNames}
    (hSame : t.Same u)
    (name : String)
    (type : Ty) :
    (t.withName name type).Same (u.withName name type) where
  named other := by
    rw [find?_withName, find?_withName, hSame.named]
  written := hSame.written

/- The members of a name, behind those that it has. -/
def MemberNames.withMembers
    (m : MemberNames)
    (name : String)
    (members : List Member) :
    MemberNames :=
  members.foldl (fun known x => known.define name x) m

theorem MemberNames.find_withMembers
    (m : MemberNames)
    (name other : String)
    (members : List Member) :
    (m.withMembers name members).find other =
      if other = name then
        m.find other ++ members
      else
        m.find other := by
  induction members generalizing m with
  | nil =>
      rw [withMembers, List.foldl_nil, List.append_nil,
        ite_self]
  | cons x members ih =>
      change ((m.define name x).withMembers name
        members).find other = _
      rw [ih, find_define]
      split
      · rw [List.append_assoc]
        rfl
      · rfl

theorem MemberNames.Same.withMembers
    {m n : MemberNames}
    (hSame : m.Same n)
    (name : String)
    (members : List Member) :
    (m.withMembers name members).Same
      (n.withMembers name members) where
  found other := by
    rw [find_withMembers, find_withMembers, hSame.found]

------------------------------------------------------------
-- Names within bounds
------------------------------------------------------------

/- The scope around an expression is within bounds. -/
def Bounds.Around
    (b : Bounds)
    (around : Surroundings) :
    Prop :=
  ∀ scope, around.scope = some scope → scope < b.scopes

/- If the form is a name, what it refers to is bounded. -/
def Bounds.Names (b : Bounds) : ExprForm → Prop
  | .reference _ target => target.Bounded b
  | _ => True

------------------------------------------------------------
-- Properties
------------------------------------------------------------

/-
  What is said of a resolver whose results have a property,
  and how it follows from what is said of its parts.  Names
  of types and members are read and changed by themselves.
  Scopes and definitions are used within bounds only.
-/
structure ResolverProperty (b : Bounds) where
  holds : {α : Type} → (α → Prop) → Resolver α → Prop
  ofPure :
    ∀ {α : Type} {P : α → Prop} {a : α},
      P a → holds P (pure a)
  ofBind :
    ∀ {α β : Type} {P : α → Prop} {Q : β → Prop}
      {p : Resolver α} {f : α → Resolver β},
      holds P p →
        (∀ a, P a → holds Q (f a)) → holds Q (p >>= f)
  ofImp :
    ∀ {α : Type} {P Q : α → Prop} {p : Resolver α},
      holds P p → (∀ a, P a → Q a) → holds Q p
  ofReport :
    ∀ (problem : Problem) (p : Position),
      holds (fun _ => True) (report problem p)
  ofNames :
    ∀ {α : Type} {P : α → Prop}
      {f : ResolverState → Resolver α},
      (∀ z w, z.SameNames w → f z = f w) →
        (∀ z, holds P (f z)) → holds P (get >>= f)
  ofRename :
    ∀ {f : TypeNames → TypeNames}
      {g : MemberNames → MemberNames},
      (∀ {t u}, t.Same u → (f t).Same (f u)) →
        (∀ {m n}, m.Same n → (g m).Same (g n)) →
          holds (fun _ => True)
            (modify fun z : ResolverState =>
              { z with
                types := f z.types
                members := g z.members })
  ofVisible :
    ∀ {scope : ScopeId} {p : Position},
      scope < b.scopes →
        p.offset < b.offset →
          ∀ name,
            holds
              (fun found =>
                ∀ id, found = some id → id < b.definitions)
              (visible? scope name p)
  ofDefinitionType :
    ∀ {id : DefinitionId},
      id < b.definitions →
        ∀ p, holds (fun _ => True) (definitionType id p)
  ofIsResolved :
    ∀ {id : DefinitionId},
      id < b.definitions →
        holds (fun _ => True) (isResolved id)
  ofFillType :
    ∀ {id : DefinitionId},
      b.Makes id →
        ∀ type, holds (fun _ => True) (fillType id type)
  ofCheckDefinition :
    ∀ {id : DefinitionId},
      id < b.definitions →
        ∀ p, holds (fun _ => True) (checkDefinition id p)

namespace ResolverProperty

variable {b : Bounds}
variable {R : ResolverProperty b}
variable {α β : Type}
variable {P : α → Prop}
variable {Q : β → Prop}

/- The property holds, and results have one of their own. -/
def HoldsWith
    (R : ResolverProperty b)
    (P : α → Prop)
    (p : Resolver α) :
    Prop :=
  R.holds P p

/- The property holds, whatever the result is. -/
abbrev Holds
    (R : ResolverProperty b)
    (p : Resolver α) :
    Prop :=
  R.HoldsWith (fun _ => True) p

theorem HoldsWith.bind
    {p : Resolver α}
    {f : α → Resolver β}
    (hFirst : R.HoldsWith P p)
    (hRest : ∀ a, P a → R.HoldsWith Q (f a)) :
    R.HoldsWith Q (p >>= f) :=
  R.ofBind hFirst hRest

theorem Holds.bind
    {p : Resolver α}
    {f : α → Resolver β}
    (hFirst : R.Holds p)
    (hRest : ∀ a, R.HoldsWith Q (f a)) :
    R.HoldsWith Q (p >>= f) :=
  R.ofBind hFirst fun a _ => hRest a

theorem HoldsWith.holds
    {p : Resolver α}
    (hHolds : R.HoldsWith P p) :
    R.Holds p :=
  R.ofImp hHolds fun _ _ => trivial

theorem holds_pure
    {a : α}
    (hResult : P a) :
    R.HoldsWith P (pure a) :=
  R.ofPure hResult

/- What is known by name is read, and decides what is done. -/
theorem holds_names
    {f : ResolverState → Resolver α}
    (hNames : ∀ z w, z.SameNames w → f z = f w)
    (hRest : ∀ z, R.HoldsWith P (f z)) :
    R.HoldsWith P (get >>= f) :=
  R.ofNames hNames hRest

theorem holds_mapM
    {f : α → Resolver β}
    {as : List α}
    (hEach : ∀ a ∈ as, R.Holds (f a)) :
    R.Holds (as.mapM f) := by
  induction as with
  | nil => exact holds_pure trivial
  | cons a as ih =>
      rw [List.mapM_cons]
      refine Holds.bind (hEach a List.mem_cons_self)
        fun _ => ?_
      exact Holds.bind
        (ih fun a hMember =>
          hEach a (List.mem_cons_of_mem _ hMember))
        fun _ => holds_pure trivial

theorem holds_forM
    {f : α → Resolver PUnit}
    (hEach : ∀ a, R.Holds (f a))
    (as : List α) :
    R.Holds (as.forM f) := by
  induction as with
  | nil => exact holds_pure trivial
  | cons a as ih => exact (hEach a).bind fun _ => ih

------------------------------------------------------------
-- Reports
------------------------------------------------------------

theorem holds_report
    (problem : Problem)
    (p : Position) :
    R.Holds (report problem p) :=
  R.ofReport problem p

theorem holds_errorType
    (problem : Problem)
    (p : Position) :
    R.Holds (errorType problem p) :=
  (holds_report problem p).bind fun _ => holds_pure trivial

theorem holds_checkAssignable
    (expected received : Ty)
    (p : Position) :
    R.Holds (checkAssignable expected received p) := by
  unfold checkAssignable
  split
  · exact holds_report _ p
  · exact holds_pure trivial

------------------------------------------------------------
-- Written types
------------------------------------------------------------

theorem holds_remember
    (text : String)
    (type : Ty) :
    R.Holds (remember text type) :=
  R.ofRename (fun hSame => hSame.remember text type) id

theorem holds_remembered
    (text : String)
    {p : Resolver Ty}
    (hAction : R.Holds p) :
    R.Holds (remembered text p) := by
  refine holds_names (fun z w hSame => ?_) fun z => ?_
  · rw [hSame.types.written]
  cases z.types.findWritten? text with
  | some type => exact holds_pure trivial
  | none =>
      refine hAction.bind fun type => ?_
      exact (holds_remember text type).bind fun _ =>
        holds_pure trivial

theorem holds_namedType
    (name : String)
    (p : Position) :
    R.Holds (namedType name p) := by
  refine holds_remembered name ?_
  refine holds_names (fun z w hSame => ?_) fun z => ?_
  · rw [hSame.types.named]
  cases z.types.find? name with
  | some type => exact holds_pure trivial
  | none => exact holds_errorType _ p

mutual

theorem holds_resolveTypeForm
    (p : Position) :
    ∀ form : TypeForm, R.Holds (resolveTypeForm p form)
  | .absent => by
      unfold resolveTypeForm
      exact holds_pure trivial
  | .named name => by
      unfold resolveTypeForm
      exact (holds_namedType name p).bind fun _ =>
        holds_pure trivial
  | .union left right => by
      unfold resolveTypeForm
      refine (holds_resolveTypeExpr left).bind fun _ => ?_
      refine (holds_resolveTypeExpr right).bind fun _ => ?_
      exact (holds_remembered _ (holds_pure trivial)).bind
        fun _ => holds_pure trivial
  | .intersection left right => by
      unfold resolveTypeForm
      refine (holds_resolveTypeExpr left).bind fun _ => ?_
      refine (holds_resolveTypeExpr right).bind fun _ => ?_
      exact (holds_remembered _ (holds_pure trivial)).bind
        fun _ => holds_pure trivial

theorem holds_resolveTypeExpr :
    ∀ x : TypeExpr, R.Holds (resolveTypeExpr x)
  | ⟨form, span, some type⟩ => by
      unfold resolveTypeExpr
      exact holds_pure trivial
  | ⟨form, span, none⟩ => by
      unfold resolveTypeExpr
      exact (holds_resolveTypeForm span.start form).bind
        fun _ => holds_pure trivial

end

theorem holds_resolveDeclared (x : TypeExpr) :
    R.Holds (resolveDeclared x) := by
  unfold resolveDeclared
  split
  · exact holds_pure trivial
  · exact (holds_resolveTypeExpr x).bind fun _ =>
      holds_pure trivial

------------------------------------------------------------
-- Names
------------------------------------------------------------

/- A target that is known already. -/
theorem holds_known
    {target : Target}
    (hTarget : target.Bounded b)
    (type : Ty) :
    R.HoldsWith (fun r => r.1.Bounded b)
      (pure (target, type)) :=
  holds_pure hTarget

theorem holds_typed
    {target : Target}
    {p : Resolver Ty}
    (hTarget : target.Bounded b)
    (hType : R.Holds p) :
    R.HoldsWith (fun r => r.1.Bounded b)
      (typed target p) :=
  hType.bind fun type => holds_known hTarget type

theorem holds_scopelessType (p : Position) :
    R.Holds (scopelessType p) :=
  (holds_report _ p).bind fun _ => holds_pure trivial

theorem holds_importedProperty
    {target : Target}
    (hTarget : target.Bounded b)
    (name : String)
    (p : Position) :
    R.HoldsWith (fun r => r.1.Bounded b)
      (importedProperty name target p) := by
  refine holds_names (fun z w hSame => ?_) fun z => ?_
  · unfold MemberNames.properties
    rw [hSame.members.found]
  cases z.members.properties name with
  | nil => exact holds_typed hTarget (holds_errorType _ p)
  | cons property others =>
      cases others with
      | nil =>
          refine holds_known ?_ property.resultType
          exact hTarget
      | cons other others =>
          exact holds_typed hTarget (holds_errorType _ p)

/- A name refers to the same, which is within bounds. -/
theorem holds_reference
    {around : Surroundings}
    {target : Target}
    {p : Position}
    (hAround : b.Around around)
    (hTarget : target.Bounded b)
    (hPlace : p.offset < b.offset)
    (name : String) :
    R.HoldsWith (fun r => r.1.Bounded b)
      (reference around name target p) := by
  unfold reference
  split
  · exact holds_typed hTarget (holds_scopelessType p)
  · rename_i scope hScope
    refine HoldsWith.bind
      (R.ofVisible (hAround scope hScope) hPlace name)
      fun found hFound => ?_
    cases found with
    | some id =>
        have hLess := hFound id rfl
        refine holds_typed ?_ (R.ofDefinitionType hLess p)
        rintro _ ⟨⟩
        exact hLess
    | none =>
        refine holds_names (fun z w hSame => ?_) fun z => ?_
        · dsimp only
          rw [hSame.types.named]
        cases z.types.find? name with
        | some type =>
            refine holds_known ?_ type
            exact hTarget
        | none => exact holds_importedProperty hTarget name p

------------------------------------------------------------
-- Calls and members
------------------------------------------------------------

theorem holds_callType
    (name : String)
    (callee : Ty)
    (arguments : List Ty)
    (p : Position) :
    R.Holds (callType name callee arguments p) := by
  unfold callType
  split
  · split
    · exact holds_pure trivial
    · exact holds_errorType _ p
  · exact holds_pure trivial
  · exact holds_errorType _ p

theorem holds_noFunction
    (name : String)
    (arguments : List Ty)
    (p : Position) :
    R.Holds (noFunction name arguments p) := by
  unfold noFunction
  split
  · exact holds_pure trivial
  · exact holds_errorType _ p

/- The name of a call refers to the same. -/
theorem holds_invocation
    {around : Surroundings}
    {p : Position}
    (hAround : b.Around around)
    (hPlace : p.offset < b.offset)
    (name : String)
    (arguments : List Ty)
    (target : Target) :
    R.Holds (invocation around name arguments target p) := by
  have hTyped
      {action : Resolver Ty}
      (target : Target)
      (hType : R.Holds action) :
      R.Holds (typed target action) :=
    hType.bind fun _ => holds_pure trivial
  unfold invocation
  split
  · exact hTyped target (holds_scopelessType p)
  · rename_i scope hScope
    refine HoldsWith.bind
      (R.ofVisible (hAround scope hScope) hPlace name)
      fun found hFound => ?_
    cases found with
    | some id =>
        exact Holds.bind (R.ofDefinitionType (hFound id rfl) p)
          fun callee => hTyped _
            (holds_callType name callee arguments p)
    | none =>
        refine holds_names (fun z w hSame => ?_) fun z => ?_
        · unfold MemberNames.functions
          rw [hSame.members.found]
        cases z.members.functions name arguments with
        | cons f _ => exact holds_pure trivial
        | nil =>
            exact hTyped target
              (holds_noFunction name arguments p)

theorem holds_containerOf
    (type : Ty)
    (p : Position) :
    R.Holds (containerOf type p) := by
  unfold containerOf
  split
  · exact holds_pure trivial
  · exact holds_pure trivial
  · exact (holds_errorType _ p).bind fun _ =>
      holds_pure trivial

theorem holds_useMember
    (member : Member)
    (target : Target)
    (p : Position) :
    R.Holds (useMember member target p) := by
  unfold useMember
  split
  · exact holds_pure trivial
  · exact (holds_errorType _ p).bind fun _ =>
      holds_pure trivial

theorem holds_memberCall
    (left : Ty)
    (name : String)
    (arguments : List Ty)
    (target : Target)
    (p q : Position) :
    R.Holds (memberCall left name arguments target p q) := by
  refine (holds_containerOf left p).bind fun found => ?_
  cases found with
  | error type => exact holds_pure trivial
  | ok container =>
      dsimp only
      split
      · exact holds_useMember _ target q
      · exact (holds_noFunction name arguments q).bind
          fun _ => holds_pure trivial

theorem holds_memberProperty
    (left : Ty)
    (name : String)
    (target : Target)
    (p q : Position) :
    R.Holds (memberProperty left name target p q) := by
  refine (holds_containerOf left p).bind fun found => ?_
  cases found with
  | error type => exact holds_pure trivial
  | ok container =>
      dsimp only
      split
      · exact holds_useMember _ _ q
      · exact (holds_errorType _ q).bind fun _ =>
          holds_pure trivial

------------------------------------------------------------
-- Operations and assignments
------------------------------------------------------------

theorem holds_binaryType
    (o : BinaryOperator)
    (left right : Ty)
    (p : Position) :
    R.Holds (binaryType o left right p) := by
  unfold binaryType
  split
  · exact holds_pure trivial
  · split
    · exact holds_pure trivial
    · split
      · exact holds_pure trivial
      · exact holds_errorType _ p

theorem holds_unaryType
    (o : UnaryOperator)
    (operand : Ty)
    (p : Position) :
    R.Holds (unaryType o operand p) := by
  unfold unaryType
  split
  · exact holds_pure trivial
  · exact holds_errorType _ p

theorem holds_checkTarget
    {e : Expr}
    (hNames : b.Names e.form) :
    R.Holds (checkTarget e) := by
  unfold checkTarget
  dsimp only
  split
  · rename_i id _ hForm
    rw [hForm] at hNames
    exact R.ofCheckDefinition (hNames id rfl) _
  · exact holds_pure trivial
  · exact holds_pure trivial
  · exact holds_report _ _

theorem holds_checkAssignment
    {target : Expr}
    (hNames : b.Names target.form)
    (targetType : Ty)
    (operator : AssignmentOperator)
    (valueType : Ty)
    (p : Position) :
    R.Holds
      (checkAssignment target targetType operator valueType
        p) := by
  have hStored (o : BinaryOperator) :
      R.Holds
        (binaryType o targetType valueType p >>= fun stored =>
          checkAssignable targetType stored p) :=
    (holds_binaryType o _ _ p).bind fun _ =>
      holds_checkAssignable _ _ p
  unfold checkAssignment
  dsimp only
  cases targetType.isError with
  | true =>
      cases operator.binary? with
      | none => exact holds_checkAssignable _ _ p
      | some o => exact hStored o
  | false =>
      refine (holds_checkTarget hNames).bind fun _ => ?_
      cases operator.binary? with
      | none => exact holds_checkAssignable _ _ p
      | some o => exact hStored o

theorem holds_checkBody
    (declared : Option Ty)
    (received : Ty)
    (p : Position) :
    R.Holds (checkBody declared received p) := by
  unfold checkBody
  split
  · exact holds_pure trivial
  · split
    · exact holds_checkAssignable _ received p
    · exact holds_pure trivial

theorem holds_variableType
    (name : String)
    (declared : Option Ty)
    (initial : Option (Ty × Position))
    (p : Position) :
    R.Holds (variableType name declared initial p) := by
  unfold variableType
  split
  · exact (holds_checkAssignable _ _ _).bind fun _ =>
      holds_pure trivial
  · exact holds_pure trivial
  · exact holds_pure trivial
  · exact holds_errorType _ p

------------------------------------------------------------
-- Parameters
------------------------------------------------------------

theorem holds_parameterType
    {x : Parameter}
    (hMakes : b.Makes x.definition) :
    R.Holds (parameterType x) := by
  unfold parameterType
  refine (holds_resolveDeclared x.typeExpr).bind
    fun r => ?_
  rcases r with ⟨typeExpr, declared⟩
  have hRest (type : Ty) :
      R.Holds
        (fillType x.definition type >>= fun _ =>
          pure (typeExpr, type)) :=
    Holds.bind (R.ofFillType hMakes type) fun _ =>
      holds_pure trivial
  cases declared with
  | some type => exact hRest type
  | none => exact (holds_errorType _ _).bind hRest

theorem holds_checkDefault
    {definition : DefinitionId}
    (hMakes : b.Makes definition)
    (received : Ty)
    (p q : Position) :
    R.Holds (checkDefault definition received p q) :=
  Holds.bind (R.ofDefinitionType hMakes.2 p) fun _ =>
    holds_checkAssignable _ received q

------------------------------------------------------------
-- Imports
------------------------------------------------------------

/- A name is given to a type by changing names only. -/
theorem importType_eq
    (entry : ImportEntry)
    (type : Ty) :
    importType entry type =
      get >>= fun z : ResolverState =>
        if z.types.contains entry.localName then
          report (.importRedefinition entry.localName)
            entry.span.start
        else
          modify fun w : ResolverState =>
            { w with
              types := w.types.withName entry.localName
                type } := by
  funext z
  have hDefine :
      z.types.define? entry.localName type =
        if z.types.contains entry.localName then none
        else some (z.types.withName entry.localName type) :=
    rfl
  unfold importType
  refine (outcome_bind _ _ z).trans
    (.trans ?_ (outcome_bind _ _ z).symm)
  rw [outcome_get]
  dsimp only
  rw [hDefine]
  cases z.types.contains entry.localName with
  | true => rfl
  | false => rfl

theorem holds_importType
    (entry : ImportEntry)
    (type : Ty) :
    R.Holds (importType entry type) := by
  rw [importType_eq]
  refine holds_names (fun z w hSame => ?_) fun z => ?_
  · unfold TypeNames.contains
    rw [hSame.types.named]
  split
  · exact holds_report _ _
  · exact R.ofRename
      (fun hSame => hSame.withName entry.localName type) id

theorem holds_importMembers
    (entry : ImportEntry)
    (members : List Member) :
    R.Holds (importMembers entry members) :=
  R.ofRename id fun hSame =>
    hSame.withMembers entry.localName members

theorem holds_importEntry
    (library : Library)
    (path : String)
    (entry : ImportEntry) :
    R.Holds (importEntry library path entry) := by
  unfold importEntry
  split
  · exact holds_importType entry _
  · split
    · exact holds_report _ _
    · exact holds_importMembers entry _

theorem holds_resolveImport
    (library : Library)
    (i : Import) :
    R.Holds (resolveImport library i) := by
  unfold resolveImport
  split
  · exact holds_pure trivial
  · exact (holds_forM (holds_importEntry library i.path)
      i.entries).bind fun _ => holds_pure trivial

end ResolverProperty

end SourceCheck
