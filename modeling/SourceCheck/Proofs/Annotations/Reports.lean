import SourceCheck.Proofs.Typing.Silence
import SourceCheck.Resolution.Expression

/-
  What resolvers report, and where.

  All that is done with a name, a call, an operation or an
  assignment reads the state, and changes nothing in it but
  the reports: more of them may be added.  They stand where
  the resolver was told to report, and none of them says that
  a type is unknown.

  Key definitions include:
    * `Problem.isUnknownType`
    * `ReportsAt`

  Key theorems include:
    * `ReportsAt.bind`
    * `reportsAt_reference`
    * `reportsAt_memberCall`
    * `reportsAt_checkAssignment`
-/

namespace SourceCheck

open SourceCheck.Resolver

------------------------------------------------------------
-- Reports
------------------------------------------------------------

/- The problem is that a type is unknown. -/
def Problem.isUnknownType : Problem → Bool
  | .unknownType _ => true
  | _ => false

/-
  The resolver changes nothing but the reports.  It adds some
  at such places, but none of unknown types.
-/
def ReportsAt
    {α : Type}
    (S : Position → Prop)
    (p : Resolver α) :
    Prop :=
  ∀ z,
    ∃ ds : List Diagnostic,
      (p.outcome z).2 =
          { z with diagnostics := z.diagnostics ++ ds } ∧
        ∀ d ∈ ds,
          S d.position ∧ d.problem.isUnknownType = false

variable {α β : Type}
variable {S : Position → Prop}

theorem reportsAt_pure (a : α) :
    ReportsAt S (pure a : Resolver α) :=
  fun z => ⟨[], by rw [List.append_nil]; rfl, nofun⟩

theorem ReportsAt.bind
    {p : Resolver α}
    {f : α → Resolver β}
    (hFirst : ReportsAt S p)
    (hRest : ∀ a, ReportsAt S (f a)) :
    ReportsAt S (p >>= f) := by
  intro z
  rcases hFirst z with ⟨ds, hState, hPlaces⟩
  rcases hRest (p.outcome z).1 (p.outcome z).2 with
    ⟨es, hLater, hOthers⟩
  refine ⟨ds ++ es, ?_,
    List.forall_mem_append.2 ⟨hPlaces, hOthers⟩⟩
  rw [outcome_bind, hLater, hState, List.append_assoc]

/- The state may be read. -/
theorem reportsAt_get
    {f : ResolverState → Resolver β}
    (hRest : ∀ z, ReportsAt S (f z)) :
    ReportsAt S (get >>= f) :=
  fun z => hRest z z

theorem reportsAt_report
    {problem : Problem}
    {p : Position}
    (hOther : problem.isUnknownType = false)
    (hPlace : S p) :
    ReportsAt S (report problem p) :=
  fun _ =>
    ⟨[⟨problem, p⟩], rfl,
      List.forall_mem_singleton.2 ⟨hPlace, hOther⟩⟩

theorem reportsAt_errorType
    {problem : Problem}
    {p : Position}
    (hOther : problem.isUnknownType = false)
    (hPlace : S p) :
    ReportsAt S (errorType problem p) :=
  (reportsAt_report hOther hPlace).bind fun _ =>
    reportsAt_pure _

theorem reportsAt_checkAssignable
    {p : Position}
    (hPlace : S p)
    (expected received : Ty) :
    ReportsAt S (checkAssignable expected received p) := by
  unfold checkAssignable
  split
  · exact reportsAt_report rfl hPlace
  · exact reportsAt_pure _

theorem reportsAt_definitionType
    {p : Position}
    (hPlace : S p)
    (id : DefinitionId) :
    ReportsAt S (definitionType id p) := by
  refine reportsAt_get fun z => ?_
  dsimp only
  split
  · exact reportsAt_pure _
  · exact reportsAt_errorType rfl hPlace

------------------------------------------------------------
-- Names
------------------------------------------------------------

theorem reportsAt_typed
    {p : Resolver Ty}
    (hType : ReportsAt S p)
    (target : Target) :
    ReportsAt S (typed target p) :=
  hType.bind fun _ => reportsAt_pure _

theorem reportsAt_scopelessType
    {p : Position}
    (hPlace : S p) :
    ReportsAt S (scopelessType p) :=
  (reportsAt_report rfl hPlace).bind fun _ =>
    reportsAt_pure _

theorem reportsAt_visible?
    (scope : ScopeId)
    (name : String)
    (p : Position) :
    ReportsAt S (visible? scope name p) :=
  reportsAt_get fun _ => reportsAt_pure _

theorem reportsAt_importedProperty
    {p : Position}
    (hPlace : S p)
    (name : String)
    (target : Target) :
    ReportsAt S (importedProperty name target p) := by
  refine reportsAt_get fun z => ?_
  dsimp only
  split
  · exact reportsAt_typed (reportsAt_errorType rfl hPlace) _
  · exact reportsAt_pure _
  · exact reportsAt_typed (reportsAt_errorType rfl hPlace) _

theorem reportsAt_reference
    {p : Position}
    (hPlace : S p)
    (around : Surroundings)
    (name : String)
    (target : Target) :
    ReportsAt S (reference around name target p) := by
  unfold reference
  split
  · exact reportsAt_typed (reportsAt_scopelessType hPlace) _
  · rename_i scope hScope
    refine (reportsAt_visible? scope name p).bind
      fun found => ?_
    cases found with
    | some id =>
        exact reportsAt_typed
          (reportsAt_definitionType hPlace id) _
    | none =>
        refine reportsAt_get fun z => ?_
        cases z.types.find? name with
        | some type => exact reportsAt_pure _
        | none =>
            exact reportsAt_importedProperty hPlace name target

------------------------------------------------------------
-- Calls and members
------------------------------------------------------------

theorem reportsAt_callType
    {p : Position}
    (hPlace : S p)
    (name : String)
    (callee : Ty)
    (arguments : List Ty) :
    ReportsAt S (callType name callee arguments p) := by
  unfold callType
  split
  · split
    · exact reportsAt_pure _
    · exact reportsAt_errorType rfl hPlace
  · exact reportsAt_pure _
  · exact reportsAt_errorType rfl hPlace

theorem reportsAt_noFunction
    {p : Position}
    (hPlace : S p)
    (name : String)
    (arguments : List Ty) :
    ReportsAt S (noFunction name arguments p) := by
  unfold noFunction
  split
  · exact reportsAt_pure _
  · exact reportsAt_errorType rfl hPlace

theorem reportsAt_invocation
    {p : Position}
    (hPlace : S p)
    (around : Surroundings)
    (name : String)
    (arguments : List Ty)
    (target : Target) :
    ReportsAt S
      (invocation around name arguments target p) := by
  unfold invocation
  split
  · exact reportsAt_typed (reportsAt_scopelessType hPlace) _
  · rename_i scope hScope
    refine (reportsAt_visible? scope name p).bind
      fun found => ?_
    cases found with
    | some id =>
        exact (reportsAt_definitionType hPlace id).bind
          fun callee => reportsAt_typed
            (reportsAt_callType hPlace name callee arguments) _
    | none =>
        refine reportsAt_get fun z => ?_
        cases z.members.functions name arguments with
        | cons f _ => exact reportsAt_pure _
        | nil =>
            exact reportsAt_typed
              (reportsAt_noFunction hPlace name arguments) _

theorem reportsAt_containerOf
    {p : Position}
    (hPlace : S p)
    (type : Ty) :
    ReportsAt S (containerOf type p) := by
  unfold containerOf
  split
  · exact reportsAt_pure _
  · exact reportsAt_pure _
  · exact (reportsAt_errorType rfl hPlace).bind fun _ =>
      reportsAt_pure _

theorem reportsAt_useMember
    {p : Position}
    (hPlace : S p)
    (member : Member)
    (target : Target) :
    ReportsAt S (useMember member target p) := by
  unfold useMember
  split
  · exact reportsAt_pure _
  · exact reportsAt_typed (reportsAt_errorType rfl hPlace) _

/- A call reports at its left side, or at the name. -/
theorem reportsAt_memberCall
    {p q : Position}
    (hLeft : S p)
    (hName : S q)
    (left : Ty)
    (name : String)
    (arguments : List Ty)
    (target : Target) :
    ReportsAt S
      (memberCall left name arguments target p q) := by
  refine (reportsAt_containerOf hLeft left).bind
    fun found => ?_
  cases found with
  | error type => exact reportsAt_pure _
  | ok container =>
      dsimp only
      split
      · exact reportsAt_useMember hName _ target
      · exact reportsAt_typed
          (reportsAt_noFunction hName name arguments) _

theorem reportsAt_memberProperty
    {p q : Position}
    (hLeft : S p)
    (hName : S q)
    (left : Ty)
    (name : String)
    (target : Target) :
    ReportsAt S (memberProperty left name target p q) := by
  refine (reportsAt_containerOf hLeft left).bind
    fun found => ?_
  cases found with
  | error type => exact reportsAt_pure _
  | ok container =>
      dsimp only
      split
      · exact reportsAt_useMember hName _ _
      · exact reportsAt_typed
          (reportsAt_errorType rfl hName) _

------------------------------------------------------------
-- Operations and assignments
------------------------------------------------------------

theorem reportsAt_binaryType
    {p : Position}
    (hPlace : S p)
    (o : BinaryOperator)
    (left right : Ty) :
    ReportsAt S (binaryType o left right p) := by
  unfold binaryType
  split
  · exact reportsAt_pure _
  · split
    · exact reportsAt_pure _
    · split
      · exact reportsAt_pure _
      · exact reportsAt_errorType rfl hPlace

theorem reportsAt_unaryType
    {p : Position}
    (hPlace : S p)
    (o : UnaryOperator)
    (operand : Ty) :
    ReportsAt S (unaryType o operand p) := by
  unfold unaryType
  split
  · exact reportsAt_pure _
  · exact reportsAt_errorType rfl hPlace

theorem reportsAt_checkDefinition
    {p : Position}
    (hPlace : S p)
    (id : DefinitionId) :
    ReportsAt S (checkDefinition id p) := by
  refine reportsAt_get fun z => ?_
  dsimp only
  split
  · exact reportsAt_report rfl hPlace
  · split
    · exact reportsAt_report rfl hPlace
    · exact reportsAt_pure _

theorem reportsAt_checkTarget
    {e : Expr}
    (hPlace : S e.span.start) :
    ReportsAt S (checkTarget e) := by
  unfold checkTarget
  dsimp only
  split
  · exact reportsAt_checkDefinition hPlace _
  · exact reportsAt_pure _
  · exact reportsAt_pure _
  · exact reportsAt_report rfl hPlace

/- An assignment reports at its target, or at its value. -/
theorem reportsAt_checkAssignment
    {target : Expr}
    {p : Position}
    (hTarget : S target.span.start)
    (hPlace : S p)
    (targetType : Ty)
    (operator : AssignmentOperator)
    (valueType : Ty) :
    ReportsAt S
      (checkAssignment target targetType operator valueType
        p) := by
  have hStored (o : BinaryOperator) :
      ReportsAt S
        (binaryType o targetType valueType p >>= fun stored =>
          checkAssignable targetType stored p) :=
    (reportsAt_binaryType hPlace o _ _).bind fun _ =>
      reportsAt_checkAssignable hPlace _ _
  unfold checkAssignment
  dsimp only
  cases targetType.isError with
  | true =>
      cases operator.binary? with
      | none => exact reportsAt_checkAssignable hPlace _ _
      | some o => exact hStored o
  | false =>
      refine (reportsAt_checkTarget hTarget).bind fun _ => ?_
      cases operator.binary? with
      | none => exact reportsAt_checkAssignable hPlace _ _
      | some o => exact hStored o

------------------------------------------------------------
-- Bodies, defaults and variables
------------------------------------------------------------

theorem reportsAt_checkBody
    {p : Position}
    (hPlace : S p)
    (declared : Option Ty)
    (received : Ty) :
    ReportsAt S (checkBody declared received p) := by
  unfold checkBody
  split
  · exact reportsAt_pure _
  · split
    · exact reportsAt_checkAssignable hPlace _ received
    · exact reportsAt_pure _

/- A default reports at its parameter, or at its value. -/
theorem reportsAt_checkDefault
    {p q : Position}
    (hParameter : S p)
    (hValue : S q)
    (definition : DefinitionId)
    (received : Ty) :
    ReportsAt S (checkDefault definition received p q) :=
  (reportsAt_definitionType hParameter definition).bind
    fun _ => reportsAt_checkAssignable hValue _ received

/- A variable reports where it is, or at its value. -/
theorem reportsAt_variableType
    {p : Position}
    {initial : Option (Ty × Position)}
    (hPlace : S p)
    (hValue : ∀ x, initial = some x → S x.2)
    (name : String)
    (declared : Option Ty) :
    ReportsAt S (variableType name declared initial p) := by
  unfold variableType
  split
  · rename_i type received q
    exact (reportsAt_checkAssignable (hValue _ rfl) type
      received).bind fun _ => reportsAt_pure _
  · exact reportsAt_pure _
  · exact reportsAt_pure _
  · exact reportsAt_errorType rfl hPlace

end SourceCheck
