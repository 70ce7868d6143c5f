import SourceCheck.Proofs.Typing.Silence

/-
  What silent uses of names, calls and operators give.

  Where nothing is reported, a name stands for something that
  the program knows, a call fits what is called, and operators
  have operands that they are made for.

  Key theorems include:
    * `certifies_reference`
    * `certifies_invocation`
    * `certifies_memberCall`
    * `certifies_memberProperty`
-/

namespace SourceCheck

open SourceCheck.Resolver

variable {y : Symbols}
variable {k : Known}
variable {P : Prop}

/- Where a report is certain, anything is certified. -/
theorem certifies_errorType_any
    {Q : Ty → Prop}
    (problem : Problem)
    (p : Position) :
    Certifies y k P [] (errorType problem p) Q :=
  (certifies_errorType problem p).imp
    fun _ _ hFalse => hFalse.elim

theorem certifies_report_any
    {Q : PUnit → Prop}
    (problem : Problem)
    (p : Position) :
    Certifies y k P [] (report problem p) Q :=
  (certifies_report problem p).imp
    fun _ _ hFalse => hFalse.elim

theorem certifies_scopelessType (p : Position) :
    Certifies y k P [] (scopelessType p)
      (fun _ => False) :=
  (certifies_report _ p).last fun _ =>
    certifies_pure fun hBoth => hBoth.2

/- The type of something is found, and so is the target. -/
theorem certifies_typed
    {p : Resolver Ty}
    {Q : Ty → Prop}
    {R : Target × Ty → Prop}
    {target : Target}
    (hType : Certifies y k P [] p Q)
    (hResult : P → ∀ t, Q t → R (target, t)) :
    Certifies y k P [] (typed target p) R :=
  hType.last fun t =>
    certifies_pure fun hBoth => hResult hBoth.1 t hBoth.2

------------------------------------------------------------
-- Names
------------------------------------------------------------

theorem certifies_importedProperty
    (name : String)
    (p : Position) :
    Certifies y k P []
      (importedProperty name .unknown p)
      (fun r =>
        (k.isErrorFree → r.2.isErrorFree) ∧
          r.1.Names y k name r.2) := by
  unfold importedProperty
  refine certifies_get fun z => ?_
  split
  · exact certifies_typed (certifies_errorType _ p)
      fun _ _ hFalse => hFalse.elim
  · rename_i m hOne
    refine certifies_pure fun ⟨_, hReady, _⟩ => ?_
    rw [hReady.members_eq] at hOne
    have hMember : m ∈ k.members.properties name := by
      rw [hOne]
      exact List.mem_singleton_self m
    have hKnown : m ∈ k.members.find name :=
      (List.mem_filter.1 hMember).1
    exact ⟨fun hFree =>
        Member.isErrorFree_resultType
          (Known.isErrorFree_members hFree hKnown),
      .inr (.inr ⟨rfl, m, rfl, hOne, rfl⟩)⟩
  · exact certifies_typed (certifies_errorType _ p)
      fun _ _ hFalse => hFalse.elim

/- A name stands for something that has the type. -/
theorem certifies_reference
    (around : Surroundings)
    (name : String)
    (p : Position) :
    Certifies y k P []
      (Resolver.reference around name .unknown p)
      (fun r =>
        (k.isErrorFree → r.2.isErrorFree) ∧
          r.1.Names y k name r.2) := by
  unfold Resolver.reference
  cases around.scope with
  | none =>
      exact certifies_typed (certifies_scopelessType p)
        fun _ _ hFalse => hFalse.elim
  | some scope =>
      unfold visible?
      simp only [bind_assoc, pure_bind]
      refine certifies_get fun z => ?_
      split
      · rename_i id _
        exact certifies_typed (certifies_definitionType id p)
          fun _ t hType =>
            ⟨hType.2, .inl ⟨rfl, id, rfl, hType.1⟩⟩
      · refine certifies_get fun w => ?_
        split
        · rename_i t hFound
          refine certifies_pure fun ⟨_, hReady, _⟩ => ?_
          have hKnown := hReady.named name t hFound
          exact ⟨fun hFree =>
              ((Known.isErrorFree_iff k).1 hFree).1 _ hKnown,
            .inr (.inl ⟨rfl, hKnown⟩)⟩
        · exact certifies_importedProperty name p

------------------------------------------------------------
-- Calls
------------------------------------------------------------

/- What is called is a function that accepts the arguments. -/
theorem certifies_callType
    (name : String)
    (callee : Ty)
    (arguments : List Ty)
    (p : Position) :
    Certifies y k P [] (callType name callee arguments p)
      (fun t =>
        callee.isErrorFree →
          t.isErrorFree ∧
            ∃ parameters,
              callee = .function parameters t ∧
                acceptsAll parameters arguments) := by
  unfold callType
  split
  · rename_i parameters result
    split
    · rename_i hAccepts
      exact certifies_pure fun _ hFree =>
        ⟨(Ty.isErrorFree_function.1 hFree).2, parameters, rfl,
          hAccepts⟩
    · exact certifies_errorType_any _ p
  · rename_i description
    refine certifies_pure fun _ hFree => ?_
    simp [Ty.isErrorFree] at hFree
  · exact certifies_errorType_any _ p

/- An argument is an error if there is no function. -/
theorem certifies_noFunction
    (name : String)
    (arguments : List Ty)
    (p : Position) :
    Certifies y k P [] (noFunction name arguments p)
      (fun _ => ∃ t ∈ arguments, t.isError) := by
  unfold noFunction
  split
  · rename_i t hFound
    exact certifies_pure fun _ =>
      ⟨t, List.mem_of_find?_eq_some hFound,
        List.find?_some hFound⟩
  · exact certifies_errorType_any _ p

theorem not_exists_isError
    {types : List Ty}
    (hFree : ∀ t ∈ types, t.isErrorFree) :
    ¬ ∃ t ∈ types, t.isError := by
  rintro ⟨t, hMember, hError⟩
  rw [Ty.isError_of_isErrorFree (hFree t hMember)] at hError
  cases hError

/- A call of a name fits what the name stands for. -/
theorem certifies_invocation
    (around : Surroundings)
    (name : String)
    (types : List Ty)
    (p : Position) :
    Certifies y k P []
      (Resolver.invocation around name types .unknown p)
      (fun r =>
        k.isErrorFree →
          (∀ t ∈ types, t.isErrorFree) →
            r.2.isErrorFree ∧
              r.1.Calls y k name types r.2) := by
  unfold Resolver.invocation
  cases around.scope with
  | none =>
      exact certifies_typed (certifies_scopelessType p)
        fun _ _ hFalse => hFalse.elim
  | some scope =>
      unfold visible?
      simp only [bind_assoc, pure_bind]
      refine certifies_get fun z => ?_
      split
      · rename_i id _
        refine (certifies_definitionType id p).last
          fun callee => ?_
        refine certifies_typed
          (certifies_callType name callee types p) ?_
        rintro ⟨_, hCallee, hClean⟩ t hCall hFree -
        rcases hCall (hClean hFree) with
          ⟨hResult, parameters, rfl, hAccepts⟩
        exact ⟨hResult,
          .inl ⟨id, parameters, rfl, hCallee, hAccepts⟩⟩
      · refine certifies_get fun w => ?_
        split
        · rename_i m others hFound
          refine certifies_pure fun ⟨_, hReady, _⟩ => ?_
          intro hFree _
          rw [hReady.members_eq] at hFound
          have hMember :
              m ∈ k.members.functions name types := by
            rw [hFound]
            exact List.mem_cons_self
          have hKnown : m ∈ k.members.find name :=
            (List.mem_filter.1 hMember).1
          exact ⟨Member.isErrorFree_resultType
              (Known.isErrorFree_members hFree hKnown),
            .inr ⟨rfl, m, rfl, hMember, rfl⟩⟩
        · exact certifies_typed
            (certifies_noFunction name types p)
            fun _ _ hError _ hTypes =>
              absurd hError (not_exists_isError hTypes)

------------------------------------------------------------
-- Members
------------------------------------------------------------

/- Members are looked up in containers. -/
theorem certifies_containerOf
    (left : Ty)
    (p : Position) :
    Certifies y k P [] (containerOf left p)
      (fun r =>
        left.isErrorFree →
          ∃ c : Container, left = c.type ∧ r = .ok c) := by
  unfold containerOf
  split
  · rename_i name isObject members
    exact certifies_pure fun _ _ =>
      ⟨⟨name, isObject, members⟩, rfl, rfl⟩
  · refine certifies_pure fun _ hFree => ?_
    simp [Ty.isErrorFree] at hFree
  · exact (certifies_errorType _ p).last fun _ =>
      certifies_pure fun hBoth => hBoth.2.elim

theorem certifies_useMember
    (m : Member)
    (target : Target)
    (p : Position) :
    Certifies y k P [] (useMember m target p)
      (fun r =>
        m.isPublic ∧
          r = ({ target with member := some m },
            m.resultType)) := by
  unfold useMember
  split
  · rename_i hPublic
    exact certifies_pure fun _ => ⟨hPublic, rfl⟩
  · exact certifies_typed (certifies_errorType _ p)
      fun _ _ hFalse => hFalse.elim

/- The call of a member is that of a public function. -/
theorem certifies_memberCall
    (left : Ty)
    (name : String)
    (types : List Ty)
    (p q : Position) :
    Certifies y k P []
      (memberCall left name types .unknown p q)
      (fun r =>
        left.isErrorFree →
          (∀ t ∈ types, t.isErrorFree) →
            r.2.isErrorFree ∧
              ∃ c : Container,
                left = c.type ∧
                  ∃ m ∈ c.members,
                    m.isPublic ∧ m.resultType = r.2 ∧
                      r.1.member = some m ∧
                        m.hasSignature name types) := by
  unfold memberCall
  refine (certifies_containerOf left p).last fun found => ?_
  cases found with
  | error t =>
      refine certifies_pure fun ⟨_, hFound⟩ hFree => ?_
      rcases hFound hFree with ⟨c, -, hOk⟩
      cases hOk
  | ok container =>
      dsimp only
      split
      · rename_i f hFunction
        refine (certifies_useMember f .unknown q).imp ?_
        rintro ⟨_, hFound⟩ r ⟨hPublic, rfl⟩ hFree -
        rcases hFound hFree with ⟨c, rfl, hOk⟩
        cases hOk
        unfold Container.function? at hFunction
        have hMember := List.mem_of_find?_eq_some hFunction
        have hSignature := List.find?_some hFunction
        exact ⟨Member.isErrorFree_resultType
            (Container.isErrorFree_of_mem hFree hMember),
          container, rfl, f, hMember, hPublic, rfl, rfl,
          hSignature⟩
      · exact certifies_typed
          (certifies_noFunction name types q)
          fun _ _ hError _ hTypes =>
            absurd hError (not_exists_isError hTypes)

/- The name of a member is that of a public property. -/
theorem certifies_memberProperty
    (left : Ty)
    (name : String)
    (p q : Position) :
    Certifies y k P []
      (memberProperty left name .unknown p q)
      (fun r =>
        left.isErrorFree →
          r.2.isErrorFree ∧
            ∃ c : Container,
              left = c.type ∧
                ∃ m ∈ c.members,
                  m.isPublic ∧ m.resultType = r.2 ∧
                    r.1.kind = some .member ∧
                      r.1.member = some m ∧
                        m.isProperty ∧ m.name = name) := by
  unfold memberProperty
  refine (certifies_containerOf left p).last fun found => ?_
  cases found with
  | error t =>
      refine certifies_pure fun ⟨_, hFound⟩ hFree => ?_
      rcases hFound hFree with ⟨c, -, hOk⟩
      cases hOk
  | ok container =>
      dsimp only
      split
      · rename_i m hProperty
        refine (certifies_useMember m _ q).imp ?_
        rintro ⟨_, hFound⟩ r ⟨hPublic, rfl⟩ hFree
        rcases hFound hFree with ⟨c, rfl, hOk⟩
        cases hOk
        have hMember := List.mem_of_find?_eq_some hProperty
        have hBoth := List.find?_some hProperty
        rw [Bool.and_eq_true, decide_eq_true_eq] at hBoth
        exact ⟨Member.isErrorFree_resultType
            (Container.isErrorFree_of_mem hFree hMember),
          container, rfl, m, hMember, hPublic, rfl, rfl, rfl,
          hBoth.1, hBoth.2⟩
      · exact certifies_typed (certifies_errorType _ q)
          fun _ _ hFalse => hFalse.elim

------------------------------------------------------------
-- Operators
------------------------------------------------------------

theorem certifies_binaryType
    (o : BinaryOperator)
    (a b : Ty)
    (p : Position) :
    Certifies y k P [] (binaryType o a b p)
      (fun t =>
        a.isErrorFree →
          b.isErrorFree → o.type? a b = some t) := by
  unfold binaryType
  split
  · rename_i hError
    refine certifies_pure fun _ hFree => ?_
    rw [Ty.isError_of_isErrorFree hFree] at hError
    cases hError
  · split
    · rename_i hError
      refine certifies_pure fun _ _ hFree => ?_
      rw [Ty.isError_of_isErrorFree hFree] at hError
      cases hError
    · split
      · rename_i t hType
        exact certifies_pure fun _ _ _ => hType
      · exact certifies_errorType_any _ p

theorem certifies_unaryType
    (o : UnaryOperator)
    (a : Ty)
    (p : Position) :
    Certifies y k P [] (unaryType o a p)
      (fun t => a.isErrorFree → t = a ∧ o.takes a) := by
  unfold unaryType
  split
  · rename_i hEither
    refine certifies_pure fun _ hFree => ⟨rfl, ?_⟩
    rw [Ty.isError_of_isErrorFree hFree,
      Bool.or_false] at hEither
    exact hEither
  · exact certifies_errorType_any _ p

------------------------------------------------------------
-- Assignments
------------------------------------------------------------

/-
  The expression looks like one that may be assigned to: what
  is accessed may still be anything with a name.
-/
def Expr.IsTarget (e : Expr) (y : Symbols) : Prop :=
  match e.form with
  | .reference _ target =>
      target.kind = some .topLevel ∨
        target.kind = some .inScope ∧
          ∃ id d,
            target.definition = some id ∧
              y.definitions[id]? = some d ∧
                d.kind ≠ .function ∧ d.isMutable
  | .access _ _ right =>
      ∃ name target, right.form = .reference name target
  | _ => False

/- A definition that is assigned to is mutable. -/
theorem certifies_checkDefinition
    (id : DefinitionId)
    (p : Position) :
    Certifies y k P [] (checkDefinition id p)
      (fun _ =>
        ∃ d,
          y.definitions[id]? = some d ∧
            d.kind ≠ .function ∧ d.isMutable) := by
  unfold checkDefinition
  refine certifies_get fun z => ?_
  dsimp only
  split
  · exact certifies_report_any _ p
  · rename_i hKind
    split
    · exact certifies_report_any _ p
    · rename_i hMutable
      refine certifies_pure fun ⟨_, _, hEnds⟩ => ?_
      have hSame :=
        congrArg (·.definitions[id]?) hEnds.untyped_eq
      simp only [Symbols.untyped, Array.getElem?_map] at hSame
      cases hFound : z.symbols.definitions[id]? with
      | none =>
          rw [hFound] at hKind
          exact absurd rfl hKind
      | some d =>
          rw [hFound, Option.getD_some] at hKind hMutable
          rw [hFound, Option.map_some] at hSame
          rcases Option.map_eq_some_iff.1 hSame.symm with
            ⟨e, hOther, hEq⟩
          cases e
          cases d
          cases hEq
          exact ⟨_, hOther, hKind, by simpa using hMutable⟩

/- The target of a silent assignment may be assigned to. -/
theorem certifies_checkTarget (e : Expr) :
    Certifies y k P [] (checkTarget e)
      (fun _ => e.IsTarget y) := by
  unfold checkTarget Expr.IsTarget
  dsimp only
  split
  · rename_i name id member hForm
    rw [hForm]
    exact (certifies_checkDefinition id _).imp
      fun _ _ ⟨d, hFound, hRest⟩ =>
        .inr ⟨rfl, id, d, rfl, hFound, hRest⟩
  · rename_i hForm
    rw [hForm]
    exact certifies_pure fun _ => .inl rfl
  · rename_i hForm
    rw [hForm]
    exact certifies_pure fun _ => ⟨_, _, rfl⟩
  · exact certifies_report_any _ _

end SourceCheck
