import SourceCheck.Proofs.Resolution.Declaring
import SourceCheck.Proofs.Typing.Rules

/-
  Resolvers that report nothing.

  A resolver certifies a property of its result if the result
  has the property whenever nothing was reported.  Since
  reports are never taken back, a run without reports is made
  of runs without reports, and the properties of all of them
  are known in the end.

  Key definitions include:
    * `Growth`
    * `Ready`
    * `Awaits`
    * `Ends`
    * `Certifies`

  Key theorems include:
    * `Certifies.bind`
    * `certifies_mapM`
    * `certifies_fillType`
-/

namespace SourceCheck

open SourceCheck.Resolver

------------------------------------------------------------
-- States
------------------------------------------------------------

/-
  Types were given to some of the definitions, to none that
  had one, and more may have been reported.
-/
structure Growth
    (ids : List DefinitionId)
    (z w : ResolverState) :
    Prop where
  untyped_eq : w.symbols.untyped = z.symbols.untyped
  keeps :
    ∀ id t,
      z.symbols.type? id = some t →
        w.symbols.type? id = some t
  others :
    ∀ id,
      id ∉ ids → w.symbols.type? id = z.symbols.type? id
  named_eq : w.types.named = z.types.named
  members_eq : w.members = z.members
  reports : z.diagnostics <+: w.diagnostics

namespace Growth

variable {xs ys : List DefinitionId}
variable {z w v : ResolverState}

theorem refl (xs : List DefinitionId) (z : ResolverState) :
    Growth xs z z :=
  ⟨rfl, fun _ _ => id, fun _ _ => rfl, rfl, rfl,
    List.prefix_rfl⟩

theorem trans
    (hFirst : Growth xs z w)
    (hSecond : Growth ys w v) :
    Growth (xs ++ ys) z v where
  untyped_eq :=
    hSecond.untyped_eq.trans hFirst.untyped_eq
  keeps id t hType :=
    hSecond.keeps id t (hFirst.keeps id t hType)
  others id hNot := by
    rw [List.mem_append, not_or] at hNot
    exact (hSecond.others id hNot.2).trans
      (hFirst.others id hNot.1)
  named_eq := hSecond.named_eq.trans hFirst.named_eq
  members_eq := hSecond.members_eq.trans hFirst.members_eq
  reports := hFirst.reports.trans hSecond.reports

/- There are as many definitions as before. -/
theorem size_eq (hGrowth : Growth xs z w) :
    w.symbols.definitions.size =
      z.symbols.definitions.size := by
  have hSame :=
    congrArg (·.definitions.size) hGrowth.untyped_eq
  simpa [Symbols.untyped] using hSame

end Growth

/-
  The program knows no more than it may.  If there are no
  errors in that, then there are none in what is remembered
  and in the types of definitions.
-/
structure Ready (k : Known) (z : ResolverState) : Prop where
  named :
    ∀ name t,
      z.types.find? name = some t → (name, t) ∈ k.types
  members_eq : z.members = k.members
  written :
    k.isErrorFree →
      ∀ text, SlotErrorFree (z.types.findWritten? text)
  definitions : k.isErrorFree → z.symbols.IsErrorFree

/- The definitions are different, and none has a type. -/
structure Awaits
    (ids : List DefinitionId)
    (z : ResolverState) :
    Prop where
  nodup : ids.Nodup
  lt_size : ∀ id ∈ ids, id < z.symbols.definitions.size
  untyped : ∀ id ∈ ids, z.symbols.type? id = none

namespace Awaits

variable {xs ys : List DefinitionId}
variable {z w : ResolverState}

theorem first (hAwaits : Awaits (xs ++ ys) z) :
    Awaits xs z where
  nodup := (List.nodup_append.1 hAwaits.nodup).1
  lt_size id hMember :=
    hAwaits.lt_size id (List.mem_append_left _ hMember)
  untyped id hMember :=
    hAwaits.untyped id (List.mem_append_left _ hMember)

/- The rest still has no types after the first walk. -/
theorem rest
    (hAwaits : Awaits (xs ++ ys) z)
    (hGrowth : Growth xs z w) :
    Awaits ys w where
  nodup := (List.nodup_append.1 hAwaits.nodup).2.1
  lt_size id hMember := by
    rw [hGrowth.size_eq]
    exact hAwaits.lt_size id
      (List.mem_append_right _ hMember)
  untyped id hMember := by
    have hApart := (List.nodup_append.1 hAwaits.nodup).2.2
    rw [hGrowth.others id fun hFirst =>
      hApart id hFirst id hMember rfl]
    exact hAwaits.untyped id
      (List.mem_append_right _ hMember)

end Awaits

/-
  Nothing was reported, and the symbols lead to the given
  ones, where more definitions may have types.
-/
structure Ends (y : Symbols) (w : ResolverState) : Prop where
  silent : w.diagnostics = []
  untyped_eq : w.symbols.untyped = y.untyped
  keeps :
    ∀ id t,
      w.symbols.type? id = some t → y.type? id = some t

/- If a run ends so, then so does its first part. -/
theorem Ends.before
    {y : Symbols}
    {ids : List DefinitionId}
    {z w : ResolverState}
    (hEnds : Ends y w)
    (hGrowth : Growth ids z w) :
    Ends y z where
  silent := by
    have hReports := hGrowth.reports
    rw [hEnds.silent] at hReports
    exact List.prefix_nil.1 hReports
  untyped_eq :=
    hGrowth.untyped_eq.symm.trans hEnds.untyped_eq
  keeps id t hType :=
    hEnds.keeps id t (hGrowth.keeps id t hType)

------------------------------------------------------------
-- Certificates
------------------------------------------------------------

variable {α β : Type}
variable {y : Symbols}
variable {k : Known}
variable {P : Prop}
variable {xs ys : List DefinitionId}

/-
  The resolver gives types only to the definitions.  Under
  the assumption, if they await their types and nothing is
  reported, the result has the property.
-/
structure Certifies
    (y : Symbols)
    (k : Known)
    (P : Prop)
    (ids : List DefinitionId)
    (p : Resolver α)
    (Q : α → Prop) :
    Prop where
  grows : ∀ z, Growth ids z (p.outcome z).2
  certified :
    P →
      ∀ z,
        Ready k z →
          Awaits ids z →
            Ends y (p.outcome z).2 →
              Ready k (p.outcome z).2 ∧ Q (p.outcome z).1

section Certifies

variable {p : Resolver α}
variable {f : α → Resolver β}
variable {Q : α → Prop}
variable {R : β → Prop}

theorem certifies_pure
    {a : α}
    (hResult : P → Q a) :
    Certifies y k P [] (pure a) Q where
  grows z := .refl [] z
  certified hAssumed _ hReady _ _ :=
    ⟨hReady, hResult hAssumed⟩

/-
  One walk after another: what the first one certifies may be
  assumed for the second one.
-/
theorem Certifies.bind
    (hFirst : Certifies y k P xs p Q)
    (hRest : ∀ a, Certifies y k (P ∧ Q a) ys (f a) R) :
    Certifies y k P (xs ++ ys) (p >>= f) R where
  grows z := by
    rw [outcome_bind]
    exact (hFirst.grows z).trans ((hRest _).grows _)
  certified hAssumed z hReady hAwaits hEnds := by
    rw [outcome_bind] at hEnds ⊢
    have hGrowth := hFirst.grows z
    have hMiddle := hEnds.before ((hRest _).grows _)
    rcases hFirst.certified hAssumed z hReady hAwaits.first
        hMiddle with ⟨hReady', hResult⟩
    exact (hRest _).certified ⟨hAssumed, hResult⟩ _ hReady'
      (hAwaits.rest hGrowth) hEnds

/- The first walk gives no types to definitions. -/
theorem Certifies.next
    (hFirst : Certifies y k P [] p Q)
    (hRest : ∀ a, Certifies y k (P ∧ Q a) ys (f a) R) :
    Certifies y k P ys (p >>= f) R :=
  hFirst.bind hRest

/- No definition is left for the second walk. -/
theorem Certifies.last
    (hFirst : Certifies y k P xs p Q)
    (hRest : ∀ a, Certifies y k (P ∧ Q a) [] (f a) R) :
    Certifies y k P xs (p >>= f) R := by
  have hBoth := hFirst.bind hRest
  rw [List.append_nil] at hBoth
  exact hBoth

theorem Certifies.imp
    {T : α → Prop}
    (hCertifies : Certifies y k P xs p Q)
    (hImp : P → ∀ a, Q a → T a) :
    Certifies y k P xs p T where
  grows := hCertifies.grows
  certified hAssumed z hReady hAwaits hEnds := by
    rcases hCertifies.certified hAssumed z hReady hAwaits
        hEnds with ⟨hReady', hResult⟩
    exact ⟨hReady', hImp hAssumed _ hResult⟩

/- Less has to be assumed than is. -/
theorem Certifies.under
    {O : Prop}
    (hCertifies : Certifies y k O xs p Q)
    (hImp : P → O) :
    Certifies y k P xs p Q where
  grows := hCertifies.grows
  certified hAssumed :=
    hCertifies.certified (hImp hAssumed)

theorem Certifies.anyway
    (hCertifies : Certifies y k True xs p Q) :
    Certifies y k P xs p Q :=
  hCertifies.under fun _ => trivial

/- More definitions may await their types. -/
theorem Certifies.widen
    (hCertifies : Certifies y k P [] p Q)
    (xs : List DefinitionId) :
    Certifies y k P xs p Q where
  grows z :=
    have hGrowth := hCertifies.grows z
    { hGrowth with
      others := fun id _ => hGrowth.others id List.not_mem_nil }
  certified hAssumed z hReady _ hEnds :=
    hCertifies.certified hAssumed z hReady
      ⟨List.nodup_nil, nofun, nofun⟩ hEnds

/- What is read of the state may be assumed of it. -/
theorem certifies_get
    {f : ResolverState → Resolver β}
    (hRest :
      ∀ z,
        Certifies y k (P ∧ Ready k z ∧ Ends y z) [] (f z)
          R) :
    Certifies y k P [] (get >>= f) R where
  grows z := (hRest z).grows z
  certified hAssumed z hReady hAwaits hEnds :=
    have hBefore := hEnds.before ((hRest z).grows z)
    (hRest z).certified ⟨hAssumed, hReady, hBefore⟩ z hReady
      hAwaits hEnds

/- Each result of a walk over a list belongs to a part. -/
theorem exists_of_mem_right
    {S : α → β → Prop}
    {as : List α}
    {bs : List β}
    (hAll : List.Forall₂ S as bs) :
    ∀ b ∈ bs, ∃ a ∈ as, S a b := by
  induction hAll with
  | nil => exact nofun
  | cons hFirst _ ih =>
      refine List.forall_mem_cons.2
        ⟨⟨_, List.mem_cons_self, hFirst⟩, ?_⟩
      intro b hMember
      rcases ih b hMember with ⟨a, hOther, hBoth⟩
      exact ⟨a, List.mem_cons_of_mem _ hOther, hBoth⟩

/- Walks over the parts of a list, one by one. -/
theorem certifies_mapM
    {as : List α}
    {g : α → Resolver β}
    {ids : α → List DefinitionId}
    {S : α → β → Prop}
    (hEach :
      ∀ a ∈ as, Certifies y k P (ids a) (g a) (S a)) :
    Certifies y k P (as.flatMap ids) (as.mapM g)
      (List.Forall₂ S as) := by
  induction as with
  | nil => exact certifies_pure fun _ => .nil
  | cons a as ih =>
      rw [List.mapM_cons, List.flatMap_cons]
      refine (hEach a List.mem_cons_self).bind fun b => ?_
      have hOthers :=
        ih fun c hMember =>
          hEach c (List.mem_cons_of_mem _ hMember)
      exact (hOthers.under And.left).last fun bs =>
        certifies_pure fun hAll => .cons hAll.1.2 hAll.2

end Certifies

------------------------------------------------------------
-- Reports
------------------------------------------------------------

/- A report ends silence. -/
theorem certifies_report (problem : Problem) (p : Position) :
    Certifies y k P [] (report problem p) (fun _ => False) where
  grows z :=
    ⟨rfl, fun _ _ => id, fun _ _ => rfl, rfl, rfl,
      List.prefix_append _ _⟩
  certified _ z _ _ hEnds := by
    have hSilent := hEnds.silent
    unfold report at hSilent
    rw [outcome_modify] at hSilent
    exact absurd hSilent (by simp)

theorem certifies_errorType
    (problem : Problem)
    (p : Position) :
    Certifies y k P [] (errorType problem p)
      (fun _ => False) :=
  (certifies_report problem p).last fun _ =>
    certifies_pure fun hBoth => hBoth.2

theorem certifies_checkAssignable
    (expected received : Ty)
    (p : Position) :
    Certifies y k P [] (checkAssignable expected received p)
      (fun _ => expected.accepts received) := by
  unfold checkAssignable
  cases hAccepts : expected.accepts received with
  | false =>
      exact (certifies_report _ p).imp
        fun _ _ hFalse => hFalse.elim
  | true => exact certifies_pure fun _ => rfl

------------------------------------------------------------
-- Types of definitions
------------------------------------------------------------

theorem certifies_definitionType
    (id : DefinitionId)
    (p : Position) :
    Certifies y k P [] (definitionType id p)
      (fun t =>
        y.type? id = some t ∧
          (k.isErrorFree → t.isErrorFree)) := by
  unfold definitionType
  refine certifies_get fun z => ?_
  dsimp only
  cases hType : z.symbols.type? id with
  | none =>
      exact (certifies_errorType _ p).imp
        fun _ _ hFalse => hFalse.elim
  | some t =>
      exact certifies_pure fun ⟨_, hReady, hEnds⟩ =>
        ⟨hEnds.keeps id t hType,
          fun hFree => hReady.definitions hFree id t hType⟩

/- A definition with a type keeps it. -/
theorem type?_fillType_of_some
    {y : Symbols}
    {id other : DefinitionId}
    {t : Ty}
    (hType : y.type? other = some t)
    (type : Ty) :
    (y.fillType id type).type? other = some t := by
  by_cases hSame : other = id
  · subst hSame
    unfold Symbols.type? at hType
    unfold Symbols.type? Symbols.fillType
    rw [Array.getElem?_modify, if_pos rfl]
    cases hFound : y.definitions[other]? with
    | none =>
        rw [hFound] at hType
        cases hType
    | some d =>
        rw [hFound, Option.bind_some] at hType
        simp [hType]
  · rw [Symbols.type?_fillType_of_ne hSame]
    exact hType

/- A definition without a type gets the one it is given. -/
theorem type?_fillType_of_none
    {y : Symbols}
    {id : DefinitionId}
    (hExists : id < y.definitions.size)
    (hNone : y.type? id = none)
    (type : Ty) :
    (y.fillType id type).type? id = some type := by
  unfold Symbols.type? at hNone
  unfold Symbols.type? Symbols.fillType
  rw [Array.getElem?_eq_getElem hExists,
    Option.bind_some] at hNone
  rw [Array.getElem?_modify, if_pos rfl,
    Array.getElem?_eq_getElem hExists]
  simp [hNone]

theorem certifies_fillType
    {type : Ty}
    (id : DefinitionId)
    (hFree : P → k.isErrorFree → type.isErrorFree) :
    Certifies y k P [id] (fillType id type)
      (fun _ => y.type? id = some type) where
  grows z :=
    ⟨Symbols.untyped_fillType _ _ _,
      fun _ _ hType => type?_fillType_of_some hType type,
      fun other hNot =>
        Symbols.type?_fillType_of_ne
          (fun hSame => hNot (List.mem_singleton.2 hSame)) type,
      rfl, rfl, List.prefix_rfl⟩
  certified hAssumed z hReady hAwaits hEnds := by
    have hMember : id ∈ [id] := List.mem_singleton_self id
    have hFilled :
        (z.symbols.fillType id type).type? id = some type :=
      type?_fillType_of_none (hAwaits.lt_size id hMember)
        (hAwaits.untyped id hMember) type
    refine ⟨⟨hReady.named, hReady.members_eq,
      hReady.written, ?_⟩, hEnds.keeps id type hFilled⟩
    intro hKnown other t hType
    by_cases hSame : other = id
    · subst hSame
      have hEq := hFilled.symm.trans hType
      cases hEq
      exact hFree hAssumed hKnown
    · have hOld :=
        (Symbols.type?_fillType_of_ne hSame type).symm.trans
          hType
      exact hReady.definitions hKnown other t hOld

theorem outcome_isResolved_bind
    (id : DefinitionId)
    (f : Bool → Resolver β)
    (z : ResolverState) :
    (isResolved id >>= f).outcome z =
      (f (z.symbols.type? id).isSome).outcome z :=
  rfl

/- A definition that awaits its type has none yet. -/
theorem certifies_isResolved
    {id : DefinitionId}
    {f : Bool → Resolver β}
    {R : β → Prop}
    (hMember : id ∈ xs)
    (hKnown : ∀ z, Growth xs z ((f true).outcome z).2)
    (hRest : Certifies y k P xs (f false) R) :
    Certifies y k P xs (isResolved id >>= f) R where
  grows z := by
    rw [outcome_isResolved_bind]
    cases (z.symbols.type? id).isSome with
    | true => exact hKnown z
    | false => exact hRest.grows z
  certified hAssumed z hReady hAwaits hEnds := by
    rw [outcome_isResolved_bind,
      hAwaits.untyped id hMember] at hEnds ⊢
    exact hRest.certified hAssumed z hReady hAwaits hEnds

end SourceCheck
