import SourceCheck.Proofs.Annotations.Mentions
import SourceCheck.Proofs.Annotations.Texts

/-
  What is remembered of written types.

  A state records the written types that were resolved so
  far if what it remembers for a text is the type that is
  evaluated for it, if the names that it remembers are those
  that were mentioned, and if each unknown one of them was
  reported where it was mentioned first.  Walks keep such
  records: they go on with what they mention.

  Key definitions include:
    * `ResolverState.Records`
    * `Traces`
    * `NodeRules.evaluated`

  Key theorems include:
    * `ResolverState.Records.remember_name`
    * `Traces.bind`
    * `traces_namedType`
    * `traces_resolveTypeExpr`
-/

namespace SourceCheck

open SourceCheck.Resolver

variable {S : Position → Prop}
variable {known : String → Option Ty}

------------------------------------------------------------
-- Records
------------------------------------------------------------

/-
  The state records the names in written types that were met,
  where the given types are known.  All reports stand at such
  places.
-/
structure ResolverState.Records
    (S : Position → Prop)
    (known : String → Option Ty)
    (met : List Mention)
    (z : ResolverState) :
    Prop where
  named : ∀ name, z.types.find? name = known name
  sound :
    ∀ f : TypeForm,
      f.IsReadable →
        ∀ t,
          z.types.findWritten? f.text = some t →
            t = f.evaluate known
  names :
    ∀ name,
      IsTypeName name →
        ((z.types.findWritten? name).isSome ↔
          name ∈ met.map (·.name))
  unknown :
    z.diagnostics.filter (·.problem.isUnknownType) =
      unknownTypes known met
  places : ∀ d ∈ z.diagnostics, S d.position

namespace ResolverState.Records

variable {met : List Mention}
variable {z : ResolverState}

/- Other reports do not matter. -/
theorem report
    (hRecords : z.Records S known met)
    {ds : List Diagnostic}
    (hReports :
      ∀ d ∈ ds,
        S d.position ∧ d.problem.isUnknownType = false) :
    ResolverState.Records S known met
      { z with diagnostics := z.diagnostics ++ ds } where
  named := hRecords.named
  sound := hRecords.sound
  names := hRecords.names
  unknown := by
    have hOthers :
        ds.filter (·.problem.isUnknownType) = [] :=
      List.filter_eq_nil_iff.2 fun d hMember =>
        ne_true_of_eq_false (hReports d hMember).2
    rw [List.filter_append, hOthers, List.append_nil]
    exact hRecords.unknown
  places :=
    List.forall_mem_append.2
      ⟨hRecords.places,
        fun d hMember => (hReports d hMember).1⟩

/- Types of definitions do not matter. -/
theorem symbols
    (hRecords : z.Records S known met)
    (y : Symbols) :
    ResolverState.Records S known met
      { z with symbols := y } :=
  ⟨hRecords.named, hRecords.sound, hRecords.names,
    hRecords.unknown, hRecords.places⟩

/- The types of other texts are remembered as before. -/
theorem sound_remember
    (hRecords : z.Records S known met)
    {f : TypeForm}
    (hReadable : f.IsReadable)
    {g : TypeForm}
    (hOther : g.IsReadable)
    {t : Ty}
    (hFound :
      (z.types.remember f.text
          (f.evaluate known)).findWritten? g.text =
        some t) :
    t = g.evaluate known := by
  rw [TypeNames.findWritten?_remember] at hFound
  split at hFound
  · rename_i hText
    cases hFound
    exact TypeForm.evaluate_of_text known hReadable hOther
      hText.symm
  · exact hRecords.sound g hOther t hFound

/- The type of a join may be remembered. -/
theorem remember_join
    (hRecords : z.Records S known met)
    {f : TypeForm}
    (hReadable : f.IsReadable)
    (hJoin : ¬IsTypeName f.text) :
    ResolverState.Records S known met
      { z with
        types :=
          z.types.remember f.text (f.evaluate known) } where
  named := hRecords.named
  sound g hOther t := hRecords.sound_remember hReadable hOther
  names name hName := by
    have hApart : name ≠ f.text := by
      rintro rfl
      exact hJoin hName
    rw [TypeNames.findWritten?_remember, if_neg hApart]
    exact hRecords.names name hName
  unknown := hRecords.unknown
  places := hRecords.places

/- A name that is remembered was mentioned before. -/
theorem mention_old
    (hRecords : z.Records S known met)
    {m : Mention}
    (hOld : m.name ∈ met.map (·.name)) :
    z.Records S known (met ++ [m]) where
  named := hRecords.named
  sound := hRecords.sound
  names name hName := by
    rw [hRecords.names name hName, List.map_append,
      List.mem_append]
    refine ⟨.inl, ?_⟩
    rintro (hFound | hSame)
    · exact hFound
    · cases List.mem_singleton.1 hSame
      exact hOld
  unknown := by
    rw [unknownTypes_concat_old known hOld]
    exact hRecords.unknown
  places := hRecords.places

/-
  The type of a new name is remembered, and reported if it is
  unknown.
-/
theorem remember_name
    (hRecords : z.Records S known met)
    {m : Mention}
    (hName : IsTypeName m.name)
    (hNew : m.name ∉ met.map (·.name))
    (hPlace : S m.place) :
    ResolverState.Records S known (met ++ [m])
      { z with
        types :=
          z.types.remember m.name
            ((TypeForm.named m.name).evaluate known)
        diagnostics :=
          z.diagnostics ++
            if (known m.name).isNone then
              [⟨.unknownType m.name, m.place⟩]
            else
              [] } where
  named := hRecords.named
  sound g hOther t := by
    have hReadable : (TypeForm.named m.name).IsReadable :=
      hName
    exact hRecords.sound_remember hReadable hOther
  names name hOther := by
    rw [TypeNames.findWritten?_remember, List.map_append,
      List.mem_append]
    split
    · rename_i hSame
      subst hSame
      exact ⟨fun _ => .inr List.mem_cons_self, fun _ => rfl⟩
    · rename_i hApart
      rw [hRecords.names name hOther]
      refine ⟨.inl, ?_⟩
      rintro (hFound | hSame)
      · exact hFound
      · exact absurd (List.mem_singleton.1 hSame) hApart
  unknown := by
    rw [unknownTypes_concat_new known hNew,
      List.filter_append, hRecords.unknown]
    congr 1
    split <;> rfl
  places := by
    refine List.forall_mem_append.2 ⟨hRecords.places, ?_⟩
    split
    · exact List.forall_mem_singleton.2 hPlace
    · exact nofun

end ResolverState.Records

------------------------------------------------------------
-- Walks
------------------------------------------------------------

variable {α β : Type}
variable {xs ys : List DefinitionId}
variable {ms ns : List Mention}

/-
  If the definitions await their types and the state records
  what was met, then the walk gives them their types and goes
  on with what it mentions, and its result has the property.
-/
def Traces
    (S : Position → Prop)
    (known : String → Option Ty)
    (ids : List DefinitionId)
    (ms : List Mention)
    (p : Resolver α)
    (Q : α → Prop) :
    Prop :=
  ∀ z met,
    Awaits ids z →
      z.Records S known met →
        Growth ids z (p.outcome z).2 ∧
          (p.outcome z).2.Records S known (met ++ ms) ∧
            Q (p.outcome z).1

section Traces

variable {p : Resolver α}
variable {f : α → Resolver β}
variable {Q : α → Prop}
variable {R : β → Prop}

theorem traces_pure
    {a : α}
    (hResult : Q a) :
    Traces S known [] [] (pure a) Q := by
  intro z met _ hRecords
  refine ⟨.refl [] z, ?_, hResult⟩
  rw [List.append_nil]
  exact hRecords

/- One walk after another. -/
theorem Traces.bind
    (hFirst : Traces S known xs ms p Q)
    (hRest : ∀ a, Q a → Traces S known ys ns (f a) R) :
    Traces S known (xs ++ ys) (ms ++ ns) (p >>= f) R := by
  intro z met hAwaits hRecords
  rw [outcome_bind]
  rcases hFirst z met hAwaits.first hRecords with
    ⟨hGrowth, hBehind, hResult⟩
  rcases hRest _ hResult _ _ (hAwaits.rest hGrowth)
      hBehind with
    ⟨hOthers, hEnd, hLast⟩
  rw [List.append_assoc] at hEnd
  exact ⟨hGrowth.trans hOthers, hEnd, hLast⟩

/- The first walk gives no types and mentions nothing. -/
theorem Traces.next
    (hFirst : Traces S known [] [] p Q)
    (hRest : ∀ a, Q a → Traces S known ys ns (f a) R) :
    Traces S known ys ns (p >>= f) R :=
  hFirst.bind hRest

/- The second walk mentions nothing. -/
theorem Traces.quiet
    (hFirst : Traces S known xs ms p Q)
    (hRest : ∀ a, Q a → Traces S known ys [] (f a) R) :
    Traces S known (xs ++ ys) ms (p >>= f) R := by
  have hBoth := hFirst.bind hRest
  rw [List.append_nil] at hBoth
  exact hBoth

/- Nothing is left for the second walk. -/
theorem Traces.last
    (hFirst : Traces S known xs ms p Q)
    (hRest : ∀ a, Q a → Traces S known [] [] (f a) R) :
    Traces S known xs ms (p >>= f) R := by
  have hBoth := hFirst.quiet hRest
  rw [List.append_nil] at hBoth
  exact hBoth

/- Walks over the parts of a list, one by one. -/
theorem traces_mapM
    {as : List α}
    {g : α → Resolver β}
    {ids : α → List DefinitionId}
    {names : α → List Mention}
    {P : α → β → Prop}
    (hEach :
      ∀ a ∈ as, Traces S known (ids a) (names a) (g a) (P a)) :
    Traces S known (as.flatMap ids) (as.flatMap names)
      (as.mapM g) (List.Forall₂ P as) := by
  induction as with
  | nil => exact traces_pure .nil
  | cons a as ih =>
      rw [List.mapM_cons, List.flatMap_cons,
        List.flatMap_cons]
      refine (hEach a List.mem_cons_self).bind
        fun b hFirst => ?_
      have hOthers :=
        ih fun c hMember =>
          hEach c (List.mem_cons_of_mem _ hMember)
      exact hOthers.last fun bs hAll =>
        traces_pure (.cons hFirst hAll)

/- What only reports mentions nothing. -/
theorem traces_of_reportsAt
    (hReports : ReportsAt S p) :
    Traces S known [] [] p (fun _ => True) := by
  intro z met _ hRecords
  rcases hReports z with ⟨ds, hState, hPlaces⟩
  rw [hState, List.append_nil]
  refine ⟨⟨rfl, fun _ _ => id, fun _ _ => rfl, rfl, rfl,
    List.prefix_append _ _⟩, hRecords.report hPlaces,
    trivial⟩

end Traces

/- A definition that awaits its type gets one. -/
theorem traces_fillType
    (id : DefinitionId)
    (type : Ty) :
    Traces S known [id] [] (fillType id type)
      (fun _ => True) := by
  intro z met _ hRecords
  rw [List.append_nil]
  have hGrowth :
      Growth [id] z ((fillType id type).outcome z).2 :=
    (certifies_fillType (y := z.symbols)
      (k := ⟨[], .empty⟩) (P := False) id
      False.elim).grows z
  exact ⟨hGrowth, hRecords.symbols _, trivial⟩

/- A definition that awaits its type is not known yet. -/
theorem traces_isResolved
    {id : DefinitionId}
    {f : Bool → Resolver β}
    {R : β → Prop}
    (hMember : id ∈ xs)
    (hRest : Traces S known xs ms (f false) R) :
    Traces S known xs ms (isResolved id >>= f) R := by
  intro z met hAwaits hRecords
  rw [outcome_isResolved_bind, hAwaits.untyped id hMember]
  exact hRest z met hAwaits hRecords

------------------------------------------------------------
-- Written types
------------------------------------------------------------

/- What is remembered, or what is remembered from now on. -/
theorem outcome_remembered
    (text : String)
    (action : Resolver Ty)
    (z : ResolverState) :
    (remembered text action).outcome z =
      match z.types.findWritten? text with
      | some type => (type, z)
      | none =>
          let r := action.outcome z
          (r.1,
            { r.2 with
              types := r.2.types.remember text r.1 }) := by
  have hRun :
      (remembered text action).outcome z =
        Resolver.outcome
          (match z.types.findWritten? text with
            | some type => pure type
            | none => do
                let type ← action
                remember text type
                return type)
          z :=
    rfl
  rw [hRun]
  cases z.types.findWritten? text <;> rfl

/- Only what is remembered of texts may be changed. -/
theorem growth_remember
    (z : ResolverState)
    (text : String)
    (type : Ty)
    (ds : List Diagnostic) :
    Growth [] z
      { z with
        types := z.types.remember text type
        diagnostics := z.diagnostics ++ ds } :=
  ⟨rfl, fun _ _ => id, fun _ _ => rfl, rfl, rfl,
    List.prefix_append _ _⟩

/- The type of a name is found, or reported as unknown. -/
theorem outcome_namedType
    (name : String)
    (p : Position)
    (z : ResolverState) :
    (namedType name p).outcome z =
      match z.types.findWritten? name with
      | some type => (type, z)
      | none =>
          let type :=
            (TypeForm.named name).evaluate z.types.find?
          (type,
            { z with
              types := z.types.remember name type
              diagnostics :=
                z.diagnostics ++
                  if (z.types.find? name).isNone then
                    [⟨.unknownType name, p⟩]
                  else
                    [] }) := by
  unfold namedType
  rw [outcome_remembered]
  cases z.types.findWritten? name with
  | some type => rfl
  | none =>
      dsimp only
      generalize hAction : Resolver.outcome _ z = r
      change
        Resolver.outcome
            (match z.types.find? name with
              | some type => pure type
              | none => errorType (.unknownType name) p)
            z = r at hAction
      unfold TypeForm.evaluate
      cases hKnown : z.types.find? name with
      | some type =>
          rw [hKnown] at hAction
          subst hAction
          dsimp only [Option.isNone_some]
          rw [if_neg Bool.false_ne_true, List.append_nil]
          rfl
      | none =>
          rw [hKnown] at hAction
          subst hAction
          rfl

theorem traces_namedType
    {name : String}
    {p : Position}
    (hName : IsTypeName name)
    (hPlace : S p) :
    Traces S known [] [⟨name, p⟩] (namedType name p)
      (fun t => t = (TypeForm.named name).evaluate known) := by
  intro z met _ hRecords
  have hKnown : z.types.find? = known :=
    funext hRecords.named
  rw [outcome_namedType, hKnown]
  cases hFound : z.types.findWritten? name with
  | some type =>
      -- What is remembered is right, and was reported before.
      have hSome : (z.types.findWritten? name).isSome := by
        rw [hFound]
        rfl
      have hOld := (hRecords.names name hName).1 hSome
      exact ⟨.refl [] z, hRecords.mention_old hOld,
        hRecords.sound (.named name) hName type hFound⟩
  | none =>
      have hNew : name ∉ met.map (·.name) := by
        rw [← hRecords.names name hName, hFound]
        exact nofun
      have hRecords' :=
        hRecords.remember_name (m := ⟨name, p⟩) hName hNew
          hPlace
      exact ⟨growth_remember z _ _ _, hRecords', rfl⟩

/- A text with a join in it is no name. -/
theorem not_isTypeName_bar (a b : String) :
    ¬IsTypeName (a ++ " | " ++ b) :=
  fun hName => hName.1 (mem_toList_joined toList_bar a b)

theorem not_isTypeName_ampersand (a b : String) :
    ¬IsTypeName (a ++ " & " ++ b) :=
  fun hName =>
    hName.2 (mem_toList_joined toList_ampersand a b)

/- A join is remembered as the type that it is. -/
theorem traces_remembered
    {f : TypeForm}
    {type : Ty}
    (hReadable : f.IsReadable)
    (hJoin : ¬IsTypeName f.text)
    (hType : type = f.evaluate known) :
    Traces S known [] [] (remembered f.text (pure type))
      (fun t => t = f.evaluate known) := by
  intro z met _ hRecords
  rw [outcome_remembered, List.append_nil]
  cases hFound : z.types.findWritten? f.text with
  | some other =>
      exact ⟨.refl [] z, hRecords,
        hRecords.sound f hReadable other hFound⟩
  | none =>
      have hGrowth := growth_remember z f.text type []
      rw [List.append_nil] at hGrowth
      subst hType
      exact ⟨hGrowth, hRecords.remember_join hReadable hJoin,
        rfl⟩

/-
  Each written type that is not left out has the type that is
  evaluated for it.
-/
def NodeRules.evaluated
    (known : String → Option Ty) :
    NodeRules where
  ofExpr _ := True
  ofMember _ := True
  ofTypeExpr t :=
    t.isAbsent = false → t.type = some (t.evaluate known)
  ofParameter _ := True
  ofVariable _ := True
  ofFunction _ := True

/- A form behind its walk, and its type. -/
structure EvaluatedForm
    (known : String → Option Ty)
    (form : TypeForm)
    (r : TypeForm × Ty) :
    Prop where
  same : r.1.evaluate known = form.evaluate known
  type_eq : r.2 = form.evaluate known
  obeys : r.1.Obeys (.evaluated known)

/- A written type behind its walk, and its type. -/
structure EvaluatedType
    (known : String → Option Ty)
    (t : TypeExpr)
    (r : TypeExpr × Ty) :
    Prop where
  same : r.1.evaluate known = t.evaluate known
  type_eq : r.2 = t.evaluate known
  obeys : r.1.Obeys (.evaluated known)

variable {T : Token → Prop}

mutual

theorem traces_resolveTypeForm
    (hNames : NamesTypes T)
    {p : Position}
    (hPlace : IsStart T p) :
    ∀ form : TypeForm,
      form.IsReadable →
        form.Obeys .parsed →
          form.IsWhole →
            form.Obeys (.standing T) →
              Traces (IsStart T) known [] (form.mentions p)
                (resolveTypeForm p form)
                (EvaluatedForm known form)
  | .absent, hReadable, _, _, _ => hReadable.elim
  | .named name, hReadable, _, _, _ => by
      unfold resolveTypeForm
      exact (traces_namedType hReadable hPlace).last
        fun _ hType => traces_pure ⟨rfl, hType, trivial⟩
  | .union left right, hReadable, hParsed, hWhole,
      hStands => by
      unfold resolveTypeForm
      refine (traces_resolveTypeExpr hNames left hParsed.1
        hWhole.1 hStands.1).bind fun a hLeft => ?_
      refine (traces_resolveTypeExpr hNames right hParsed.2
        hWhole.2 hStands.2).last fun b hRight => ?_
      have hType :
          joinTypes .union a.2 b.2 =
            (TypeForm.union left right).evaluate known := by
        rw [joinTypes_eq, hLeft.type_eq, hRight.type_eq]
        rfl
      refine (traces_remembered hReadable
        (not_isTypeName_bar _ _) hType).last
          fun type hSame => traces_pure ⟨?_, hSame,
            hLeft.obeys, hRight.obeys⟩
      unfold TypeForm.evaluate
      rw [hLeft.same, hRight.same]
  | .intersection left right, hReadable, hParsed, hWhole,
      hStands => by
      unfold resolveTypeForm
      refine (traces_resolveTypeExpr hNames left hParsed.1
        hWhole.1 hStands.1).bind fun a hLeft => ?_
      refine (traces_resolveTypeExpr hNames right hParsed.2
        hWhole.2 hStands.2).last fun b hRight => ?_
      have hType :
          joinTypes .intersection a.2 b.2 =
            (TypeForm.intersection left right).evaluate
              known := by
        rw [joinTypes_eq, hLeft.type_eq, hRight.type_eq]
        rfl
      refine (traces_remembered hReadable
        (not_isTypeName_ampersand _ _) hType).last
          fun type hSame => traces_pure ⟨?_, hSame,
            hLeft.obeys, hRight.obeys⟩
      unfold TypeForm.evaluate
      rw [hLeft.same, hRight.same]
termination_by structural form => form

theorem traces_resolveTypeExpr
    (hNames : NamesTypes T) :
    ∀ t : TypeExpr,
      t.Obeys .parsed →
        t.isAbsent = false →
          t.Obeys (.standing T) →
            Traces (IsStart T) known [] t.mentions
              (resolveTypeExpr t) (EvaluatedType known t)
  | ⟨form, span, some type⟩, hParsed, _, _ =>
      absurd hParsed.1.1 nofun
  | ⟨form, span, none⟩, hParsed, hPresent, hStands => by
      have hReadable : form.IsReadable :=
        TypeExpr.isReadable_of_parsed hNames
          ⟨form, span, none⟩ hParsed hPresent hStands
      unfold resolveTypeExpr
      refine (traces_resolveTypeForm hNames hStands.1.1 form
        hReadable hParsed.2 hParsed.1.2 hStands.2).last
          fun r hForm => traces_pure
            ⟨hForm.same, hForm.type_eq, fun _ => ?_,
              hForm.obeys⟩
      rw [hForm.type_eq, ← hForm.same]
      rfl
termination_by structural t => t

end

/- What is left out mentions nothing and stays left out. -/
theorem traces_resolveDeclared
    (hNames : NamesTypes T)
    {t : TypeExpr}
    (hParsed : t.Obeys .parsed)
    (hStands : t.Obeys (.standing T)) :
    Traces (IsStart T) known [] t.mentions (resolveDeclared t)
      (fun r => r.1.Obeys (.evaluated known)) := by
  unfold resolveDeclared
  split
  · rename_i hAbsent
    rcases t with ⟨form, span, type⟩
    cases form with
    | absent => exact traces_pure ⟨nofun, trivial⟩
    | _ => cases hAbsent
  · rename_i hThere
    exact (traces_resolveTypeExpr hNames t hParsed
      (eq_false_of_ne_true hThere) hStands).last
        fun _ hType => traces_pure hType.obeys

end SourceCheck
