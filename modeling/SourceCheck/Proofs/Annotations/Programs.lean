import Mathlib
import SourceCheck.Proofs.Annotations.Walks
import SourceCheck.Proofs.Typing.Programs

/-
  The written types of programs.

  Imports give names to types, where the first type of a name
  counts, and then each written type of the program gets the
  type that is evaluated for it by these names.  That types
  are remembered by their texts makes no difference but that
  an unknown name is reported only once.

  Key definitions include:
    * `Known.type?`
    * `ResolverState.Knows`

  Key theorems include:
    * `ResolverState.Knows.imports`
    * `traced_resolveProgram`
    * `evaluated_resolveProgram`
-/

namespace SourceCheck

open SourceCheck.Resolver

variable {S : Position → Prop}

------------------------------------------------------------
-- Imports
------------------------------------------------------------

/- The type of a name, which is the first one that it has. -/
def Known.type? (k : Known) (name : String) : Option Ty :=
  k.types.lookup name

/-
  The state knows such types by name, the first of each name,
  and remembers no text.  What was reported stands at such
  places, and no type was unknown.
-/
structure ResolverState.Knows
    (S : Position → Prop)
    (types : List (String × Ty))
    (z : ResolverState) :
    Prop where
  named : ∀ name, z.types.find? name = types.lookup name
  written : z.types.written = []
  reports :
    ∀ d ∈ z.diagnostics,
      S d.position ∧ d.problem.isUnknownType = false

/- The last type of a name counts if there is no other. -/
theorem lookup_concat
    (types : List (String × Ty))
    (name other : String)
    (type : Ty) :
    (types ++ [(name, type)]).lookup other =
      (types.lookup other).or
        (if other = name then some type else none) := by
  rw [List.lookup_append]
  congr 1
  by_cases hSame : other = name
  · rw [if_pos hSame, hSame]
    exact List.lookup_cons_self
  · have hApart : (other == name) = false :=
      beq_eq_false_iff_ne.2 hSame
    rw [if_neg hSame, List.lookup_cons, hApart]
    rfl

namespace ResolverState.Knows

variable {types : List (String × Ty)}
variable {z : ResolverState}

/- Nothing was met yet. -/
theorem records (hKnows : z.Knows S types) :
    z.Records S (fun name => types.lookup name) [] where
  named := hKnows.named
  sound f _ t hFound := by
    unfold TypeNames.findWritten? at hFound
    rw [hKnows.written] at hFound
    cases hFound
  names name _ := by
    unfold TypeNames.findWritten?
    rw [hKnows.written]
    exact ⟨nofun, nofun⟩
  unknown :=
    List.filter_eq_nil_iff.2 fun d hMember =>
      ne_true_of_eq_false (hKnows.reports d hMember).2
  places d hMember := (hKnows.reports d hMember).1

theorem report
    (hKnows : z.Knows S types)
    {problem : Problem}
    {p : Position}
    (hOther : problem.isUnknownType = false)
    (hPlace : S p) :
    ResolverState.Knows S types
      ((Resolver.report problem p).outcome z).2 where
  named := hKnows.named
  written := hKnows.written
  reports :=
    List.forall_mem_append.2
      ⟨hKnows.reports,
        List.forall_mem_singleton.2 ⟨hPlace, hOther⟩⟩

/- Members are no types. -/
theorem importMembers
    (hKnows : z.Knows S types)
    (entry : ImportEntry)
    (members : List Member) :
    ResolverState.Knows S types
      ((Resolver.importMembers entry members).outcome z).2 :=
  ⟨hKnows.named, hKnows.written, hKnows.reports⟩

/- A type comes behind those that are known already. -/
theorem importType
    (hKnows : z.Knows S types)
    {entry : ImportEntry}
    (hPlace : S entry.span.start)
    (type : Ty) :
    ResolverState.Knows S
      (types ++ [(entry.localName, type)])
      ((Resolver.importType entry type).outcome z).2 := by
  unfold Resolver.importType
  rw [outcome_bind, outcome_get]
  dsimp only
  split
  · rename_i others hDefined
    have hStep := TypeNames.find?_of_define? hDefined
    unfold TypeNames.define? TypeNames.contains at hDefined
    split at hDefined
    · cases hDefined
    -- The name is new, so the type behind the others counts.
    rename_i hNew
    rw [Bool.not_eq_true, Option.isSome_eq_false_iff,
      Option.isNone_iff_eq_none] at hNew
    refine ⟨fun name => ?_, ?_, hKnows.reports⟩
    · have hOwn : others.find? name = _ := hStep name
      rw [lookup_concat, ← hKnows.named name]
      refine hOwn.trans ?_
      split
      · rename_i hSame
        rw [hSame, hNew]
        rfl
      · exact (Option.or_none).symm
    · cases hDefined
      exact hKnows.written
  · rename_i hDefined
    unfold TypeNames.define? TypeNames.contains at hDefined
    split at hDefined
    · -- The name has a type, which comes before the new one.
      rename_i hOld
      have hReported :
          ResolverState.Knows S types
            ((Resolver.report
              (.importRedefinition entry.localName)
              entry.span.start).outcome z).2 :=
        hKnows.report rfl hPlace
      refine ⟨fun name => ?_, hReported.written,
        hReported.reports⟩
      refine (hReported.named name).trans ?_
      rw [lookup_concat, ← hKnows.named name]
      split
      · rename_i hSame
        rw [hSame]
        exact (Option.or_of_isSome hOld).symm
      · exact (Option.or_none).symm
    · cases hDefined

theorem importEntry
    (hKnows : z.Knows S types)
    {entry : ImportEntry}
    (hPlace : S entry.span.start)
    (l : Library)
    (path : String) :
    ResolverState.Knows S (types ++ l.entryTypes path entry)
      ((Resolver.importEntry l path entry).outcome z).2 := by
  unfold Resolver.importEntry Library.entryTypes
  cases l.type? path entry.name with
  | some type => exact hKnows.importType hPlace type
  | none =>
      dsimp only
      rw [List.append_nil]
      cases l.members path entry.name with
      | nil => exact hKnows.report rfl hPlace
      | cons m ms => exact hKnows.importMembers entry (m :: ms)

theorem importEntries
    (hKnows : z.Knows S types)
    (l : Library)
    (path : String)
    {entries : List ImportEntry}
    (hPlaces : ∀ e ∈ entries, S e.span.start) :
    ResolverState.Knows S
      (types ++ entries.flatMap (l.entryTypes path))
      ((entries.forM (Resolver.importEntry l path)).outcome
        z).2 := by
  induction entries generalizing z types with
  | nil =>
      rw [List.flatMap_nil, List.append_nil]
      exact hKnows
  | cons entry entries ih =>
      rcases List.forall_mem_cons.1 hPlaces with
        ⟨hFirst, hRest⟩
      rw [List.flatMap_cons, ← List.append_assoc]
      exact ih (hKnows.importEntry hFirst l path) hRest

/- All imports that are not marked are followed in order. -/
theorem imports
    (hKnows : z.Knows S types)
    (l : Library)
    {imports : List Import}
    (hNew : ∀ i ∈ imports, i.isResolved = false)
    (hPlaces :
      ∀ i ∈ imports, ∀ e ∈ i.entries, S e.span.start) :
    ResolverState.Knows S
      (types ++
        imports.flatMap fun i =>
          i.entries.flatMap (l.entryTypes i.path))
      ((imports.mapM (resolveImport l)).outcome z).2 := by
  induction imports generalizing z types with
  | nil =>
      rw [List.flatMap_nil, List.append_nil]
      exact hKnows
  | cons i imports ih =>
      rcases List.forall_mem_cons.1 hNew with
        ⟨hOpen, hOthers⟩
      rcases List.forall_mem_cons.1 hPlaces with
        ⟨hFirst, hRest⟩
      have hStep :
          (resolveImport l i).outcome z =
            ({ i with isResolved := true },
              ((i.entries.forM
                (Resolver.importEntry l i.path)).outcome
                  z).2) := by
        unfold resolveImport
        rw [hOpen]
        rfl
      rw [List.mapM_cons, outcome_bind, hStep,
        List.flatMap_cons, ← List.append_assoc]
      exact ih (hKnows.importEntries l i.path hFirst) hOthers
        hRest

end ResolverState.Knows

------------------------------------------------------------
-- Programs
------------------------------------------------------------

/- At first only the built-in types are known. -/
theorem knows_start (y : Symbols) :
    (ResolverState.start y).Knows S builtinTypes :=
  ⟨fun _ => rfl, rfl, nofun⟩

/-
  The written types of a program get the types that are
  evaluated for them, unknown names are reported where they
  are mentioned first, and all reports stand at the start of
  a token.
-/
theorem traced_resolveProgram
    {source file : String}
    {p : Program}
    (hAccepted : parseProgram source file = .ok p)
    (l : Library) :
    let r := resolveProgram l p
    let known := (l.known p.imports).type?
    r.1.Obeys (.evaluated known) ∧
      r.2.filter (·.problem.isUnknownType) =
          unknownTypes known p.mentions ∧
        ∀ d ∈ r.2,
          IsStart (IsTokenOf source file) d.position := by
  have hDerives := derivesProgram_of_parseProgram hAccepted
  have hStands :=
    (located_parseProgram source file).1 p hAccepted
  let m :=
    (p.imports.mapM (resolveImport l)).outcome
      (.start p.symbols)
  let r :=
    (p.declarations.mapM
      (resolveDeclaration
        (Surroundings.nowhere.within p.scope))).outcome m.2
  have hRun :
      resolveProgram l p =
        ({ p with
            imports := m.1
            declarations := r.1
            symbols := r.2.symbols },
          r.2.diagnostics) :=
    rfl
  have hSymbols : m.2.symbols = p.symbols :=
    (adds_imports l hDerives.isResolved_eq
      (.start p.symbols)).2.symbols_eq
  have hRecords :
      m.2.Records (IsStart (IsTokenOf source file))
        (l.known p.imports).type? [] :=
    ((knows_start p.symbols).imports l hDerives.isResolved_eq
      hStands.entries).records
  rcases traces_declarations
      (namesTypes_isTokenOf source file)
      (Surroundings.nowhere.within p.scope) hDerives.parsed
      hStands.obeys m.2 []
      (awaits_declared hDerives hSymbols) hRecords with
    ⟨-, hBehind, hAll⟩
  rw [hRun]
  refine ⟨fun d hMember => ?_, hBehind.unknown,
    hBehind.places⟩
  rcases exists_of_mem_right hAll d hMember with
    ⟨_, -, hObeys⟩
  exact hObeys

------------------------------------------------------------
-- Main results
------------------------------------------------------------

/-
  Remembering the types of texts changes nothing but how often
  is reported: in a resolved program each written type that is
  there has the type that is evaluated for it by the built-in
  and the imported types, and of each unknown name there is
  one report, where it is mentioned first.
-/
theorem evaluated_resolveProgram
    {source file : String}
    {p : Program}
    (hAccepted : parseProgram source file = .ok p)
    (l : Library) :
    let r := resolveProgram l p
    let known := (l.known p.imports).type?
    r.1.Obeys (.evaluated known) ∧
      r.2.filter (·.problem.isUnknownType) =
        unknownTypes known p.mentions := by
  rcases traced_resolveProgram hAccepted l with
    ⟨hObeys, hReports, -⟩
  exact ⟨hObeys, hReports⟩

/- Two parameters whose types have an unknown name in them. -/
def repeatedSource : String :=
  "fun f(x: A | int, y: A) { }"

set_option maxRecDepth 2000 in
theorem exists_repeated :
    ∃ p,
      parseProgram repeatedSource "main" = .ok p ∧
        (resolveProgram .empty p).2.map (·.problem) =
          [.unknownType "A"] := by
  refine ⟨?p, ?_, ?_⟩
  rotate_left
  · conv => lhs; cbv
  · decide +kernel

/- The name is reported once. -/
theorem evaluated_resolveProgram_repeated :
    ∃ p,
      parseProgram repeatedSource "main" = .ok p ∧
        let r := resolveProgram .empty p
        let known := (Library.empty.known p.imports).type?
        r.2.map (·.problem) = [.unknownType "A"] ∧
          r.1.Obeys (.evaluated known) ∧
            r.2.filter (·.problem.isUnknownType) =
              unknownTypes known p.mentions := by
  rcases exists_repeated with ⟨p, hParse, hReports⟩
  exact ⟨p, hParse, hReports,
    evaluated_resolveProgram hParse .empty⟩

end SourceCheck
