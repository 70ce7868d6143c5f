import Mathlib
import SourceCheck.Check
import SourceCheck.Proofs.Typing.Walks

/-
  What silence means for whole programs.

  If a program is accepted, then its tree obeys the typing
  rules, and no error is hidden in its slots.  The types of
  functions are honest about what is returned, if a type was
  declared for them.

  Key definitions include:
    * `Adds`

  Key theorems include:
    * `certified_of_silent`
    * `isWellTyped_of_compile`
    * `isErrorFree_of_compile`
    * `honest_of_compile`
-/

namespace SourceCheck

open SourceCheck.Resolver

------------------------------------------------------------
-- Imports
------------------------------------------------------------

/- Imports add no more than these types and members. -/
structure Adds
    (types : List (String × Ty))
    (members : List (String × Member))
    (z w : ResolverState) :
    Prop where
  symbols_eq : w.symbols = z.symbols
  written_eq : w.types.written = z.types.written
  named :
    ∀ name t,
      w.types.find? name = some t →
        z.types.find? name = some t ∨ (name, t) ∈ types
  members_eq :
    w.members.entries = z.members.entries ++ members
  reports : z.diagnostics <+: w.diagnostics

namespace Adds

variable {types others : List (String × Ty)}
variable {members further : List (String × Member)}
variable {z w v : ResolverState}

theorem refl (z : ResolverState) : Adds [] [] z z :=
  ⟨rfl, rfl, fun _ _ => .inl, (List.append_nil _).symm,
    List.prefix_rfl⟩

theorem trans
    (hFirst : Adds types members z w)
    (hSecond : Adds others further w v) :
    Adds (types ++ others) (members ++ further) z v where
  symbols_eq := hSecond.symbols_eq.trans hFirst.symbols_eq
  written_eq := hSecond.written_eq.trans hFirst.written_eq
  named name t hFound := by
    rcases hSecond.named name t hFound with hFound | hNew
    · rcases hFirst.named name t hFound with hFound | hNew
      · exact .inl hFound
      · exact .inr (List.mem_append_left _ hNew)
    · exact .inr (List.mem_append_right _ hNew)
  members_eq := by
    rw [hSecond.members_eq, hFirst.members_eq,
      List.append_assoc]
  reports := hFirst.reports.trans hSecond.reports

end Adds

theorem adds_report
    (problem : Problem)
    (p : Position)
    (types : List (String × Ty))
    (z : ResolverState) :
    Adds types [] z ((report problem p).outcome z).2 where
  symbols_eq := rfl
  written_eq := rfl
  named _ _ := .inl
  members_eq := (List.append_nil _).symm
  reports := List.prefix_append _ _

theorem adds_importType
    (entry : ImportEntry)
    (type : Ty)
    (z : ResolverState) :
    Adds [(entry.localName, type)] [] z
      ((importType entry type).outcome z).2 := by
  unfold importType
  rw [outcome_bind, outcome_get]
  dsimp only
  split
  · rename_i types hDefined
    refine ⟨rfl, ?_, ?_, (List.append_nil _).symm,
      List.prefix_rfl⟩
    · unfold TypeNames.define? at hDefined
      split at hDefined
      · cases hDefined
      · cases hDefined
        rfl
    · intro name t hFound
      have hStep :=
        TypeNames.find?_of_define? hDefined name
      have hOwn : types.find? name = some t := hFound
      rw [hStep] at hOwn
      split at hOwn
      · rename_i hName
        cases hOwn
        subst hName
        exact .inr (List.mem_singleton_self _)
      · exact .inl hOwn
  · exact adds_report _ _ _ z

theorem entries_define
    (members : List Member)
    (name : String)
    (known : MemberNames) :
    (members.foldl (fun k m => k.define name m)
        known).entries =
      known.entries ++ members.map fun m => (name, m) := by
  induction members generalizing known with
  | nil => exact (List.append_nil _).symm
  | cons m members ih =>
      rw [List.foldl_cons, ih, List.map_cons]
      exact List.append_assoc _ _ _

theorem adds_importEntry
    (l : Library)
    (path : String)
    (entry : ImportEntry)
    (z : ResolverState) :
    Adds (l.entryTypes path entry)
      (l.entryMembers path entry) z
      ((importEntry l path entry).outcome z).2 := by
  unfold importEntry Library.entryTypes Library.entryMembers
  cases l.type? path entry.name with
  | some type => exact adds_importType entry type z
  | none =>
      dsimp only
      cases hMembers : l.members path entry.name with
      | nil => exact adds_report _ _ _ z
      | cons m ms =>
          exact ⟨rfl, rfl, fun _ _ => .inl,
            entries_define _ _ _, List.prefix_rfl⟩

theorem adds_importEntries
    (l : Library)
    (path : String)
    (entries : List ImportEntry)
    (z : ResolverState) :
    Adds (entries.flatMap (l.entryTypes path))
      (entries.flatMap (l.entryMembers path)) z
      ((entries.forM (importEntry l path)).outcome z).2 := by
  induction entries generalizing z with
  | nil => exact .refl z
  | cons entry entries ih =>
      exact (adds_importEntry l path entry z).trans (ih _)

/- Imports that are not marked yet are all followed. -/
theorem adds_imports
    (l : Library)
    {imports : List Import}
    (hNew : ∀ i ∈ imports, i.isResolved = false)
    (z : ResolverState) :
    let r := (imports.mapM (resolveImport l)).outcome z
    r.1 =
        imports.map (fun i => { i with isResolved := true }) ∧
      Adds
        (imports.flatMap fun i =>
          i.entries.flatMap (l.entryTypes i.path))
        (imports.flatMap fun i =>
          i.entries.flatMap (l.entryMembers i.path))
        z r.2 := by
  induction imports generalizing z with
  | nil => exact ⟨rfl, .refl z⟩
  | cons i imports ih =>
      have hFirst :
          (resolveImport l i).outcome z =
            ({ i with isResolved := true },
              ((i.entries.forM
                (importEntry l i.path)).outcome z).2) := by
        unfold resolveImport
        rw [hNew i List.mem_cons_self]
        rfl
      have hAdds := adds_importEntries l i.path i.entries z
      rcases ih
          (fun j hMember =>
            hNew j (List.mem_cons_of_mem _ hMember))
          ((i.entries.forM (importEntry l i.path)).outcome
            z).2 with
        ⟨hResult, hRest⟩
      rw [List.mapM_cons, outcome_bind, hFirst]
      exact ⟨congrArg (List.cons _) hResult,
        hAdds.trans hRest⟩

/- Marked imports bring the same things along. -/
theorem Library.known_marked
    (l : Library)
    (imports : List Import) :
    l.known
        (imports.map fun i =>
          { i with isResolved := true }) =
      l.known imports := by
  unfold Library.known
  rw [List.flatMap_map, List.flatMap_map]

/- The declarations start with what is imported. -/
theorem Adds.ready
    {l : Library}
    {imports : List Import}
    {y : Symbols}
    {w : ResolverState}
    (hAdds :
      Adds
        (imports.flatMap fun i =>
          i.entries.flatMap (l.entryTypes i.path))
        (imports.flatMap fun i =>
          i.entries.flatMap (l.entryMembers i.path))
        (.start y) w)
    (hNone : ∀ id, y.type? id = none) :
    Ready (l.known imports) w where
  named name t hFound := by
    rcases hAdds.named name t hFound with hBuiltin | hNew
    · rcases List.lookup_eq_some_iff.1 hBuiltin with
        ⟨front, back, hSplit, -⟩
      refine List.mem_append_left _ ?_
      have hStart :
          (ResolverState.start y).types.named =
            builtinTypes :=
        rfl
      rw [← hStart, hSplit]
      simp
    · exact List.mem_append_right _ hNew
  members_eq := by
    have hEntries := hAdds.members_eq
    rcases w with ⟨symbols, types, ⟨entries⟩, diagnostics⟩
    exact congrArg MemberNames.mk hEntries
  written _ text t hFound := by
    unfold TypeNames.findWritten? at hFound
    rw [hAdds.written_eq] at hFound
    cases hFound
  definitions _ id t hType := by
    rw [hAdds.symbols_eq] at hType
    exact absurd ((hNone id).symm.trans hType) nofun

------------------------------------------------------------
-- Programs
------------------------------------------------------------

/- No definition of the program has a type yet. -/
theorem awaits_declared
    {source file : String}
    {p : Program}
    (hDerives : DerivesProgram (.initial source file) p)
    {z : ResolverState}
    (hSymbols : z.symbols = p.symbols) :
    Awaits p.declared z where
  nodup := by
    refine List.nodup_iff_count_le_one.2 fun id => ?_
    rw [hDerives.count_declared id]
    split
    · exact Nat.le_refl 1
    · exact Nat.zero_le 1
  lt_size id hMember := by
    rw [hSymbols]
    by_contra hLarge
    have hCount := hDerives.count_declared id
    rw [if_neg hLarge] at hCount
    exact List.count_eq_zero.1 hCount hMember
  untyped id _ := by
    rw [hSymbols]
    exact type?_of_types_none hDerives.types_none id

/-
  Where nothing is reported of a program, all that the walk
  certifies is known of the resolved program.
-/
theorem certified_of_silent
    {source file : String}
    {p : Program}
    (hAccepted : parseProgram source file = .ok p)
    (l : Library)
    (hSilent : (resolveProgram l p).2 = []) :
    let r := (resolveProgram l p).1
    r.Obeys (.certified r.symbols (l.known r.imports)) ∧
      ((l.known r.imports).isErrorFree →
        r.symbols.IsErrorFree) := by
  have hDerives := derivesProgram_of_parseProgram hAccepted
  let m :=
    (p.imports.mapM (resolveImport l)).outcome
      (.start p.symbols)
  let r :=
    (p.declarations.mapM
      (resolveDeclaration
        (Surroundings.nowhere.within p.scope))).outcome m.2
  have hRun :
      resolveProgram l p =
        ({ p with
            imports := m.1
            declarations := r.1
            symbols := r.2.symbols },
          r.2.diagnostics) :=
    rfl
  rcases adds_imports l hDerives.isResolved_eq
      (.start p.symbols) with
    ⟨hImports, hAdds⟩
  have hKnown : l.known m.1 = l.known p.imports := by
    rw [hImports, Library.known_marked]
  have hReady : Ready (l.known m.1) m.2 := by
    rw [hKnown]
    exact hAdds.ready
      (type?_of_types_none hDerives.types_none)
  have hAwaits := awaits_declared hDerives hAdds.symbols_eq
  rw [hRun] at hSilent ⊢
  have hEnds : Ends r.2.symbols r.2 :=
    ⟨hSilent, rfl, fun _ _ => id⟩
  rcases (certifies_declarations _ hDerives.fresh).certified
      trivial m.2 hReady hAwaits hEnds with
    ⟨hDone, hAll⟩
  exact ⟨hAll, hDone.definitions⟩

/- An accepted program is parsed, and resolved in silence. -/
theorem resolved_of_compile
    {l : Library}
    {source file : String}
    {r : Program}
    (hAccepted : compile l source file = .ok r) :
    ∃ p,
      parseProgram source file = .ok p ∧
        resolveProgram l p = (r, []) := by
  unfold compile at hAccepted
  cases hParse : parseProgram source file with
  | error ds =>
      rw [hParse] at hAccepted
      cases hAccepted
  | ok p =>
      rw [hParse] at hAccepted
      dsimp only [bind, Except.bind] at hAccepted
      split at hAccepted
      · rename_i resolved hResolved
        cases hAccepted
        exact ⟨p, rfl, hResolved⟩
      · cases hAccepted

/- All that is known of an accepted program. -/
theorem certified_of_compile
    {l : Library}
    {source file : String}
    {r : Program}
    (hAccepted : compile l source file = .ok r) :
    r.Obeys (.certified r.symbols (l.known r.imports)) ∧
      ((l.known r.imports).isErrorFree →
        r.symbols.IsErrorFree) := by
  rcases resolved_of_compile hAccepted with
    ⟨p, hParse, hResolved⟩
  have hCertified :=
    certified_of_silent hParse l
      (congrArg Prod.snd hResolved)
  rw [hResolved] at hCertified
  exact hCertified

------------------------------------------------------------
-- Rules
------------------------------------------------------------

section Rules

variable {y : Symbols}
variable {k : Known}

theorem imply_typing (hFree : k.isErrorFree) :
    (NodeRules.certified y k).Imply (.typing y k) where
  ofExpr _ := fun ⟨t, hSlot, _, hGives⟩ =>
    ⟨t, hSlot, (hGives hFree).2⟩
  ofMember _ := fun ⟨t, hSlot, _⟩ => ⟨t, hSlot⟩
  ofTypeExpr _ := And.left
  ofParameter _ := id
  ofVariable _ := id
  ofFunction _ := id

theorem imply_honest :
    (NodeRules.certified y k).Imply (.honest y) where
  ofExpr _ := fun ⟨t, hSlot, hHonest, _⟩ =>
    ⟨t, hSlot, hHonest⟩
  ofMember _ _ := trivial
  ofTypeExpr _ := And.left
  ofParameter _ _ := trivial
  ofVariable _ _ := trivial
  ofFunction _ := id

/- A slot that is filled without an error. -/
theorem slotErrorFree_of_some
    {slot : Option Ty}
    {t : Ty}
    (hSlot : slot = some t)
    (hFree : t.isErrorFree) :
    SlotErrorFree slot := by
  rintro s hOther
  cases hSlot.symm.trans hOther
  exact hFree

theorem imply_errorFree (hFree : k.isErrorFree) :
    (NodeRules.certified y k).Imply .errorFree where
  ofExpr _ := fun ⟨_, hSlot, _, hGives⟩ =>
    slotErrorFree_of_some hSlot (hGives hFree).1
  ofMember _ := fun ⟨_, hSlot, hOwn⟩ =>
    slotErrorFree_of_some hSlot (hOwn hFree)
  ofTypeExpr _ hBoth := hBoth.2 hFree
  ofParameter _ _ := trivial
  ofVariable _ _ := trivial
  ofFunction _ _ := trivial

end Rules

------------------------------------------------------------
-- Main results
------------------------------------------------------------

/-
  Silence means that a program is well typed: each node of an
  accepted program obeys the rule of its form, if there are no
  errors in what may be imported.
-/
theorem isWellTyped_of_compile
    {l : Library}
    {source file : String}
    {p : Program}
    (hLibrary : l.IsErrorFree)
    (hAccepted : compile l source file = .ok p) :
    p.IsWellTyped l := by
  have hFree :=
    Known.isErrorFree_of_library hLibrary p.imports
  exact (certified_of_compile hAccepted).1.imp
    (imply_typing hFree)

set_option maxRecDepth 2000 in
/-
  A recursive function with a default, assignments, and the
  call of a member.
-/
theorem isWellTyped_of_compile_console :
    ∃ p,
      Library.standard.IsErrorFree ∧
        compile .standard
            "import \"std/io\" { Console } fun f(x: int = 1) -> int { var z = x; z += f(z); Console.readLine(); z }"
            "main" = .ok p ∧
          p.IsWellTyped .standard := by
  have hLibrary := Library.isErrorFree_standard
  have hOk :
      (compile .standard
        "import \"std/io\" { Console } fun f(x: int = 1) -> int { var z = x; z += f(z); Console.readLine(); z }"
        "main").isOk := by
    cbv
  generalize hCompile : compile _ _ _ = r at hOk
  cases r with
  | error ds => cases hOk
  | ok p =>
      exact ⟨p, hLibrary, rfl,
        isWellTyped_of_compile hLibrary hCompile⟩

/-
  There is no silent failure: no error is hidden in the slots
  of an accepted program, and where one is found in a slot,
  something was reported.
-/
theorem isErrorFree_of_compile
    {l : Library}
    (hLibrary : l.IsErrorFree)
    (source file : String) :
    (∀ p, compile l source file = .ok p → p.IsErrorFree) ∧
      ∀ p,
        parseProgram source file = .ok p →
          ¬ (resolveProgram l p).1.IsErrorFree →
            (resolveProgram l p).2 ≠ [] := by
  constructor
  · intro p hAccepted
    have hFree :=
      Known.isErrorFree_of_library hLibrary p.imports
    rcases certified_of_compile hAccepted with
      ⟨hObeys, hSymbols⟩
    exact ⟨hObeys.imp (imply_errorFree hFree),
      hSymbols hFree⟩
  · intro p hParse hFound hSilent
    have hFree :=
      Known.isErrorFree_of_library hLibrary
        (resolveProgram l p).1.imports
    rcases certified_of_silent hParse l hSilent with
      ⟨hObeys, hSymbols⟩
    exact hFound ⟨hObeys.imp (imply_errorFree hFree),
      hSymbols hFree⟩

/- An unknown name leaves an error behind, and is reported. -/
theorem isErrorFree_of_compile_unknown :
    Library.standard.IsErrorFree ∧
      ∃ p,
        parseProgram "val x = y;" "main" = .ok p ∧
          ¬ (resolveProgram .standard p).1.IsErrorFree ∧
            (resolveProgram .standard p).2 ≠ [] := by
  have hLibrary := Library.isErrorFree_standard
  have hSlot :
      ∃ p,
        parseProgram "val x = y;" "main" = .ok p ∧
          (resolveProgram .standard p).1.symbols.type? 0 =
            some (.error "unresolved reference: y") := by
    refine ⟨?p, ?_, ?_⟩
    rotate_left
    · conv => lhs; cbv
    · rfl
  rcases hSlot with ⟨p, hParse, hType⟩
  have hFound :
      ¬ (resolveProgram .standard p).1.IsErrorFree :=
    fun hFree => Bool.false_ne_true (hFree.2 0 _ hType)
  have hBoth :=
    isErrorFree_of_compile hLibrary "val x = y;" "main"
  exact ⟨hLibrary, p, hParse, hFound, hBoth.2 p hParse hFound⟩

/-
  The types of functions are honest about what is declared:
  a value that is returned fits the declared type, which is
  the one that the function is known by.  A literal without
  a declared type is known by the type of its body, and a
  function with a name by `unit`.
-/
theorem honest_of_compile
    {l : Library}
    {source file : String}
    {p : Program}
    (hAccepted : compile l source file = .ok p) :
    p.Obeys (.honest p.symbols) :=
  (certified_of_compile hAccepted).1.imp imply_honest

/- A literal and a function with declared types. -/
theorem honest_of_compile_declared :
    ∃ p,
      compile .empty
          "val f = fun(x: int) -> int { return 2; x }; fun g() -> int { return 1; 2 }"
          "main" = .ok p ∧
        p.Obeys (.honest p.symbols) := by
  have hOk :
      (compile .empty
        "val f = fun(x: int) -> int { return 2; x }; fun g() -> int { return 1; 2 }"
        "main").isOk := by
    cbv
  generalize hCompile : compile _ _ _ = r at hOk
  cases r with
  | error ds => cases hOk
  | ok p => exact ⟨p, rfl, honest_of_compile hCompile⟩

/- What a literal of a function returns, and its own type. -/
def Declaration.returned :
    Declaration → Option (List (Option Ty) × Option Ty)
  | .property ⟨_, _, _, initializer, _, _⟩ =>
      match initializer with
      | some ⟨.function _ _ body _, _, type⟩ =>
          some (body.returns.map returnedType, type)
      | _ => none
  | .function _ => none

/-
  A literal without a declared type has the type of its
  body's last value, and an earlier return is not compared
  with it.
-/
theorem returns_unchecked_inferred :
    ∃ p v parameters returnType body scope span returned t,
      compile .empty
          "val f = fun(x: int) \x7b return \"a\"; x \x7d;" "main" =
          .ok p ∧
        .property v ∈ p.declarations ∧
          v.initializer =
              some
                ⟨.function parameters returnType body scope,
                  span, some (.function [.int] .int)⟩ ∧
            returned ∈ body.returns ∧
              returnedType returned = some t ∧
                Ty.int.accepts t = false := by
  have hReturned :
      (compile .empty
        "val f = fun(x: int) \x7b return \"a\"; x \x7d;"
        "main").map
        (fun p => p.declarations.map (·.returned)) =
        .ok
          [some ([some .string],
            some (.function [.int] .int))] := by
    cbv
  cases hCompile : compile .empty _ "main" with
  | error ds =>
      rw [hCompile] at hReturned
      cases hReturned
  | ok p =>
      rw [hCompile] at hReturned
      rcases List.map_eq_singleton_iff.1
          (Except.ok.inj hReturned) with
        ⟨d, hDeclarations, hDeclaration⟩
      have hMember : d ∈ p.declarations := by
        rw [hDeclarations]
        exact List.mem_singleton_self d
      unfold Declaration.returned at hDeclaration
      split at hDeclaration
      · split at hDeclaration
        · rename_i parameters returnType body scope span type
          have hBoth := Option.some.inj hDeclaration
          rcases List.map_eq_singleton_iff.1
              (congrArg Prod.fst hBoth) with
            ⟨returned, hReturns, hValue⟩
          cases congrArg Prod.snd hBoth
          have hReturned : returned ∈ body.returns := by
            rw [hReturns]
            exact List.mem_singleton_self returned
          exact ⟨p, _, parameters, returnType, body, scope,
            span, returned, .string, rfl, hMember, rfl,
            hReturned, hValue, by cbv⟩
        · cases hDeclaration
      · cases hDeclaration

end SourceCheck
