import Mathlib
import SourceCheck.Proofs.Resolution.Steadiness
import SourceCheck.Proofs.Resolution.Walks
import SourceCheck.Proofs.Safety.Resolving

/-
  The order of imports.

  What is imported is only looked up by names, and each name
  is imported once.  So entries may be followed in any order:
  two entries with different names commute, but for the order
  of what they report, and a walk over the declarations does
  the same in states that know the same.

  Key definitions include:
    * `Likening`
    * `Bounds.likeness`
    * `Reordered`
    * `SameButOrder`

  Key theorems include:
    * `likens_swap`
    * `likens_imported`
    * `sameButOrder_of_reordered`
-/

namespace SourceCheck

open SourceCheck.Resolver
open SourceCheck.ResolverProperty

------------------------------------------------------------
-- States that know the same
------------------------------------------------------------

/- How lists of reports are related, whatever follows. -/
structure Likening where
  relates : List Diagnostic → List Diagnostic → Prop
  reported :
    ∀ {ds es} (d : Diagnostic),
      relates ds es → relates (ds ++ [d]) (es ++ [d])

namespace Likening

/- The same was reported, in any order. -/
def anyOrder : Likening where
  relates ds es := ds.Perm es
  reported _ hPerm := hPerm.append_right _

/- The same was reported behind two other lists. -/
def behind (front front' : List Diagnostic) : Likening where
  relates ds es :=
    ∃ later, ds = front ++ later ∧ es = front' ++ later
  reported d := by
    rintro ⟨later, rfl, rfl⟩
    exact ⟨later ++ [d], List.append_assoc _ _ _,
      List.append_assoc _ _ _⟩

end Likening

namespace Bounds

variable {α β : Type}
variable {P : α → Prop}
variable {b : Bounds}
variable {L : Likening}
variable {z w : ResolverState}

/-
  Both states have the same definitions, which are within
  bounds, and know the same by names.
-/
structure Likens
    (b : Bounds)
    (L : Likening)
    (z w : ResolverState) :
    Prop where
  size_le : z.symbols.definitions.size ≤ b.definitions
  symbols_eq : z.symbols = w.symbols
  names : z.SameNames w
  reports : L.relates z.diagnostics w.diagnostics

/- Results are the same, and so is what the states know. -/
structure LikeOutcomes
    (b : Bounds)
    (L : Likening)
    (P : α → Prop)
    (x y : α × ResolverState) :
    Prop where
  same : x.1 = y.1
  holds : P x.1
  likens : b.Likens L x.2 y.2

/- From states that know the same it leads to the same. -/
def LikelyWith
    (b : Bounds)
    (L : Likening)
    (P : α → Prop)
    (p : Resolver α) :
    Prop :=
  ∀ z w,
    b.Likens L z w →
      b.LikeOutcomes L P (p.outcome z) (p.outcome w)

theorem likely_pure
    {a : α}
    (hResult : P a) :
    b.LikelyWith L P (pure a) :=
  fun _ _ hLikens => ⟨rfl, hResult, hLikens⟩

theorem LikelyWith.bind
    {Q : β → Prop}
    {p : Resolver α}
    {f : α → Resolver β}
    (hFirst : b.LikelyWith L P p)
    (hRest : ∀ a, P a → b.LikelyWith L Q (f a)) :
    b.LikelyWith L Q (p >>= f) := by
  intro z w hLikens
  have hBoth := hFirst z w hLikens
  rw [outcome_bind, outcome_bind, ← hBoth.same]
  exact hRest _ hBoth.holds _ _ hBoth.likens

theorem LikelyWith.imp
    {Q : α → Prop}
    {p : Resolver α}
    (hLikely : b.LikelyWith L P p)
    (hImp : ∀ a, P a → Q a) :
    b.LikelyWith L Q p := by
  intro z w hLikens
  have hBoth := hLikely z w hLikens
  exact ⟨hBoth.same, hImp _ hBoth.holds, hBoth.likens⟩

theorem likely_report
    (problem : Problem)
    (p : Position) :
    b.LikelyWith L (fun _ => True) (report problem p) :=
  fun _ _ hLikens =>
    ⟨rfl, trivial, hLikens.size_le, hLikens.symbols_eq,
      ⟨hLikens.names.types, hLikens.names.members⟩,
      L.reported ⟨problem, p⟩ hLikens.reports⟩

/- What is read of the symbols is the same. -/
theorem likely_symbols
    {f : ResolverState → Resolver α}
    (hSymbols : ∀ z w, z.symbols = w.symbols → f z = f w)
    (hRest : ∀ z, b.LikelyWith L P (f z)) :
    b.LikelyWith L P (get >>= f) := by
  intro z w hLikens
  rw [outcome_bind, outcome_bind, outcome_get, outcome_get,
    ← hSymbols z w hLikens.symbols_eq]
  exact hRest z z w hLikens

/- Only definitions that exist are found. -/
theorem likely_visible?
    (scope : ScopeId)
    (name : String)
    (p : Position) :
    b.LikelyWith L
      (fun found =>
        ∀ id, found = some id → id < b.definitions)
      (visible? scope name p) := by
  intro z w hLikens
  refine ⟨?_, fun id hFound => ?_, hLikens⟩
  · exact congrArg (·.findVisible? scope name p.offset)
      hLikens.symbols_eq
  · exact Nat.lt_of_lt_of_le (lt_of_findVisible? hFound)
      hLikens.size_le

theorem likely_definitionType
    (id : DefinitionId)
    (p : Position) :
    b.LikelyWith L (fun _ => True)
      (definitionType id p) := by
  refine likely_symbols (fun z w hSame => ?_) fun z => ?_
  · dsimp only
    rw [hSame]
  dsimp only
  cases z.symbols.type? id with
  | some type => exact likely_pure trivial
  | none =>
      exact (likely_report _ p).bind
        fun _ _ => likely_pure trivial

theorem likely_fillType
    (id : DefinitionId)
    (type : Ty) :
    b.LikelyWith L (fun _ => True) (fillType id type) :=
  fun z _ hLikens =>
    have hSize :=
      Nat.le_of_eq (size_fillType z.symbols id type)
    ⟨rfl, trivial, Nat.le_trans hSize hLikens.size_le,
      congrArg (·.fillType id type) hLikens.symbols_eq,
      ⟨hLikens.names.types, hLikens.names.members⟩,
      hLikens.reports⟩

theorem likely_checkDefinition
    (id : DefinitionId)
    (p : Position) :
    b.LikelyWith L (fun _ => True)
      (checkDefinition id p) := by
  refine likely_symbols (fun z w hSame => ?_) fun z => ?_
  · dsimp only
    rw [hSame]
  dsimp only
  split
  · exact likely_report _ p
  · split
    · exact likely_report _ p
    · exact likely_pure trivial

/- Resolvers read names by looking them up only. -/
def likeness (b : Bounds) (L : Likening) :
    ResolverProperty b where
  holds := b.LikelyWith L
  ofPure := likely_pure
  ofBind := LikelyWith.bind
  ofImp := LikelyWith.imp
  ofReport := likely_report
  ofNames := by
    intro α P f hNames hRest z w hLikens
    rw [outcome_bind, outcome_bind, outcome_get,
      outcome_get, ← hNames z w hLikens.names]
    exact hRest z z w hLikens
  ofRename hTypes hMembers := fun _ _ hLikens =>
    ⟨rfl, trivial,
      { hLikens with
        names :=
          ⟨hTypes hLikens.names.types,
            hMembers hLikens.names.members⟩ }⟩
  ofVisible _ _ name := likely_visible? _ name _
  ofDefinitionType _ p := likely_definitionType _ p
  ofIsResolved _ :=
    likely_symbols (fun _ _ hSame => by rw [hSame])
      fun _ => likely_pure trivial
  ofFillType _ type := likely_fillType _ type
  ofCheckDefinition _ p := likely_checkDefinition _ p

end Bounds

------------------------------------------------------------
-- Entries of imports
------------------------------------------------------------

section Entries

variable {library : Library}
variable {path : String}
variable {entry : ImportEntry}
variable {z w v : ResolverState}

namespace Library

/- The members of an entry that names no type. -/
def membersFor
    (library : Library)
    (path : String)
    (entry : ImportEntry) :
    List Member :=
  match library.type? path entry.name with
  | some _ => []
  | none => library.members path entry.name

/- What is reported of an entry, by whether it is known. -/
def reportsFor
    (library : Library)
    (path : String)
    (entry : ImportEntry)
    (isKnown : Bool) :
    List Diagnostic :=
  match library.type? path entry.name with
  | some _ =>
      if isKnown then
        [⟨.importRedefinition entry.localName,
          entry.span.start⟩]
      else
        []
  | none =>
      if library.members path entry.name = [] then
        [⟨.importNotFound path entry.name,
          entry.span.start⟩]
      else
        []

end Library

/-
  All that an entry changes is what its own name stands for,
  and what is reported.
-/
structure FollowsEntry
    (library : Library)
    (path : String)
    (entry : ImportEntry)
    (z w : ResolverState) :
    Prop where
  symbols_eq : w.symbols = z.symbols
  written :
    ∀ text,
      w.types.findWritten? text = z.types.findWritten? text
  named :
    ∀ name,
      w.types.find? name =
        if name = entry.localName then
          (z.types.find? name).or
            (library.type? path entry.name)
        else
          z.types.find? name
  members :
    ∀ name,
      w.members.find name =
        if name = entry.localName then
          z.members.find name ++
            library.membersFor path entry
        else
          z.members.find name
  reports :
    w.diagnostics =
      z.diagnostics ++
        library.reportsFor path entry
          (z.types.contains entry.localName)

/- An entry of a type gives it its name, if that is free. -/
theorem follows_importType
    {type : Ty}
    (hType : library.type? path entry.name = some type)
    (z : ResolverState) :
    FollowsEntry library path entry z
      ((importType entry type).outcome z).2 := by
  have hNone : library.membersFor path entry = [] := by
    unfold Library.membersFor
    rw [hType]
  have hMembers (name : String) :
      z.members.find name =
        if name = entry.localName then
          z.members.find name ++
            library.membersFor path entry
        else
          z.members.find name := by
    rw [hNone, List.append_nil, ite_self]
  rw [importType_eq, outcome_bind, outcome_get]
  dsimp only
  cases hKnown : z.types.contains entry.localName with
  | true =>
      rw [if_pos rfl]
      refine ⟨rfl, fun _ => rfl, fun name => ?_, hMembers,
        ?_⟩
      · split
        · rename_i hName
          rw [hName]
          exact (Option.or_of_isSome hKnown).symm
        · rfl
      · unfold Library.reportsFor
        rw [hType, hKnown]
        rfl
  | false =>
      rw [if_neg Bool.false_ne_true]
      refine ⟨rfl, fun _ => rfl, fun name => ?_, hMembers,
        ?_⟩
      · refine (TypeNames.find?_withName _ _ _ _).trans ?_
        split
        · rename_i hName
          have hFree : z.types.find? name = none := by
            rw [hName]
            exact Option.isSome_eq_false_iff.1 hKnown |>
              Option.isNone_iff_eq_none.1
          rw [hFree, hType]
          rfl
        · rfl
      · unfold Library.reportsFor
        rw [hType, hKnown]
        exact (List.append_nil _).symm

/- Other entries give their names to members. -/
theorem follows_importEntry
    (library : Library)
    (path : String)
    (entry : ImportEntry)
    (z : ResolverState) :
    FollowsEntry library path entry z
      ((importEntry library path entry).outcome z).2 := by
  unfold importEntry
  cases hType : library.type? path entry.name with
  | some type => exact follows_importType hType z
  | none =>
      have hFound :
          library.membersFor path entry =
            library.members path entry.name := by
        unfold Library.membersFor
        rw [hType]
      have hNamed (name : String) :
          z.types.find? name =
            if name = entry.localName then
              (z.types.find? name).or
                (library.type? path entry.name)
            else
              z.types.find? name := by
        rw [hType, Option.or_none, ite_self]
      dsimp only
      cases hMembers : library.members path entry.name with
      | nil =>
          refine ⟨rfl, fun _ => rfl, hNamed, fun name => ?_,
            ?_⟩
          · rw [hFound, hMembers, List.append_nil, ite_self]
            rfl
          · unfold Library.reportsFor
            rw [hType, hMembers]
            rfl
      | cons m ms =>
          refine ⟨rfl, fun _ => rfl, hNamed, fun name => ?_,
            ?_⟩
          · rw [hFound, hMembers]
            exact MemberNames.find_withMembers _ _ _ _
          · unfold Library.reportsFor
            rw [hType, hMembers]
            exact (List.append_nil _).symm

/- A name that another entry follows is known as before. -/
theorem FollowsEntry.contains_eq
    (hFollows : FollowsEntry library path entry z w)
    {name : String}
    (hOther : name ≠ entry.localName) :
    w.types.contains name = z.types.contains name := by
  unfold TypeNames.contains
  rw [hFollows.named, if_neg hOther]

/-
  Entries with different names commute, but for the order of
  what they report.
-/
theorem likens_swap
    {b : Bounds}
    {path' : String}
    {entry' : ImportEntry}
    {w' v' : ResolverState}
    (hSize : z.symbols.definitions.size ≤ b.definitions)
    (hNames : entry.localName ≠ entry'.localName)
    (hFirst : FollowsEntry library path entry z w)
    (hThen : FollowsEntry library path' entry' w w')
    (hOther : FollowsEntry library path' entry' z v)
    (hThenOther : FollowsEntry library path entry v v') :
    b.Likens .anyOrder w' v' where
  size_le := by
    rw [hThen.symbols_eq, hFirst.symbols_eq]
    exact hSize
  symbols_eq := by
    rw [hThen.symbols_eq, hFirst.symbols_eq,
      hThenOther.symbols_eq, hOther.symbols_eq]
  names := by
    refine ⟨⟨fun name => ?_, fun text => ?_⟩,
      ⟨fun name => ?_⟩⟩
    · rw [hThen.named, hFirst.named, hThenOther.named,
        hOther.named]
      by_cases hName : name = entry.localName
      · rw [if_pos hName, if_pos hName,
          if_neg (hName.trans_ne hNames),
          if_neg (hName.trans_ne hNames)]
      · rw [if_neg hName, if_neg hName]
    · rw [hThen.written, hFirst.written, hThenOther.written,
        hOther.written]
    · rw [hThen.members, hFirst.members, hThenOther.members,
        hOther.members]
      by_cases hName : name = entry.localName
      · rw [if_pos hName, if_pos hName,
          if_neg (hName.trans_ne hNames),
          if_neg (hName.trans_ne hNames)]
      · rw [if_neg hName, if_neg hName]
  reports := by
    change w'.diagnostics.Perm v'.diagnostics
    rw [hThen.reports, hFirst.reports, hThenOther.reports,
      hOther.reports, hFirst.contains_eq hNames.symm,
      hOther.contains_eq hNames, List.append_assoc,
      List.append_assoc]
    exact List.perm_append_comm.append_left _

end Entries

------------------------------------------------------------
-- All imports
------------------------------------------------------------

/- The entries that are followed, each with its path. -/
def pending (imports : List Import) :
    List (String × ImportEntry) :=
  imports.flatMap fun i =>
    if i.isResolved then []
    else i.entries.map fun e => (i.path, e)

/- The state behind the entries. -/
def imported
    (library : Library)
    (entries : List (String × ImportEntry))
    (z : ResolverState) :
    ResolverState :=
  entries.foldl
    (fun z x => ((importEntry library x.1 x.2).outcome z).2)
    z

/- An import whose names are known. -/
def Import.marked (i : Import) : Import :=
  { i with isResolved := true }

section Imports

variable {b : Bounds}
variable {L : Likening}

theorem imported_entries
    (library : Library)
    (path : String)
    (entries : List ImportEntry)
    (z : ResolverState) :
    imported library (entries.map fun e => (path, e)) z =
      ((entries.forM (importEntry library path)).outcome
        z).2 := by
  induction entries generalizing z with
  | nil => rfl
  | cons e entries ih => exact ih _

/- Imports are marked, and followed if they were not. -/
theorem outcome_imports
    (library : Library)
    (imports : List Import)
    (z : ResolverState) :
    (imports.mapM (resolveImport library)).outcome z =
      (imports.map Import.marked,
        imported library (pending imports) z) := by
  induction imports generalizing z with
  | nil => rfl
  | cons i imports ih =>
      have hFirst :
          (resolveImport library i).outcome z =
            (i.marked,
              imported library (pending [i]) z) := by
        unfold resolveImport pending
        rw [List.flatMap_singleton]
        cases hMarked : i.isResolved with
        | true =>
            have hSame : i.marked = i := by
              unfold Import.marked
              rw [← hMarked]
            rw [hSame]
            rfl
        | false =>
            rw [if_neg Bool.false_ne_true,
              if_neg Bool.false_ne_true, imported_entries]
            rfl
      have hSplit :
          pending (i :: imports) =
            pending [i] ++ pending imports := by
        unfold pending
        rw [List.flatMap_cons, List.flatMap_singleton]
      rw [List.mapM_cons, outcome_bind, hFirst]
      dsimp only
      rw [outcome_bind, ih, hSplit]
      unfold imported
      rw [List.foldl_append]
      rfl

/- An entry does the same in states that know the same. -/
theorem Bounds.Likens.importEntry
    {z w : ResolverState}
    (hLikens : b.Likens L z w)
    (library : Library)
    (path : String)
    (entry : ImportEntry) :
    b.Likens L
      ((Resolver.importEntry library path entry).outcome
        z).2
      ((Resolver.importEntry library path entry).outcome
        w).2 :=
  (holds_importEntry (R := b.likeness L) library path entry
    z w hLikens).likens

theorem Bounds.Likens.imported
    {z w : ResolverState}
    (hLikens : b.Likens L z w)
    (library : Library)
    (entries : List (String × ImportEntry)) :
    b.Likens L (SourceCheck.imported library entries z)
      (SourceCheck.imported library entries w) := by
  induction entries generalizing z w with
  | nil => exact hLikens
  | cons x entries ih =>
      exact ih (hLikens.importEntry library x.1 x.2)

/- What may be in any order may be so twice. -/
theorem Bounds.Likens.trans
    {z w v : ResolverState}
    (hFirst : b.Likens .anyOrder z w)
    (hSecond : b.Likens .anyOrder w v) :
    b.Likens .anyOrder z v where
  size_le := hFirst.size_le
  symbols_eq := hFirst.symbols_eq.trans hSecond.symbols_eq
  names :=
    { types :=
        { named := fun name =>
            (hFirst.names.types.named name).trans
              (hSecond.names.types.named name)
          written := fun text =>
            (hFirst.names.types.written text).trans
              (hSecond.names.types.written text) }
      members :=
        { found := fun name =>
            (hFirst.names.members.found name).trans
              (hSecond.names.members.found name) } }
  reports := List.Perm.trans hFirst.reports hSecond.reports

/- What is reported later is the same, in the same order. -/
theorem Bounds.Likens.behind
    {z w : ResolverState}
    (hLikens : b.Likens .anyOrder z w) :
    b.Likens (.behind z.diagnostics w.diagnostics) z w :=
  { hLikens with
    reports :=
      ⟨[], (List.append_nil _).symm,
        (List.append_nil _).symm⟩ }

/-
  Entries with names of their own are followed in any order.
  The induction is on the permutation, whose swaps change
  neighbours.
-/
theorem likens_imported
    (library : Library)
    {xs ys : List (String × ImportEntry)}
    (hPerm : xs.Perm ys)
    (hDistinct : (xs.map (·.2.localName)).Nodup)
    {z w : ResolverState}
    (hLikens : b.Likens .anyOrder z w) :
    b.Likens .anyOrder (imported library xs z)
      (imported library ys w) := by
  induction hPerm generalizing z w with
  | nil => exact hLikens
  | cons x _ ih =>
      exact ih (List.nodup_cons.1 hDistinct).2
        (hLikens.importEntry library x.1 x.2)
  | swap x y rest =>
      have hNames :
          y.2.localName ≠ x.2.localName := by
        intro hSame
        exact (List.nodup_cons.1 hDistinct).1
          (List.mem_cons.2 (.inl hSame))
      have hSwap :=
        likens_swap (b := b) hLikens.size_le hNames
          (follows_importEntry library y.1 y.2 z)
          (follows_importEntry library x.1 x.2 _)
          (follows_importEntry library x.1 x.2 z)
          (follows_importEntry library y.1 y.2 _)
      have hBoth :=
        (hLikens.importEntry library x.1 x.2).importEntry
          library y.1 y.2
      exact (hSwap.trans hBoth).imported library rest
  | trans hFirst hSecond ih ih' =>
      have hMiddle :=
        ((hFirst.map (·.2.localName)).nodup_iff).1 hDistinct
      have hRefl : b.Likens .anyOrder w w :=
        ⟨hLikens.symbols_eq ▸ hLikens.size_le, rfl,
          .of_eq rfl rfl, .refl _⟩
      exact (ih hDistinct hLikens).trans (ih' hMiddle hRefl)

end Imports

------------------------------------------------------------
-- Imports in another order
------------------------------------------------------------

/- Two imports of the same entries, in any order. -/
structure Import.SameEntries (i j : Import) : Prop where
  path : i.path = j.path
  span : i.span = j.span
  isResolved : i.isResolved = j.isResolved
  entries : i.entries.Perm j.entries

/- The same imports in another order, and their entries. -/
def Reordered (imports others : List Import) : Prop :=
  ∃ between,
    List.Forall₂ Import.SameEntries imports between ∧
      between.Perm others

/- What is reported of the imports of a program. -/
def importReports
    (library : Library)
    (p : Program) :
    List Diagnostic :=
  ((p.imports.mapM (resolveImport library)).run
    (.start p.symbols)).2.diagnostics

/-
  Two programs are the same when they are resolved, but for
  the order of imports and of what is reported of them.
-/
structure SameButOrder
    (library : Library)
    (p q : Program) :
    Prop where
  imports :
    Reordered (resolveProgram library p).1.imports
      (resolveProgram library q).1.imports
  declarations :
    (resolveProgram library p).1.declarations =
      (resolveProgram library q).1.declarations
  symbols :
    (resolveProgram library p).1.symbols =
      (resolveProgram library q).1.symbols
  importReports :
    (importReports library p).Perm (importReports library q)
  reports :
    ∃ later,
      (resolveProgram library p).2 =
          SourceCheck.importReports library p ++ later ∧
        (resolveProgram library q).2 =
          SourceCheck.importReports library q ++ later

section Reordered

variable {imports others : List Import}

/- The same entries are followed. -/
theorem Reordered.pending
    (hReordered : Reordered imports others) :
    (pending imports).Perm (pending others) := by
  obtain ⟨between, hSame, hPerm⟩ := hReordered
  refine List.Perm.trans ?_ (hPerm.flatMap_right _)
  clear hPerm
  induction hSame with
  | nil => exact .refl _
  | cons hHead _ ih =>
      refine List.Perm.append ?_ ih
      dsimp only
      rw [hHead.isResolved, hHead.path]
      split
      · exact .refl _
      · exact hHead.entries.map _

/- Marked imports are reordered in the same way. -/
theorem Reordered.marked
    (hReordered : Reordered imports others) :
    Reordered (imports.map Import.marked)
      (others.map Import.marked) := by
  obtain ⟨between, hSame, hPerm⟩ := hReordered
  refine ⟨between.map Import.marked, ?_, hPerm.map _⟩
  refine List.forall₂_map_left_iff.2
    (List.forall₂_map_right_iff.2 ?_)
  exact hSame.imp fun i j hEach =>
    ⟨hEach.path, hEach.span, rfl, hEach.entries⟩

/- Only entries that are there are followed. -/
theorem pending_sublist (imports : List Import) :
    ((pending imports).map (·.2)).Sublist
      (imports.flatMap (·.entries)) := by
  induction imports with
  | nil => exact .slnil
  | cons i imports ih =>
      unfold pending
      rw [List.flatMap_cons, List.flatMap_cons,
        List.map_append]
      refine List.Sublist.append ?_ ih
      split
      · exact List.nil_sublist _
      · rw [List.map_map]
        change (i.entries.map id).Sublist i.entries
        rw [List.map_id]

end Reordered

/- A program is resolved behind the entries it imports. -/
theorem resolveProgram_imported
    (library : Library)
    (p : Program) :
    resolveProgram library p =
      let r :=
        (p.declarations.mapM
          (resolveDeclaration
            (Surroundings.nowhere.within p.scope))).outcome
          (imported library (pending p.imports)
            (.start p.symbols))
      ({ p with
          imports := p.imports.map Import.marked
          declarations := r.1
          symbols := r.2.symbols },
        r.2.diagnostics) := by
  let m :=
    (p.imports.mapM (resolveImport library)).outcome
      (.start p.symbols)
  let r :=
    (p.declarations.mapM
      (resolveDeclaration
        (Surroundings.nowhere.within p.scope))).outcome m.2
  have hRun :
      resolveProgram library p =
        ({ p with
            imports := m.1
            declarations := r.1
            symbols := r.2.symbols },
          r.2.diagnostics) :=
    rfl
  have hImports :
      m =
        (p.imports.map Import.marked,
          imported library (pending p.imports)
            (.start p.symbols)) :=
    outcome_imports library p.imports _
  rw [hRun]
  subst r
  rw [hImports]

theorem importReports_eq
    (library : Library)
    (p : Program) :
    importReports library p =
      (imported library (pending p.imports)
        (.start p.symbols)).diagnostics :=
  congrArg (·.2.diagnostics) (outcome_imports library _ _)

/-
  If all entries have names of their own, then the order of
  imports, and of the entries in them, does not matter.
-/
theorem sameButOrder_of_reordered
    {source file : String}
    {p : Program}
    (hAccepted : parseProgram source file = .ok p)
    (hDistinct :
      ((p.imports.flatMap (·.entries)).map
        (·.localName)).Nodup)
    {others : List Import}
    (hReordered : Reordered p.imports others)
    (library : Library) :
    SameButOrder library p
      { p with imports := others } := by
  obtain ⟨b, hFits, hScope, hBounded⟩ :=
    exists_fits_of_parseProgram hAccepted
  have hStart :
      b.Likens .anyOrder (.start p.symbols)
        (.start p.symbols) :=
    ⟨Nat.le_of_eq hFits.size_eq, rfl, .of_eq rfl rfl,
      .refl _⟩
  have hNames :
      ((pending p.imports).map (·.2.localName)).Nodup := by
    have hLess :=
      (pending_sublist p.imports).map (·.localName)
    rw [List.map_map] at hLess
    exact hDistinct.sublist hLess
  have hImports :=
    likens_imported library hReordered.pending hNames hStart
  have hWalk :=
    holds_declarations (R := b.likeness (.behind _ _))
      (.within hScope Surroundings.nowhere) hBounded _ _
      hImports.behind
  let q : Program := { p with imports := others }
  have hOther := resolveProgram_imported library q
  have hReports := importReports_eq library q
  constructor
  · rw [resolveProgram_imported, hOther]
    exact hReordered.marked
  · rw [resolveProgram_imported, hOther]
    exact hWalk.same
  · rw [resolveProgram_imported, hOther]
    exact hWalk.likens.symbols_eq
  · rw [importReports_eq, hReports]
    exact hImports.reports
  · rw [resolveProgram_imported, hOther, importReports_eq,
      hReports]
    exact hWalk.likens.reports

/- Members and a type are imported, and two in vain. -/
def importingSource : String :=
  "import \"std/io\" { print, Console } import \"a\" { b, int } fun f() { print(Console); }"

/- The imports and their entries from back to front. -/
def backwards (imports : List Import) : List Import :=
  (imports.map fun i =>
    { i with entries := i.entries.reverse }).reverse

theorem reordered_backwards (imports : List Import) :
    Reordered imports (backwards imports) := by
  refine ⟨_, ?_, (List.reverse_perm _).symm⟩
  refine List.forall₂_map_right_iff.2
    (List.forall₂_same.2 fun i _ => ?_)
  exact ⟨rfl, rfl, rfl, (List.reverse_perm _).symm⟩

set_option maxRecDepth 2000 in
theorem exists_importing :
    ∃ p,
      parseProgram importingSource "main" = .ok p ∧
        ((p.imports.flatMap (·.entries)).map
          (·.localName)).Nodup ∧
        importReports .standard p ≠
          importReports .standard
            { p with imports := backwards p.imports } := by
  refine ⟨?p, ?_, ?_⟩
  rotate_left
  · conv => lhs; cbv
  · decide +kernel

/- What is in vain is reported from back to front. -/
theorem sameButOrder_of_reordered_backwards :
    ∃ p,
      parseProgram importingSource "main" = .ok p ∧
        ((p.imports.flatMap (·.entries)).map
          (·.localName)).Nodup ∧
        Reordered p.imports (backwards p.imports) ∧
        importReports .standard p ≠
          importReports .standard
            { p with imports := backwards p.imports } ∧
        SameButOrder .standard p
          { p with imports := backwards p.imports } := by
  obtain ⟨p, hAccepted, hDistinct, hOther⟩ :=
    exists_importing
  have hReordered := reordered_backwards p.imports
  exact ⟨p, hAccepted, hDistinct, hReordered, hOther,
    sameButOrder_of_reordered hAccepted hDistinct hReordered
      .standard⟩

end SourceCheck
