import Mathlib
import SourceCheck.Proofs.Resolution.Steadiness
import SourceCheck.Proofs.Resolution.Walks
import SourceCheck.Proofs.Syntax.Appending
import SourceCheck.Proofs.Syntax.Proper

/-
  Declarations behind others: what a program declares first
  is read and resolved as if nothing came later.

  Key definitions include:
    * `resolveLists`
    * `Program.StartsAs`

  Key theorems include:
    * `findVisible?_of_leads`
    * `Continues.startsAs_resolved`
    * `startsAs_of_appended`
-/

namespace SourceCheck

open SourceCheck.Parser
open SourceCheck.ParserState
open SourceCheck.ResolverProperty

variable {s t u : ParserState}

------------------------------------------------------------
-- Names in longer texts
------------------------------------------------------------

section Lookup

variable {bs : List Binding}
variable {scope : ScopeId}
variable {b offset : Nat}

/- Older definitions stay as they are. -/
theorem ParserState.Leads.getElem?_eq
    (hLeads : s.Leads t bs)
    {id : DefinitionId}
    (hOld : id < s.defined) :
    t.symbols.definitions[id]? =
      s.symbols.definitions[id]? := by
  rcases hLeads.definitions with ⟨new, hNew, -⟩
  rw [← Array.getElem?_toList, ← Array.getElem?_toList,
    hNew, List.getElem?_append_left]
  exact hOld

theorem isVisible_of_leads
    (hLeads : s.Leads t bs)
    {id : DefinitionId}
    (hOld : id < s.defined)
    (offset : Nat) :
    t.symbols.isVisible offset id =
      s.symbols.isVisible offset id := by
  unfold Symbols.isVisible
  rw [hLeads.getElem?_eq hOld]

/- The same is bound, and may be seen from the same places. -/
theorem shown_of_local?_eq
    (hProper : s.Proper)
    (hLeads : s.Leads t bs)
    {name : String}
    (hLocal :
      t.symbols.local? scope name =
        s.symbols.local? scope name)
    (offset : Nat) :
    (t.symbols.local? scope name).filter
        (t.symbols.isVisible offset) =
      (s.symbols.local? scope name).filter
        (s.symbols.isVisible offset) := by
  rw [hLocal]
  cases hFound : s.symbols.local? scope name with
  | none => rfl
  | some id =>
      have hOld := hProper.bound_lt scope name id hFound
      have hSame := isVisible_of_leads hLeads hOld offset
      rw [Option.filter_some, Option.filter_some, hSame]

/- A name that is bound once is not bound before. -/
theorem lookup_eq_none_of_nodup
    {old : List Binding}
    {name : String}
    {id : DefinitionId}
    (hNodup : ((bs.reverse ++ old).map Prod.fst).Nodup)
    (hMember : (name, id) ∈ bs) :
    old.lookup name = none := by
  rw [List.map_append, List.nodup_append] at hNodup
  refine List.lookup_eq_none_iff.2 fun x hOld => ?_
  have hNe :=
    hNodup.2.2 name
      (List.mem_map_of_mem (List.mem_reverse.2 hMember)) x.1
      (List.mem_map_of_mem hOld)
  exact bne_iff_ne.2 hNe

/-
  In front of the names that are declared later an older
  scope shows what it showed.
-/
theorem shown_of_leads
    (hProper : s.Proper)
    (hLeads : s.Leads t bs)
    (hNodup :
      ∀ scope old,
        s.scopes.head? = some scope →
          s.symbols.scopes[scope]? = some old →
            (old.bindings.map Prod.fst).Nodup)
    (hHidden : t.symbols.Hidden b bs)
    (hScope : scope < s.symbols.scopes.size)
    (hOffset : offset < b)
    (name : String) :
    (t.symbols.local? scope name).filter
        (t.symbols.isVisible offset) =
      (s.symbols.local? scope name).filter
        (s.symbols.isVisible offset) := by
  by_cases hHead : s.scopes.head? = some scope
  · have hOld := Array.getElem?_eq_getElem hScope
    generalize s.symbols.scopes[scope] = old at hOld
    have hNew := hLeads.innermost scope old hHead hOld
    have hBoth :=
      hLeads.nodup scope old hHead hOld
        (hNodup scope old hHead hOld)
    have hLocal :
        t.symbols.local? scope name =
          (bs.reverse.lookup name).or
            (s.symbols.local? scope name) := by
      unfold Symbols.local?
      rw [hNew, hOld, Option.bind_some, Option.bind_some]
      exact List.lookup_append
    cases hFound : bs.reverse.lookup name with
    | none =>
        rw [hFound, Option.none_or] at hLocal
        exact shown_of_local?_eq hProper hLeads hLocal offset
    | some id =>
        rcases List.lookup_eq_some_iff.1 hFound with
          ⟨front, back, hSplit, -⟩
        have hMember : (name, id) ∈ bs := by
          rw [← List.mem_reverse, hSplit]
          simp
        have hNone : s.symbols.local? scope name = none := by
          unfold Symbols.local?
          rw [hOld]
          exact lookup_eq_none_of_nodup hBoth hMember
        rcases hHidden _ hMember with
          ⟨v, ⟨d, hDefinition, hVisible⟩, hLate⟩
        have hUnseen :
            t.symbols.isVisible offset id = false := by
          unfold Symbols.isVisible
          rw [hDefinition]
          simp only [hVisible, decide_eq_false_iff_not]
          omega
        rw [hLocal, hFound, hNone, Option.or_none,
          Option.filter_some, hUnseen]
        rfl
  · refine shown_of_local?_eq hProper hLeads ?_ offset
    unfold Symbols.local?
    rw [hLeads.others scope hScope hHead]

/- Older scopes lie where they lay. -/
theorem parent?_of_leads
    (hLeads : s.Leads t bs)
    (hScope : scope < s.symbols.scopes.size) :
    t.symbols.parent? scope = s.symbols.parent? scope := by
  unfold Symbols.parent?
  by_cases hHead : s.scopes.head? = some scope
  · have hOld := Array.getElem?_eq_getElem hScope
    rw [hLeads.innermost scope _ hHead hOld, hOld]
    rfl
  · rw [hLeads.others scope hScope hHead]

/-
  Chains of older scopes show the same in front of what is
  declared later.  Scopes lie in older ones, so that all of a
  chain is old, and neither chain is cut off.
-/
theorem findSome?_chainOf_of_leads
    (hProper : s.Proper)
    (hLeads : s.Leads t bs)
    (hNodup :
      ∀ scope old,
        s.scopes.head? = some scope →
          s.symbols.scopes[scope]? = some old →
            (old.bindings.map Prod.fst).Nodup)
    (hHidden : t.symbols.Hidden b bs)
    (hOffset : offset < b)
    (name : String)
    (m n : Nat)
    (inner : Option ScopeId)
    (hSteps :
      ∀ i,
        inner = some i →
          i < m ∧ i < n ∧ i < s.symbols.scopes.size) :
    ((t.symbols.chainOf m inner).findSome? fun i =>
        (t.symbols.local? i name).filter
          (t.symbols.isVisible offset)) =
      (s.symbols.chainOf n inner).findSome? fun i =>
        (s.symbols.local? i name).filter
          (s.symbols.isVisible offset) := by
  induction m generalizing n inner with
  | zero =>
      cases inner with
      | none =>
          cases n with
          | zero => rfl
          | succ n => rfl
      | some i => exact absurd (hSteps i rfl).1 nofun
  | succ m ih =>
      cases inner with
      | none =>
          cases n with
          | zero => rfl
          | succ n => rfl
      | some i =>
          rcases hSteps i rfl with ⟨hFirst, hSecond, hOld⟩
          cases n with
          | zero => exact absurd hSecond nofun
          | succ n =>
              have hOuter :=
                ih n (s.symbols.parent? i) fun j hParent =>
                  have hLess := hProper.parent_lt i j hParent
                  ⟨Nat.lt_of_lt_of_le hLess
                      (Nat.le_of_lt_succ hFirst),
                    Nat.lt_of_lt_of_le hLess
                      (Nat.le_of_lt_succ hSecond),
                    Nat.lt_trans hLess hOld⟩
              unfold Symbols.chainOf
              rw [List.findSome?_cons, List.findSome?_cons,
                shown_of_leads hProper hLeads hNodup hHidden
                  hOld hOffset name,
                parent?_of_leads hLeads hOld, hOuter]

/-
  A name in an older scope is bound as before, wherever it
  stands in front of what is declared later.
-/
theorem findVisible?_of_leads
    (hProper : s.Proper)
    (hLeads : s.Leads t bs)
    (hNodup :
      ∀ scope old,
        s.scopes.head? = some scope →
          s.symbols.scopes[scope]? = some old →
            (old.bindings.map Prod.fst).Nodup)
    (hHidden : t.symbols.Hidden b bs)
    (hScope : scope < s.symbols.scopes.size)
    (hOffset : offset < b)
    (name : String) :
    t.symbols.findVisible? scope name offset =
      s.symbols.findVisible? scope name offset := by
  refine findSome?_chainOf_of_leads hProper hLeads hNodup
    hHidden hOffset name _ _ (some scope) ?_
  rintro _ ⟨⟩
  exact ⟨Nat.lt_of_lt_of_le hScope hLeads.size_le, hScope,
    hScope⟩

end Lookup

------------------------------------------------------------
-- States of longer programs
------------------------------------------------------------

namespace Continues

variable {source file : String}
variable {p q : Program}
variable {x : Splice}
variable {later : List Declaration}

/- What is declared in the first text. -/
theorem leads
    (hContinues : Continues source file p q t u x later v) :
    (ParserState.initial source file).opened.Leads u
      (p.declarations.flatMap Declaration.bindings) :=
  have hImports :=
    hContinues.imports.leads
      (regular_initial source file).opened
  hImports.trans
    (hContinues.declarations.leads hImports.regular)

/- What is declared behind it. -/
theorem leads_later
    (hContinues : Continues source file p q t u x later v) :
    (u.spliced x).Leads v
      (later.flatMap Declaration.bindings) :=
  hContinues.more.leads hContinues.regular

/- The scope of the program is open in between. -/
theorem head_eq
    (hContinues : Continues source file p q t u x later v) :
    (u.spliced x).scopes.head? = some p.scope := by
  have hScopes :
      (u.spliced x).scopes =
        (ParserState.initial source file).opened.scopes :=
    hContinues.leads.scopes_eq
  rw [hScopes, hContinues.scope_eq]
  rfl

/- The first text declares each name once. -/
theorem nodup
    (hContinues : Continues source file p q t u x later v)
    (scope : ScopeId)
    (old : Scope)
    (hHead : (u.spliced x).scopes.head? = some scope)
    (hOld : (u.spliced x).symbols.scopes[scope]? = some old) :
    (old.bindings.map Prod.fst).Nodup := by
  have hEmpty :
      (ParserState.initial source
          file).opened.symbols.scopes[p.scope]? =
        some ⟨none, []⟩ := by
    rw [hContinues.scope_eq]
    rfl
  have hOpen :
      (ParserState.initial source file).opened.scopes.head? =
        some p.scope := by
    rw [hContinues.scope_eq]
    rfl
  have hBound := hContinues.leads.innermost _ _ hOpen hEmpty
  have hNodup :=
    hContinues.leads.nodup _ _ hOpen hEmpty List.nodup_nil
  cases hContinues.head_eq.symm.trans hHead
  cases hBound.symm.trans hOld
  exact hNodup

/- What is declared later shows behind the first text only. -/
theorem hidden
    (hContinues : Continues source file p q t u x later v) :
    v.symbols.Hidden u.reach
      (later.flatMap Declaration.bindings) := by
  have hCompletes : v.symbols.Completes v :=
    ⟨⟨[], (List.append_nil _).symm⟩, fun _ _ _ => rfl⟩
  have hDated :=
    (hContinues.more.resolved
      ⟨hContinues.regular, hContinues.head_eq,
        hCompletes⟩).dated
  exact hDated.hidden.mono hContinues.regular.reach_le_offset

/- The bounds of the first text. -/
def firstBounds (u : ParserState) : Bounds where
  offset := u.reach
  scopes := u.symbols.scopes.size
  first := 0
  definitions := u.defined

/- The bounds of a text whose first definitions are given. -/
def laterBounds (first : Nat) (v : ParserState) : Bounds where
  offset := v.reach
  scopes := v.symbols.scopes.size
  first := first
  definitions := v.defined

/- Both programs are the same within the first text. -/
theorem agrees
    (hContinues : Continues source file p q t u x later v) :
    (firstBounds u).Agrees (.start p.symbols)
      (.start q.symbols) where
  size_le := by
    rw [hContinues.symbols_eq]
    exact Nat.le_refl _
  definitions_eq id hLess := by
    rw [hContinues.symbols_eq, hContinues.extended_eq]
    exact hContinues.leads_later.getElem?_eq hLess
  found_eq scope name offset hScope hOffset := by
    have hProper : u.Proper :=
      hContinues.declarations.proper
        (hContinues.imports.proper
          (proper_initial source file).opened)
    have hThere : (u.spliced x).Proper := hProper.same rfl rfl
    rw [hContinues.symbols_eq, hContinues.extended_eq]
    exact findVisible?_of_leads hThere hContinues.leads_later
      hContinues.nodup hContinues.hidden hScope hOffset name
  types_eq := rfl
  members_eq := rfl
  diagnostics_eq := rfl

/- The first declarations lie within all such bounds. -/
theorem bounded
    (hContinues : Continues source file p q t u x later v)
    {b : Bounds}
    (hFirst : b.first = 0)
    (hReach : u.reach ≤ b.offset)
    (hScopes : u.symbols.scopes.size ≤ b.scopes)
    (hDefined : u.defined ≤ b.definitions) :
    ∀ d ∈ p.declarations, d.Bounded b := by
  have hImports :=
    hContinues.imports.leads
      (regular_initial source file).opened
  refine hContinues.declarations.bounded
    ⟨hImports.regular, ?_, hReach, hScopes, hDefined⟩
  rw [hFirst]
  exact Nat.zero_le _

/- The later ones make definitions behind the first ones. -/
theorem bounded_later
    (hContinues : Continues source file p q t u x later v) :
    ∀ d ∈ later, d.Bounded (laterBounds u.defined v) :=
  hContinues.more.bounded
    ⟨hContinues.regular, Nat.le_refl _, Nat.le_refl _,
      Nat.le_refl _, Nat.le_refl _⟩

theorem scope_lt
    (hContinues : Continues source file p q t u x later v) :
    p.scope < u.symbols.scopes.size :=
  hContinues.regular.scopes_lt _
    (List.mem_of_mem_head? hContinues.head_eq)

theorem scope_lt_later
    (hContinues : Continues source file p q t u x later v) :
    p.scope < v.symbols.scopes.size :=
  Nat.lt_of_lt_of_le hContinues.scope_lt
    hContinues.leads_later.size_le

end Continues

------------------------------------------------------------
-- Runs of the resolver
------------------------------------------------------------

section Runs

variable {b : Bounds}
variable (l : Library)
variable (scope : ScopeId)

/- The imports and the declarations of a program. -/
def resolveLists
    (imports : List Import)
    (declarations : List Declaration) :
    Resolver (List Import × List Declaration) := do
  let is ← imports.mapM (resolveImport l)
  let ds ←
    declarations.mapM
      (resolveDeclaration (Surroundings.nowhere.within scope))
  return (is, ds)

theorem resolveProgram_eq (p : Program) :
    resolveProgram l p =
      let r :=
        (resolveLists l p.scope p.imports
          p.declarations).outcome (.start p.symbols)
      ({ p with
          imports := r.1.1
          declarations := r.1.2
          symbols := r.2.symbols },
        r.2.diagnostics) :=
  rfl

theorem outcome_resolveLists_append
    (imports : List Import)
    (first later : List Declaration)
    (z : ResolverState) :
    (resolveLists l scope imports (first ++ later)).outcome
        z =
      let r := (resolveLists l scope imports first).outcome z
      let m :=
        (later.mapM
          (resolveDeclaration
            (Surroundings.nowhere.within scope))).outcome r.2
      ((r.1.1, r.1.2 ++ m.1), m.2) := by
  unfold resolveLists
  rw [List.mapM_append]
  rfl

variable {l scope}

theorem steady_resolveLists
    {declarations : List Declaration}
    (hScope : scope < b.scopes)
    (hBounded : ∀ d ∈ declarations, d.Bounded b)
    (imports : List Import) :
    b.Steady
      (resolveLists l scope imports declarations) := by
  have hImports :
      b.steadiness.Holds (imports.mapM (resolveImport l)) :=
    holds_mapM fun i _ => holds_resolveImport l i
  have hAll :
      b.steadiness.Holds
        (resolveLists l scope imports declarations) :=
    hImports.bind fun _ =>
      (holds_declarations (.within hScope _) hBounded).bind
        fun _ => holds_pure trivial
  exact hAll

end Runs

------------------------------------------------------------
-- Main result
------------------------------------------------------------

/- The program starts with what the other one consists of. -/
structure Program.StartsAs (q p : Program) : Prop where
  imports_eq : q.imports = p.imports
  declarations : p.declarations <+: q.declarations
  scope_eq : q.scope = p.scope
  definitions :
    p.symbols.definitions.toList <+:
      q.symbols.definitions.toList

/- Definitions that are the same up to a number. -/
theorem prefix_of_getElem?_eq
    {α : Type}
    {a b : Array α}
    (hSame : ∀ i, i < a.size → b[i]? = a[i]?) :
    a.toList <+: b.toList := by
  rw [List.prefix_iff_getElem?]
  intro i hLess
  rw [Array.getElem?_toList, hSame i hLess,
    Array.getElem?_eq_getElem hLess]
  rfl

/- The symbols of the longer program go on from the others. -/
theorem Continues.startsAs
    {source file : String}
    {p q : Program}
    {x : Splice}
    {later : List Declaration}
    (hContinues : Continues source file p q t u x later v) :
    q.StartsAs p where
  imports_eq := hContinues.imports_eq
  declarations := by
    rw [hContinues.declarations_eq]
    exact List.prefix_append _ _
  scope_eq := hContinues.scopes_eq
  definitions := by
    rcases hContinues.leads_later.definitions with
      ⟨new, hNew, -⟩
    rw [hContinues.symbols_eq, hContinues.extended_eq, hNew]
    exact List.prefix_append _ _

section Walks

variable {source file : String}
variable {p q : Program}
variable {x : Splice}
variable {later : List Declaration}

/- What is declared first is resolved alike in both. -/
theorem Continues.outcomes
    (hContinues : Continues source file p q t u x later v)
    (l : Library) :
    (firstBounds u).Outcomes (fun _ => True)
      (.start p.symbols)
      ((resolveLists l p.scope p.imports
        p.declarations).outcome (.start p.symbols))
      ((resolveLists l p.scope p.imports
        p.declarations).outcome (.start q.symbols)) :=
  steady_resolveLists hContinues.scope_lt
    (hContinues.bounded rfl (Nat.le_refl _) (Nat.le_refl _)
      (Nat.le_refl _)) _ _ _ hContinues.agrees

/- The walk over it makes no definitions. -/
theorem Continues.size_eq
    (hContinues : Continues source file p q t u x later v)
    (l : Library) :
    ((resolveLists l p.scope p.imports
        p.declarations).outcome
      (.start q.symbols)).2.symbols.definitions.size =
        v.defined := by
  have hLater := hContinues.leads_later
  have hSize :
      (ResolverState.start
        q.symbols).symbols.definitions.size = v.defined := by
    rw [hContinues.extended_eq]
    rfl
  have hSteady :
      (laterBounds 0 v).Steady
        (resolveLists l p.scope p.imports p.declarations) :=
    steady_resolveLists hContinues.scope_lt_later
      (hContinues.bounded (b := laterBounds 0 v) rfl
        hLater.reach_le hLater.size_le hLater.defined_le) _
  exact (hSteady _ _
    (.refl (Nat.le_of_eq hSize))).keeps.size_eq.trans hSize

/- The later walk leaves the first definitions alone. -/
theorem Continues.keeps_later
    (hContinues : Continues source file p q t u x later v)
    {w : ResolverState}
    (hSize : w.symbols.definitions.size = v.defined) :
    (laterBounds u.defined v).Keeps w
      ((later.mapM
        (resolveDeclaration
          (Surroundings.nowhere.within p.scope))).outcome
        w).2 :=
  have hSteady :
      (laterBounds u.defined v).steadiness.Holds
        (later.mapM
          (resolveDeclaration
            (Surroundings.nowhere.within p.scope))) :=
    holds_declarations (.within hContinues.scope_lt_later _)
      hContinues.bounded_later
  (hSteady _ _ (.refl (Nat.le_of_eq hSize))).keeps

/- So do the symbols behind the walks over both programs. -/
theorem Continues.startsAs_resolved
    (hContinues : Continues source file p q t u x later v)
    (l : Library) :
    (resolveProgram l q).1.StartsAs (resolveProgram l p).1 ∧
      (resolveProgram l p).2 <+: (resolveProgram l q).2 := by
  have hBoth := hContinues.outcomes l
  have hOthers :=
    hContinues.keeps_later (hContinues.size_eq l)
  rw [resolveProgram_eq, resolveProgram_eq,
    hContinues.scopes_eq, hContinues.imports_eq,
    hContinues.declarations_eq, outcome_resolveLists_append]
  refine ⟨⟨?_, ?_, rfl, ?_⟩, ?_⟩
  · exact congrArg Prod.fst hBoth.same
  · have hSame := congrArg Prod.snd hBoth.same
    dsimp only
    rw [hSame]
    exact List.prefix_append _ _
  · refine prefix_of_getElem?_eq fun id hLess => ?_
    have hOld : id < u.defined := by
      rw [hBoth.keeps.size_eq, hContinues.symbols_eq] at hLess
      exact hLess
    exact (hOthers.definitions_eq id hOld).trans
      (hBoth.agrees.definitions_eq id hOld)
  · dsimp only
    rw [← hBoth.agrees.diagnostics_eq]
    exact hOthers.reports

end Walks

/-
  Earlier declarations never depend on later ones.  If the
  text of a program goes on in a new line with a declaration,
  then what was read first, the types and targets that it
  gets, and what is reported about it stay as they are.
-/
theorem startsAs_of_appended
    {source other file : String}
    {p q : Program}
    {kind : TokenKind}
    (hFirst : parseProgram source file = .ok p)
    (hKind :
      (tokenize other (some file)).head?.map (·.kind) =
        some kind)
    (hKeyword :
      kind ∈ [TokenKind.kwFun, .kwVal, .kwVar])
    (hBoth :
      parseProgram (source ++ "\n" ++ other) file = .ok q)
    (l : Library) :
    q.StartsAs p ∧
      (resolveProgram l q).1.StartsAs
          (resolveProgram l p).1 ∧
        (resolveProgram l p).2 <+: (resolveProgram l q).2 := by
  rcases exists_continues hFirst hKind hKeyword hBoth with
    ⟨t, u, x, later, v, hContinues⟩
  exact ⟨hContinues.startsAs,
    hContinues.startsAs_resolved l⟩

/- A function and a property that is initialized with it. -/
theorem startsAs_of_appended_call :
    ∃ p q,
      parseProgram "fun f(x: int) = x;" "main" = .ok p ∧
        (tokenize "val y = f(1);" (some "main")).head?.map
            (·.kind) =
          some .kwVal ∧
        parseProgram
            ("fun f(x: int) = x;" ++ "\n" ++ "val y = f(1);")
            "main" =
          .ok q ∧
        q.StartsAs p ∧
          (resolveProgram .standard q).1.StartsAs
              (resolveProgram .standard p).1 ∧
            (resolveProgram .standard p).2 <+:
              (resolveProgram .standard q).2 := by
  have hFirst :
      (parseProgram "fun f(x: int) = x;" "main").isOk := by
    cbv
  have hKind :
      (tokenize "val y = f(1);" (some "main")).head?.map
          (·.kind) =
        some .kwVal := by
    cbv
  have hBoth :
      (parseProgram
        ("fun f(x: int) = x;" ++ "\n" ++ "val y = f(1);")
        "main").isOk := by
    cbv
  generalize hShort : parseProgram _ _ = r at hFirst
  cases r with
  | error d => cases hFirst
  | ok p =>
      generalize hLong : parseProgram _ _ = r at hBoth
      cases r with
      | error d => cases hBoth
      | ok q =>
          exact ⟨p, q, rfl, hKind, rfl,
            startsAs_of_appended hShort hKind (by decide) hLong
              .standard⟩

end SourceCheck
