import SourceCheck.Proofs.Resolution.Steadiness
import SourceCheck.Proofs.Resolution.Walks
import SourceCheck.Proofs.Safety.Checked
import SourceCheck.Proofs.Syntax.Proper

/-
  Resolving never stops the program.

  A run is safe if it is put together from runs of simple
  actions, and those that look names up, read definitions or
  give them types do what the checked operations do on the
  symbols that are there.  What the parser accepts refers to
  scopes and definitions that exist, and so does what is
  found.

  Key definitions include:
    * `Resolver.Safe`
    * `Bounds.Fits`
    * `Bounds.safety`

  The main statement is `safe_resolveParts`.
-/

namespace SourceCheck

open SourceCheck.Resolver
open SourceCheck.ParserState
open SourceCheck.ResolverProperty

------------------------------------------------------------
-- Safe runs
------------------------------------------------------------

/-
  The run of a resolver from a state stops the program
  nowhere.  What is known by name is read and changed by
  itself.
-/
inductive Resolver.Safe :
    {α : Type} → Resolver α → ResolverState → Prop where
  | pure {α z}
      (a : α) :
      Resolver.Safe (Pure.pure a) z
  | bind {α β z} {p : Resolver α} {f : α → Resolver β}
      (hFirst : Resolver.Safe p z)
      (hRest :
        Resolver.Safe (f (p.outcome z).1) (p.outcome z).2) :
      Resolver.Safe (p >>= f) z
  | report {z}
      (problem : Problem)
      (p : Position) :
      Resolver.Safe (Resolver.report problem p) z
  | names {α z} {f : ResolverState → Resolver α}
      (hNames :
        ∀ z w,
          z.types = w.types →
            z.members = w.members → f z = f w)
      (hRest : Resolver.Safe (f z) z) :
      Resolver.Safe (get >>= f) z
  | rename {z}
      (f : TypeNames → TypeNames)
      (g : MemberNames → MemberNames) :
      Resolver.Safe
        (modify fun z : ResolverState =>
          { z with types := f z.types, members := g z.members })
        z
  | visible {scope name p z}
      (hFind :
        z.symbols.findVisibleAt scope name p.offset =
          .ok ((visible? scope name p).outcome z).1) :
      Resolver.Safe (visible? scope name p) z
  | definitionType {id p z d}
      (hFetch : z.symbols.definitionAt id = .ok d) :
      Resolver.Safe (Resolver.definitionType id p) z
  | isResolved {id z d}
      (hFetch : z.symbols.definitionAt id = .ok d) :
      Resolver.Safe (Resolver.isResolved id) z
  | checkDefinition {id p z d}
      (hFetch : z.symbols.definitionAt id = .ok d) :
      Resolver.Safe (Resolver.checkDefinition id p) z
  | fillType {id type z}
      (hFill :
        z.symbols.fillTypeAt id type =
          .ok
            ((Resolver.fillType id type).outcome
              z).2.symbols) :
      Resolver.Safe (Resolver.fillType id type) z

/-
  The symbols are sound, and all that is within the bounds is
  in them.
-/
structure Bounds.Fits
    (b : Bounds)
    (z : ResolverState) :
    Prop where
  sound : z.symbols.Sound
  scopes_le : b.scopes ≤ z.symbols.scopes.size
  size_eq : z.symbols.definitions.size = b.definitions

namespace Bounds

variable {b : Bounds}
variable {z w : ResolverState}
variable {id : DefinitionId}

/- Names of types and members do not matter. -/
theorem Fits.same
    (hFits : b.Fits z)
    (hSymbols : w.symbols = z.symbols) :
    b.Fits w := by
  constructor
  · rw [hSymbols]
    exact hFits.sound
  · rw [hSymbols]
    exact hFits.scopes_le
  · rw [hSymbols]
    exact hFits.size_eq

theorem Fits.lt
    (hFits : b.Fits z)
    (hLess : id < b.definitions) :
    id < z.symbols.definitions.size := by
  rw [hFits.size_eq]
  exact hLess

/-
  From states that fit the run is safe, its result has a
  property, and it ends in such a state.
-/
def SafeWith
    {α : Type}
    (b : Bounds)
    (P : α → Prop)
    (p : Resolver α) :
    Prop :=
  ∀ z,
    b.Fits z →
      p.Safe z ∧ P (p.outcome z).1 ∧ b.Fits (p.outcome z).2

/- What is done does not change the symbols. -/
theorem safeWith_of_symbols_eq
    {α : Type}
    {P : α → Prop}
    {p : Resolver α}
    (hSafe :
      ∀ z,
        b.Fits z → p.Safe z ∧ P (p.outcome z).1)
    (hSymbols :
      ∀ z, (p.outcome z).2.symbols = z.symbols) :
    b.SafeWith P p :=
  fun z hFits =>
    ⟨(hSafe z hFits).1, (hSafe z hFits).2,
      hFits.same (hSymbols z)⟩

theorem symbols_definitionType
    (id : DefinitionId)
    (p : Position)
    (z : ResolverState) :
    ((definitionType id p).outcome z).2.symbols =
      z.symbols := by
  rw [outcome_definitionType_eq]
  cases z.symbols.type? id <;> rfl

theorem symbols_checkDefinition
    (id : DefinitionId)
    (p : Position)
    (z : ResolverState) :
    ((checkDefinition id p).outcome z).2.symbols =
      z.symbols := by
  change ((if _ then _ else _ : Resolver PUnit).outcome
    z).2.symbols = _
  split
  · rfl
  · split <;> rfl

/- A name is found where it is bound. -/
theorem safeWith_visible?
    {scope : ScopeId}
    (hScope : scope < b.scopes)
    (name : String)
    (p : Position) :
    b.SafeWith
      (fun found =>
        ∀ id, found = some id → id < b.definitions)
      (visible? scope name p) := by
  refine safeWith_of_symbols_eq (fun z hFits => ⟨?_, ?_⟩)
    fun _ => rfl
  · exact .visible
      (hFits.sound.findVisibleAt_eq
        (Nat.lt_of_lt_of_le hScope hFits.scopes_le) name
        p.offset)
  · intro id hFound
    rw [← hFits.size_eq]
    exact lt_of_findVisible? hFound

theorem safeWith_fillType
    (hMakes : b.Makes id)
    (type : Ty) :
    b.SafeWith (fun _ => True) (fillType id type) := by
  intro z hFits
  refine ⟨.fillType
      (Symbols.fillTypeAt_eq (hFits.lt hMakes.2) type),
    trivial, hFits.sound.fillType id type, hFits.scopes_le,
    ?_⟩
  exact (size_fillType z.symbols id type).trans hFits.size_eq

/- Resolvers are safe if all of their parts are. -/
def safety (b : Bounds) : ResolverProperty b where
  holds := b.SafeWith
  ofPure hResult := fun _ hFits =>
    ⟨.pure _, hResult, hFits⟩
  ofBind := by
    intro α β P Q p f hFirst hRest z hFits
    rcases hFirst z hFits with ⟨hSafe, hResult, hBehind⟩
    rcases hRest _ hResult _ hBehind with
      ⟨hLater, hLast, hEnd⟩
    exact ⟨.bind hSafe hLater, hLast, hEnd⟩
  ofImp := by
    intro α P Q p hHolds hImp z hFits
    rcases hHolds z hFits with ⟨hSafe, hResult, hBehind⟩
    exact ⟨hSafe, hImp _ hResult, hBehind⟩
  ofReport problem p :=
    safeWith_of_symbols_eq
      (fun _ _ => ⟨.report problem p, trivial⟩) fun _ => rfl
  ofNames := by
    intro α P f hNames hRest z hFits
    rcases hRest z z hFits with ⟨hSafe, hResult, hBehind⟩
    refine ⟨.names (fun z w hTypes hMembers => ?_) hSafe,
      hResult, hBehind⟩
    exact hNames z w (.of_eq hTypes hMembers)
  ofRename {f g} _ _ :=
    safeWith_of_symbols_eq
      (fun _ _ => ⟨.rename f g, trivial⟩) fun _ => rfl
  ofVisible hScope _ name := safeWith_visible? hScope name _
  ofDefinitionType hLess p :=
    safeWith_of_symbols_eq
      (fun _ hFits =>
        ⟨.definitionType
          (Symbols.definitionAt_of_lt (hFits.lt hLess)),
          trivial⟩)
      (symbols_definitionType _ p)
  ofIsResolved hLess :=
    safeWith_of_symbols_eq
      (fun _ hFits =>
        ⟨.isResolved
          (Symbols.definitionAt_of_lt (hFits.lt hLess)),
          trivial⟩)
      fun _ => rfl
  ofFillType := safeWith_fillType
  ofCheckDefinition hLess p :=
    safeWith_of_symbols_eq
      (fun _ hFits =>
        ⟨.checkDefinition
          (Symbols.definitionAt_of_lt (hFits.lt hLess)),
          trivial⟩)
      (symbols_checkDefinition _ p)

end Bounds

------------------------------------------------------------
-- Programs
------------------------------------------------------------

/-
  What the parser accepts has sound symbols and refers only
  to what is in them.
-/
theorem exists_fits_of_parseProgram
    {source file : String}
    {p : Program}
    (hParse : parseProgram source file = .ok p) :
    ∃ b : Bounds,
      b.Fits (.start p.symbols) ∧ p.scope < b.scopes ∧
        ∀ d ∈ p.declarations, d.Bounded b := by
  cases derivesProgram_of_parseProgram hParse with
  | @intro imports t declarations u hImports
      hDeclarations =>
      have hFirst :=
        hImports.leads (regular_initial source file).opened
      have hLeads :=
        hFirst.trans (hDeclarations.leads hFirst.regular)
      have hProper : u.Proper :=
        hDeclarations.proper
          (hImports.proper
            (proper_initial source file).opened)
      refine ⟨⟨u.reach, u.symbols.scopes.size, 0, u.defined⟩,
        ⟨hProper.toSound, Nat.le_refl _, rfl⟩, ?_, ?_⟩
      · refine hProper.open_lt _ ?_
        rw [hLeads.scopes_eq]
        exact List.mem_cons_self
      · exact hDeclarations.bounded
          ⟨hFirst.regular, Nat.zero_le _, Nat.le_refl _,
            Nat.le_refl _, Nat.le_refl _⟩

/-
  No program that the parser accepts stops the program that
  resolves it, and its symbols stay sound.
-/
theorem safe_resolveParts
    {source file : String}
    {p : Program}
    (hParse : parseProgram source file = .ok p)
    (l : Library) :
    (resolveParts l p).Safe (.start p.symbols) ∧
      p.symbols.Sound ∧
        (resolveProgram l p).1.symbols.Sound := by
  rcases exists_fits_of_parseProgram hParse with
    ⟨b, hFits, hScope, hBounded⟩
  have hImports :
      b.safety.Holds (p.imports.mapM (resolveImport l)) :=
    holds_mapM fun i _ => holds_resolveImport l i
  have hAll : b.safety.Holds (resolveParts l p) :=
    hImports.bind fun _ =>
      (holds_declarations (.within hScope _) hBounded).bind
        fun _ => holds_pure trivial
  rcases hAll _ hFits with ⟨hSafe, -, hBehind⟩
  exact ⟨hSafe, hFits.sound, hBehind.sound⟩

end SourceCheck
