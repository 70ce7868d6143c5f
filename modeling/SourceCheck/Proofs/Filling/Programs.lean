import Mathlib
import SourceCheck.Proofs.Filling.Walks
import SourceCheck.Proofs.Syntax.Nodes
import SourceCheck.Proofs.Typing.Programs

/-
  Resolving whole programs fills every slot.

  One walk is enough, whatever it reports: it fills all slots
  of a program as it was read, and all later ones, whatever
  the library, find nothing left to do.  No walk changes
  anything but slots that are empty.

  Key definitions include:
    * `Program.IsComplete`
    * `Program.IsSettled`

  Key theorems include:
    * `filled_resolveProgram`
    * `Program.IsSettled.resolveProgram_eq`
    * `isComplete_resolveProgram`
    * `resolveProgram_idempotent`
    * `fillsTo_resolveProgram`
-/

namespace SourceCheck

open SourceCheck.Resolver

------------------------------------------------------------
-- Nodes
------------------------------------------------------------

section Nodes

variable {R : NodeRules}
variable {P : Expr → Prop}

/- The property holds of the expression of each node. -/
def Everywhere (P : Expr → Prop) (xs : List Node) : Prop :=
  ∀ n ∈ xs, P n.expr

/- So it does if the rules ask for it of all expressions. -/
structure NodeRules.Ensure
    (R : NodeRules)
    (P : Expr → Prop) :
    Prop where
  ofExpr : ∀ e, R.ofExpr e → P e
  ofMember : ∀ e, R.ofMember e → P e

theorem Everywhere.append
    {xs ys : List Node}
    (hFirst : Everywhere P xs)
    (hRest : Everywhere P ys) :
    Everywhere P (xs ++ ys) :=
  List.forall_mem_append.2 ⟨hFirst, hRest⟩

theorem Everywhere.cons
    {n : Node}
    {xs : List Node}
    (hFirst : P n.expr)
    (hRest : Everywhere P xs) :
    Everywhere P (n :: xs) :=
  List.forall_mem_cons.2 ⟨hFirst, hRest⟩

mutual

theorem ExprForm.Obeys.everywhere
    (hEnsure : R.Ensure P) :
    ∀ form : ExprForm,
      form.Obeys R → Everywhere P form.inner
  | .int _, _ => nofun
  | .long _, _ => nofun
  | .boolean _, _ => nofun
  | .string _, _ => nofun
  | .template parts, hParts =>
      everywhere_partNodes hEnsure parts hParts
  | .reference _ _, _ => nofun
  | .invocation _ arguments _, hArguments =>
      everywhere_argumentNodes hEnsure arguments hArguments
  | .call callee arguments, hBoth =>
      (Expr.Obeys.everywhere hEnsure callee hBoth.1).append
        (everywhere_argumentNodes hEnsure arguments hBoth.2)
  | .access left _ right, hBoth =>
      (Expr.Obeys.everywhere hEnsure left hBoth.1).append
        (Expr.ObeysAside.everywhere hEnsure right hBoth.2)
  | .binary left _ right, hBoth =>
      (Expr.Obeys.everywhere hEnsure left hBoth.1).append
        (Expr.Obeys.everywhere hEnsure right hBoth.2)
  | .unary _ operand, hOperand =>
      Expr.Obeys.everywhere hEnsure operand hOperand
  | .assignment target _ value, hBoth =>
      (Expr.Obeys.everywhere hEnsure target hBoth.1).append
        (Expr.Obeys.everywhere hEnsure value hBoth.2)
  | .parenthesized inner, hInner =>
      Expr.Obeys.everywhere hEnsure inner hInner
  | .block statements _, hStatements =>
      everywhere_statementNodes hEnsure statements hStatements
  | .conditional condition thenBranch elseBranch, hAll =>
      ((Expr.Obeys.everywhere hEnsure condition
          hAll.1).append
        (Expr.Obeys.everywhere hEnsure thenBranch
          hAll.2.1)).append
        (everywhere_optionNodes hEnsure elseBranch hAll.2.2)
  | .function parameters _ body _, hAll =>
      (everywhere_parameterNodes hEnsure parameters
          hAll.1).append
        (Expr.Obeys.everywhere hEnsure body hAll.2.2)
  | .lambda parameters body _, hBoth =>
      (everywhere_parameterNodes hEnsure parameters
          hBoth.1).append
        (Expr.Obeys.everywhere hEnsure body hBoth.2)
  | .ret value, hValue =>
      everywhere_optionNodes hEnsure value hValue
termination_by structural form => form

theorem Expr.Obeys.everywhere
    (hEnsure : R.Ensure P) :
    ∀ e : Expr, e.Obeys R → Everywhere P e.nodes
  | ⟨form, _, _⟩, hBoth =>
      .cons (hEnsure.ofExpr _ hBoth.1)
        (ExprForm.Obeys.everywhere hEnsure form hBoth.2)
termination_by structural e => e

theorem Expr.ObeysAside.everywhere
    (hEnsure : R.Ensure P) :
    ∀ e : Expr, e.ObeysAside R → Everywhere P e.nodes
  | ⟨form, _, _⟩, hBoth =>
      .cons (hEnsure.ofMember _ hBoth.1)
        (ExprForm.Obeys.everywhere hEnsure form hBoth.2)
termination_by structural e => e

theorem everywhere_optionNodes
    (hEnsure : R.Ensure P) :
    ∀ o : Option Expr,
      optionObeys R o → Everywhere P (optionNodes o)
  | none, _ => nofun
  | some e, hSome => Expr.Obeys.everywhere hEnsure e hSome
termination_by structural o => o

theorem everywhere_partNodes
    (hEnsure : R.Ensure P) :
    ∀ es : List Expr,
      exprsObey R es → Everywhere P (partNodes es)
  | [], _ => nofun
  | ⟨form, _, _⟩ :: es, hBoth =>
      .cons (hEnsure.ofExpr _ hBoth.1.1)
        ((ExprForm.Obeys.everywhere hEnsure form
            hBoth.1.2).append
          (everywhere_partNodes hEnsure es hBoth.2))
termination_by structural es => es

theorem everywhere_argumentNodes
    (hEnsure : R.Ensure P) :
    ∀ xs : List Argument,
      argumentsObey R xs → Everywhere P (argumentNodes xs)
  | [], _ => nofun
  | ⟨_, value, _⟩ :: xs, hBoth =>
      (Expr.Obeys.everywhere hEnsure value hBoth.1).append
        (everywhere_argumentNodes hEnsure xs hBoth.2)
termination_by structural xs => xs

theorem everywhere_parameterNodes
    (hEnsure : R.Ensure P) :
    ∀ ps : List Parameter,
      parametersObey R ps → Everywhere P (parameterNodes ps)
  | [], _ => nofun
  | ⟨_, _, fallback, _, _⟩ :: ps, hBoth =>
      (everywhere_optionNodes hEnsure fallback
          hBoth.1.2.2).append
        (everywhere_parameterNodes hEnsure ps hBoth.2)
termination_by structural ps => ps

theorem everywhere_statementNodes
    (hEnsure : R.Ensure P) :
    ∀ xs : List Statement,
      statementsObey R xs → Everywhere P (statementNodes xs)
  | [], _ => nofun
  | x :: xs, hBoth =>
      (Statement.Obeys.everywhere hEnsure x hBoth.1).append
        (everywhere_statementNodes hEnsure xs hBoth.2)
termination_by structural xs => xs

theorem Statement.Obeys.everywhere
    (hEnsure : R.Ensure P) :
    ∀ x : Statement, x.Obeys R → Everywhere P x.nodes
  | .expression e, hExpr =>
      Expr.Obeys.everywhere hEnsure e hExpr
  | .variable v, hVariable =>
      VariableDecl.Obeys.everywhere hEnsure v hVariable
  | .function f, hFunction =>
      FunctionDecl.Obeys.everywhere hEnsure f hFunction
termination_by structural x => x

theorem VariableDecl.Obeys.everywhere
    (hEnsure : R.Ensure P) :
    ∀ v : VariableDecl, v.Obeys R → Everywhere P v.nodes
  | ⟨_, _, _, initializer, _, _⟩, hAll =>
      everywhere_optionNodes hEnsure initializer hAll.2.2
termination_by structural v => v

theorem FunctionDecl.Obeys.everywhere
    (hEnsure : R.Ensure P) :
    ∀ f : FunctionDecl, f.Obeys R → Everywhere P f.nodes
  | ⟨_, parameters, _, body, _, _, _⟩, hAll =>
      (everywhere_parameterNodes hEnsure parameters
          hAll.2.1).append
        (everywhere_optionNodes hEnsure body hAll.2.2.2)
termination_by structural f => f

end

/- What the rules ensure holds in all of a program. -/
theorem Program.Obeys.everywhere
    (hEnsure : R.Ensure P)
    {p : Program}
    (hObeys : p.Obeys R) :
    Everywhere P p.nodes := by
  intro n hMember
  rcases List.mem_flatMap.1 hMember with ⟨d, hDeclared, hIn⟩
  cases d with
  | function f =>
      exact FunctionDecl.Obeys.everywhere hEnsure f
        (hObeys _ hDeclared) n hIn
  | property v =>
      exact VariableDecl.Obeys.everywhere hEnsure v
        (hObeys _ hDeclared) n hIn

theorem ensure_filled :
    NodeRules.filled.Ensure (fun e => e.type.isSome) :=
  ⟨fun _ => id, fun _ => id⟩

end Nodes

------------------------------------------------------------
-- Settled programs
------------------------------------------------------------

/- The definition that a declaration makes. -/
def Declaration.definition : Declaration → DefinitionId
  | .function f => f.definition
  | .property v => v.definition

theorem Declaration.definition_mem (d : Declaration) :
    d.definition ∈ d.declared := by
  rcases d with
    ⟨⟨name, ps, type, body, scope, id, span⟩⟩ |
      ⟨⟨isMutable, name, type, initializer, id, span⟩⟩
  · exact List.mem_append_right _ List.mem_cons_self
  · exact List.mem_append_right _ (List.mem_singleton_self _)

theorem Declaration.FillsTo.definition_eq
    {d e : Declaration}
    (hFills : d.FillsTo e) :
    e.definition = d.definition := by
  cases hFills with
  | function hFunction =>
      cases hFunction
      rfl
  | property hVariable =>
      cases hVariable
      rfl

/-
  A walk finds nothing to do: all imports are marked, and all
  definitions of the declarations have types.
-/
structure Program.IsSettled (p : Program) : Prop where
  imports : ∀ i ∈ p.imports, i.isResolved
  declarations :
    ∀ d ∈ p.declarations,
      (p.symbols.type? d.definition).isSome

/- Walks that change nothing, one by one. -/
theorem outcome_mapM_unchanged
    {α : Type}
    {f : α → Resolver α}
    {as : List α}
    {z : ResolverState}
    (hEach : ∀ a ∈ as, (f a).outcome z = (a, z)) :
    (as.mapM f).outcome z = (as, z) := by
  induction as with
  | nil => rfl
  | cons a as ih =>
      have hOthers :=
        ih fun b hMember =>
          hEach b (List.mem_cons_of_mem _ hMember)
      rw [List.mapM_cons, outcome_bind,
        hEach a List.mem_cons_self, outcome_bind, hOthers]
      rfl

theorem outcome_resolveImport_marked
    (l : Library)
    {i : Import}
    (hMarked : i.isResolved)
    (z : ResolverState) :
    (resolveImport l i).outcome z = (i, z) := by
  unfold resolveImport
  rw [if_pos hMarked]
  rfl

theorem outcome_resolveVariable_known
    (around : Surroundings)
    {v : VariableDecl}
    {z : ResolverState}
    (hKnown : (z.symbols.type? v.definition).isSome) :
    (resolveVariable around v).outcome z = (v, z) := by
  rcases v with ⟨isMutable, name, type, initializer, id, span⟩
  unfold resolveVariable
  rw [outcome_isResolved_bind, hKnown]
  rfl

theorem outcome_resolveFunction_known
    (around : Surroundings)
    {f : FunctionDecl}
    {z : ResolverState}
    (hKnown : (z.symbols.type? f.definition).isSome) :
    (resolveFunction around f).outcome z = (f, z) := by
  rcases f with ⟨name, ps, type, body, scope, id, span⟩
  unfold resolveFunction
  rw [outcome_isResolved_bind, hKnown]
  rfl

theorem outcome_resolveDeclaration_known
    (around : Surroundings)
    {d : Declaration}
    {z : ResolverState}
    (hKnown : (z.symbols.type? d.definition).isSome) :
    (resolveDeclaration around d).outcome z = (d, z) := by
  cases d with
  | function f =>
      unfold resolveDeclaration
      rw [outcome_bind, outcome_resolveFunction_known _ hKnown]
      rfl
  | property v =>
      unfold resolveDeclaration
      rw [outcome_bind, outcome_resolveVariable_known _ hKnown]
      rfl

/- A settled program is left as it is, in silence. -/
theorem Program.IsSettled.resolveProgram_eq
    {p : Program}
    (hSettled : p.IsSettled)
    (l : Library) :
    resolveProgram l p = (p, []) := by
  have hImports :
      (p.imports.mapM (resolveImport l)).outcome
          (.start p.symbols) =
        (p.imports, .start p.symbols) :=
    outcome_mapM_unchanged fun i hMember =>
      outcome_resolveImport_marked l
        (hSettled.imports i hMember) _
  have hDeclarations :
      (p.declarations.mapM
            (resolveDeclaration
              (Surroundings.nowhere.within
                p.scope))).outcome
          (.start p.symbols) =
        (p.declarations, .start p.symbols) :=
    outcome_mapM_unchanged fun d hMember =>
      outcome_resolveDeclaration_known _
        (hSettled.declarations d hMember)
  have hParts :
      (resolveParts l p).outcome (.start p.symbols) =
        (p, .start p.symbols) := by
    unfold resolveParts
    dsimp only
    rw [outcome_bind, hImports, outcome_bind, hDeclarations]
    rfl
  have hRun :
      resolveProgram l p =
        let r := (resolveParts l p).outcome (.start p.symbols)
        ({ r.1 with symbols := r.2.symbols },
          r.2.diagnostics) :=
    rfl
  rw [hRun, hParts]
  rfl

/- An expression with a type is left as it is. -/
theorem outcome_resolveExpr_typed
    {e : Expr}
    {t : Ty}
    (hType : e.type = some t)
    (around : Surroundings)
    (z : ResolverState) :
    (resolveExpr around e).outcome z = ((e, t), z) := by
  rcases e with ⟨form, span, type⟩
  dsimp only at hType
  subst hType
  unfold resolveExpr
  rfl

------------------------------------------------------------
-- The first walk
------------------------------------------------------------

/- Growth fills the slots of definitions. -/
theorem Growth.fillsTo
    {ids : List DefinitionId}
    {z w : ResolverState}
    (hGrowth : Growth ids z w) :
    z.symbols.FillsTo w.symbols where
  scopes_eq := by
    have hSame :
        w.symbols.untyped.scopes = z.symbols.untyped.scopes :=
      congrArg Symbols.scopes hGrowth.untyped_eq
    exact hSame
  size_eq := hGrowth.size_eq
  definitions id d hFound := by
    have hSame :=
      congrArg (·.definitions[id]?) hGrowth.untyped_eq
    simp only [Symbols.untyped, Array.getElem?_map, hFound,
      Option.map_some] at hSame
    rcases Option.map_eq_some_iff.1 hSame with
      ⟨c, hOther, hEq⟩
    refine ⟨c.type, ?_, fun t hType => ?_⟩
    · rw [hOther]
      cases c
      cases d
      cases hEq
      rfl
    · have hOld : z.symbols.type? id = some t := by
        unfold Symbols.type?
        rw [hFound, Option.bind_some, hType]
      have hNew := hGrowth.keeps id t hOld
      unfold Symbols.type? at hNew
      rw [hOther, Option.bind_some] at hNew
      exact hNew

/-
  The first walk over a program marks its imports, gives types
  to its definitions, and fills the slots of its tree.
-/
theorem filled_resolveProgram
    {source file : String}
    {p : Program}
    (hAccepted : parseProgram source file = .ok p)
    (l : Library) :
    let r := (resolveProgram l p).1
    p.FillsTo r ∧
      (∀ i ∈ r.imports, i.isResolved) ∧
        (∀ id ∈ p.declared, (r.symbols.type? id).isSome) ∧
          r.Obeys .filled := by
  have hDerives := derivesProgram_of_parseProgram hAccepted
  let m :=
    (p.imports.mapM (resolveImport l)).outcome
      (.start p.symbols)
  let r :=
    (p.declarations.mapM
      (resolveDeclaration
        (Surroundings.nowhere.within p.scope))).outcome m.2
  have hRun :
      (resolveProgram l p).1 =
        { p with
          imports := m.1
          declarations := r.1
          symbols := r.2.symbols } :=
    rfl
  rcases adds_imports l hDerives.isResolved_eq
      (.start p.symbols) with
    ⟨hImports, hAdds⟩
  have hStart : m.2.symbols = p.symbols := hAdds.symbols_eq
  rcases fills_declarations
      (Surroundings.nowhere.within p.scope) hDerives.parsed
      m.2 (awaits_declared hDerives hStart) with
    ⟨hFilling, hAll⟩
  have hSymbols : p.symbols.FillsTo r.2.symbols := by
    rw [← hStart]
    exact hFilling.fillsTo
  rw [hRun]
  refine ⟨⟨?_, ?_, rfl, hSymbols, rfl⟩, ?_, hFilling.filled,
    ?_⟩
  · dsimp only
    rw [hImports, List.forall₂_map_right_iff]
    exact List.forall₂_same.2 fun _ _ =>
      ⟨rfl, rfl, rfl, fun _ => rfl⟩
  · exact hAll.imp fun _ _ => And.left
  · dsimp only
    rw [hImports]
    exact List.forall_mem_map.2 fun _ _ => rfl
  · intro d hMember
    rcases exists_of_mem_right hAll d hMember with
      ⟨c, -, -, hObeys⟩
    exact hObeys

/- All of the definitions belong to the tree. -/
theorem DerivesProgram.mem_declared
    {source file : String}
    {p : Program}
    (hDerives : DerivesProgram (.initial source file) p)
    {id : DefinitionId}
    (hExists : id < p.symbols.definitions.size) :
    id ∈ p.declared := by
  have hCount := hDerives.count_declared id
  rw [if_pos hExists] at hCount
  exact List.count_pos_iff.1 (hCount ▸ Nat.one_pos)

/- One walk settles a program. -/
theorem isSettled_resolveProgram
    {source file : String}
    {p : Program}
    (hAccepted : parseProgram source file = .ok p)
    (l : Library) :
    (resolveProgram l p).1.IsSettled := by
  rcases filled_resolveProgram hAccepted l with
    ⟨hFills, hImports, hDefinitions, -⟩
  refine ⟨hImports, fun d hMember => ?_⟩
  rcases exists_of_mem_right hFills.declarations d
      hMember with
    ⟨c, hDeclared, hOwn⟩
  rw [hOwn.definition_eq]
  exact hDefinitions c.definition
    (List.mem_flatMap.2
      ⟨c, hDeclared, c.definition_mem⟩)

------------------------------------------------------------
-- Main results
------------------------------------------------------------

/-
  Nothing is left open: all imports are marked, and all
  definitions and all nodes of the tree have their types.
-/
structure Program.IsComplete (p : Program) : Prop where
  imports : ∀ i ∈ p.imports, i.isResolved
  definitions :
    ∀ id < p.symbols.definitions.size,
      (p.symbols.type? id).isSome
  exprs : ∀ n ∈ p.nodes, n.expr.type.isSome
  tree : p.Obeys .filled

/-
  Resolving fills every slot of a program, even if it fails:
  whatever is reported, the program is complete after one
  walk, and is the same but for what was filled in.
-/
theorem isComplete_resolveProgram
    {source file : String}
    {p : Program}
    (hAccepted : parseProgram source file = .ok p)
    (l : Library) :
    let r := (resolveProgram l p).1
    p.FillsTo r ∧ r.IsComplete := by
  have hDerives := derivesProgram_of_parseProgram hAccepted
  rcases filled_resolveProgram hAccepted l with
    ⟨hFills, hImports, hDefinitions, hObeys⟩
  refine ⟨hFills, hImports, fun id hExists => ?_,
    hObeys.everywhere ensure_filled, hObeys⟩
  rw [hFills.symbols.size_eq] at hExists
  exact hDefinitions id (hDerives.mem_declared hExists)

/- Faults in an import, in a written type, and in a name. -/
def faultySource : String :=
  "import \"a\" { B } fun f(x: B | int = 1) { y.z(x); }"

set_option maxRecDepth 2000 in
theorem exists_faulty :
    ∃ p,
      parseProgram faultySource "main" = .ok p ∧
        (resolveProgram .empty p).2.length = 3 := by
  refine ⟨?p, ?_, ?_⟩
  rotate_left
  · conv => lhs; cbv
  · decide +kernel

theorem isComplete_resolveProgram_faulty :
    ∃ p,
      parseProgram faultySource "main" = .ok p ∧
        (resolveProgram .empty p).2 ≠ [] ∧
          p.FillsTo (resolveProgram .empty p).1 ∧
            (resolveProgram .empty p).1.IsComplete := by
  rcases exists_faulty with ⟨p, hParse, hLength⟩
  have hSome : (resolveProgram .empty p).2 ≠ [] := by
    intro hNone
    rw [hNone] at hLength
    cases hLength
  exact ⟨p, hParse, hSome,
    isComplete_resolveProgram hParse .empty⟩

/-
  Resolving again does nothing, whatever the libraries: the
  second walk reports nothing and changes nothing.  Neither
  does a walk over any of the expressions, wherever it
  starts; it gives the type that is stored.
-/
theorem resolveProgram_idempotent
    {source file : String}
    {p : Program}
    (hAccepted : parseProgram source file = .ok p)
    (first second : Library) :
    let r := (resolveProgram first p).1
    resolveProgram second r = (r, []) ∧
      ∀ n ∈ r.nodes,
        ∃ t,
          n.expr.type = some t ∧
            ∀ around z,
              (resolveExpr around n.expr).outcome z =
                ((n.expr, t), z) := by
  have hSettled := isSettled_resolveProgram hAccepted first
  rcases filled_resolveProgram hAccepted first with
    ⟨-, -, -, hObeys⟩
  refine ⟨hSettled.resolveProgram_eq second,
    fun n hMember => ?_⟩
  rcases Option.isSome_iff_exists.1
      (hObeys.everywhere ensure_filled n hMember) with
    ⟨t, hType⟩
  exact ⟨t, hType, fun around z =>
    outcome_resolveExpr_typed hType around z⟩

/- Nothing is reported again, with another library. -/
theorem resolveProgram_idempotent_faulty :
    ∃ p,
      parseProgram faultySource "main" = .ok p ∧
        (resolveProgram .empty p).2.length = 3 ∧
          resolveProgram .standard
              (resolveProgram .empty p).1 =
            ((resolveProgram .empty p).1, []) := by
  rcases exists_faulty with ⟨p, hParse, hLength⟩
  have hBoth :=
    resolveProgram_idempotent hParse .empty .standard
  exact ⟨p, hParse, hLength, hBoth.1⟩

/- A settled program stays the same over any walks. -/
theorem Program.IsSettled.foldl_eq
    {p : Program}
    (hSettled : p.IsSettled)
    (libraries : List Library) :
    libraries.foldl (fun q l => (resolveProgram l q).1) p =
      p := by
  induction libraries with
  | nil => rfl
  | cons l libraries ih =>
      rw [List.foldl_cons, hSettled.resolveProgram_eq l]
      exact ih

/-
  Resolving only fills slots: after any walks over a program,
  one more changes nothing but slots that are empty, and what
  the program means is the same.
-/
theorem fillsTo_resolveProgram
    {source file : String}
    {p : Program}
    (hAccepted : parseProgram source file = .ok p)
    (libraries : List Library)
    (l : Library) :
    let before :=
      libraries.foldl (fun q m => (resolveProgram m q).1) p
    let after := (resolveProgram l before).1
    before.FillsTo after ∧ after.equivalent before := by
  have hFills :
      let before :=
        libraries.foldl (fun q m => (resolveProgram m q).1) p
      before.FillsTo (resolveProgram l before).1 := by
    cases libraries with
    | nil => exact (filled_resolveProgram hAccepted l).1
    | cons first others =>
        have hSettled :=
          isSettled_resolveProgram hAccepted first
        dsimp only
        rw [List.foldl_cons, hSettled.foldl_eq,
          hSettled.resolveProgram_eq]
        exact .refl _
  exact ⟨hFills, hFills.equivalent⟩

/- One walk with faults, and one after it. -/
theorem fillsTo_resolveProgram_faulty :
    ∃ p,
      parseProgram faultySource "main" = .ok p ∧
        let r := (resolveProgram .empty p).1
        p.FillsTo r ∧
          r.FillsTo (resolveProgram .standard r).1 := by
  rcases exists_faulty with ⟨p, hParse, -⟩
  have hFirst := fillsTo_resolveProgram hParse [] .empty
  have hSecond :=
    fillsTo_resolveProgram hParse [.empty] .standard
  exact ⟨p, hParse, hFirst.1, hSecond.1⟩

end SourceCheck
