import SourceCheck.Proofs.Annotations.Memory
import SourceCheck.Proofs.Syntax.Declared

/-
  Walks over the written types of trees.

  A walk over a tree as it was read resolves the written types
  in it one after the other, and each of them gets the type
  that is evaluated for it.  Everything is reported at the
  start of a token.

  Key definitions include:
    * `EvaluatedExpr`

  Key theorems include:
    * `traces_resolveExpr`
    * `traces_resolveFunction`
    * `traces_declarations`
-/

namespace SourceCheck

open SourceCheck.Resolver

variable {T : Token → Prop}
variable {known : String → Option Ty}

------------------------------------------------------------
-- Parameters
------------------------------------------------------------

theorem traces_parameterType
    (hNames : NamesTypes T)
    {p : Parameter}
    (hParsed : p.typeExpr.Obeys .parsed)
    (hStands : p.typeExpr.Obeys (.standing T))
    (hPlace : IsStart T p.span.start) :
    Traces (IsStart T) known [p.definition]
      p.typeExpr.mentions (parameterType p)
      (fun r => r.1.Obeys (.evaluated known)) := by
  unfold parameterType
  refine (traces_resolveDeclared hNames hParsed
    hStands).quiet fun r hType => ?_
  rcases r with ⟨typeExpr, declared⟩
  cases declared with
  | none =>
      refine (traces_of_reportsAt
        (reportsAt_errorType rfl hPlace)).next
          fun type _ => ?_
      exact (traces_fillType p.definition type).last
        fun _ _ => traces_pure hType
  | some type =>
      exact (traces_fillType p.definition type).last
        fun _ _ => traces_pure hType

theorem traces_parameterTypes
    (hNames : NamesTypes T)
    {ps : List Parameter}
    (hParsed : parametersObey .parsed ps)
    (hStands : parametersObey (.standing T) ps) :
    Traces (IsStart T) known (ps.map (·.definition))
      (parametersMentions ps) (ps.mapM parameterType)
      (List.Forall₂
        (fun _ r => r.1.Obeys (.evaluated known)) ps) := by
  rw [List.map_eq_flatMap]
  refine traces_mapM fun p hMember => ?_
  have hStart := parameters_obey hStands p hMember
  exact traces_parameterType hNames
    (parameters_obey hParsed p hMember).2.1 hStart.2.1
    hStart.1

/- Written types and defaults are put together again. -/
theorem evaluated_withTypes
    {ps qs : List Parameter}
    {ds : List (TypeExpr × Ty)}
    (hTypes :
      List.Forall₂ (fun _ r => r.1.Obeys (.evaluated known))
        ps ds)
    (hDefaults :
      List.Forall₂
        (fun _ q => optionObeys (.evaluated known) q.fallback)
        ps qs) :
    parametersObey (.evaluated known)
      (withTypes qs (ds.map (·.1))) := by
  induction hTypes generalizing qs with
  | nil =>
      cases hDefaults
      trivial
  | cons hType _ ih =>
      cases hDefaults with
      | @cons _ q _ qs hDefault hOthers =>
          exact ⟨⟨trivial, hType, hDefault⟩, ih hOthers⟩

------------------------------------------------------------
-- Members
------------------------------------------------------------

/- An expression behind its walk, which starts where it did. -/
structure EvaluatedExpr
    (T : Token → Prop)
    (known : String → Option Ty)
    (r : Expr × Ty) :
    Prop where
  place : IsStart T r.1.span.start
  obeys : r.1.Obeys (.evaluated known)

/- The right side of an access, if its arguments are walked. -/
theorem traces_resolveMember
    {around : Surroundings}
    {e : Expr}
    (hParsed : e.ObeysAside .parsed)
    (hStands : e.ObeysAside (.standing T))
    (hArguments :
      ∀ name arguments target,
        e.form = .invocation name arguments target →
          Traces (IsStart T) known
            (argumentsDeclared arguments)
            (argumentsMentions arguments)
            (resolveArguments around arguments)
            (fun r =>
              argumentsObey (.evaluated known) r.1))
    (left : Ty)
    {p : Position}
    (hPlace : IsStart T p) :
    Traces (IsStart T) known e.declared e.mentions
      (resolveMember around left p e)
      (fun r => r.1.ObeysAside (.evaluated known)) := by
  unfold resolveMember
  split
  · rename_i name arguments target span type
    refine (hArguments name arguments _ rfl).last
      fun r hOwn => ?_
    refine (traces_of_reportsAt
      (reportsAt_memberCall hPlace hStands.1 left name r.2
        target)).last fun _ _ => ?_
    exact traces_pure ⟨trivial, hOwn⟩
  · rename_i name target span type
    refine (traces_of_reportsAt
      (reportsAt_memberProperty hPlace hStands.1 left name
        target)).last fun _ _ => ?_
    exact traces_pure ⟨trivial, trivial⟩
  · rename_i form span type hInvocation hReference
    have hIs := hParsed.1.2
    cases form with
    | invocation _ _ _ => exact (hInvocation _ _ _ rfl).elim
    | reference _ _ => exact (hReference _ _ rfl).elim
    | _ => cases hIs

------------------------------------------------------------
-- Trees
------------------------------------------------------------

mutual

theorem traces_resolveForm
    (hNames : NamesTypes T)
    {around : Surroundings}
    {p : Position}
    (hPlace : IsStart T p) :
    ∀ form : ExprForm,
      form.Obeys .parsed →
        form.Obeys (.standing T) →
          Traces (IsStart T) known form.declared form.mentions
            (resolveForm around p form)
            (fun r => r.1.Obeys (.evaluated known))
  | .int _, _, _ => by
      unfold resolveForm
      exact traces_pure trivial
  | .long _, _, _ => by
      unfold resolveForm
      exact traces_pure trivial
  | .boolean _, _, _ => by
      unfold resolveForm
      exact traces_pure trivial
  | .string _, _, _ => by
      unfold resolveForm
      exact traces_pure trivial
  | .template parts, hParsed, hStands => by
      unfold resolveForm
      exact (traces_resolveExprs hNames parts hParsed
        hStands).last fun _ hOwn => traces_pure hOwn
  | .reference name target, _, _ => by
      unfold resolveForm
      exact (traces_of_reportsAt
        (reportsAt_reference hPlace around name target)).last
          fun _ _ => traces_pure trivial
  | .invocation name arguments target, hParsed,
      hStands => by
      unfold resolveForm
      refine (traces_resolveArguments hNames arguments
        hParsed hStands).last fun r hOwn => ?_
      exact (traces_of_reportsAt
        (reportsAt_invocation hPlace around name r.2
          target)).last fun _ _ => traces_pure hOwn
  | .call callee arguments, hParsed, hStands => by
      unfold resolveForm
      refine (traces_resolveExpr hNames callee hParsed.1
        hStands.1).bind fun c hCallee => ?_
      refine (traces_resolveArguments hNames arguments
        hParsed.2 hStands.2).last fun r hOwn => ?_
      exact (traces_of_reportsAt
        (reportsAt_callType hPlace "" c.2 r.2)).last
          fun _ _ => traces_pure ⟨hCallee.obeys, hOwn⟩
  | .access left safe right, hParsed, hStands => by
      unfold resolveForm
      refine (traces_resolveExpr hNames left hParsed.1
        hStands.1).bind fun r hLeft => ?_
      exact (traces_resolveMember hParsed.2 hStands.2
        (traces_memberArguments hNames right hParsed.2
          hStands.2) r.2 hPlace).last
          fun _ hRight => traces_pure ⟨hLeft.obeys, hRight⟩
  | .binary left operator right, hParsed, hStands => by
      unfold resolveForm
      refine (traces_resolveExpr hNames left hParsed.1
        hStands.1).bind fun a hLeft => ?_
      refine (traces_resolveExpr hNames right hParsed.2
        hStands.2).last fun b hRight => ?_
      exact (traces_of_reportsAt
        (reportsAt_binaryType hPlace operator a.2 b.2)).last
          fun _ _ => traces_pure ⟨hLeft.obeys, hRight.obeys⟩
  | .unary operator operand, hParsed, hStands => by
      unfold resolveForm
      refine (traces_resolveExpr hNames operand hParsed
        hStands).last fun a hOwn => ?_
      exact (traces_of_reportsAt
        (reportsAt_unaryType hPlace operator a.2)).last
          fun _ _ => traces_pure hOwn.obeys
  | .assignment target operator value, hParsed,
      hStands => by
      unfold resolveForm
      refine (traces_resolveExpr hNames target hParsed.1
        hStands.1).bind fun a hTarget => ?_
      refine (traces_resolveExpr hNames value hParsed.2
        hStands.2).last fun b hValue => ?_
      exact (traces_of_reportsAt
        (reportsAt_checkAssignment hTarget.place
          hStands.2.isStart a.2 operator b.2)).last
          fun _ _ => traces_pure
            ⟨hTarget.obeys, hValue.obeys⟩
  | .parenthesized inner, hParsed, hStands => by
      unfold resolveForm
      exact (traces_resolveExpr hNames inner hParsed
        hStands).last fun _ hOwn => traces_pure hOwn.obeys
  | .block statements scope, hParsed, hStands => by
      unfold resolveForm
      exact (traces_resolveStatements hNames .unit statements
        hParsed hStands).last fun _ hOwn => traces_pure hOwn
  | .conditional condition thenBranch elseBranch, hParsed,
      hStands => by
      unfold resolveForm
      refine (traces_resolveExpr hNames condition hParsed.1
        hStands.1).bind fun c hCondition => ?_
      refine (traces_of_reportsAt
        (reportsAt_checkAssignable hStands.1.isStart .boolean
          c.2)).next fun _ _ => ?_
      refine (traces_resolveExpr hNames thenBranch
        hParsed.2.1 hStands.2.1).bind fun a hThen => ?_
      exact (traces_resolveOption hNames elseBranch
        hParsed.2.2 hStands.2.2).last fun b hElse =>
          traces_pure
            ⟨hCondition.obeys, hThen.obeys, hElse⟩
  | .function parameters returnType body scope, hParsed,
      hStands => by
      unfold resolveForm
      refine (traces_parameterTypes hNames hParsed.1
        hStands.1).bind fun ds hTypes => ?_
      refine (traces_resolveDefaults hNames parameters
        hParsed.1 hStands.1).bind fun qs hDefaults => ?_
      refine (traces_resolveDeclared hNames hParsed.2.1
        hStands.2.1).bind fun d hDeclared => ?_
      refine (traces_resolveExpr hNames body hParsed.2.2
        hStands.2.2).last fun b hBody => ?_
      exact (traces_of_reportsAt
        (reportsAt_checkBody hStands.2.2.isStart d.2
          b.2)).last fun _ _ => traces_pure
            ⟨evaluated_withTypes hTypes hDefaults, hDeclared,
              hBody.obeys⟩
  | .lambda parameters body scope, hParsed, hStands => by
      unfold resolveForm
      refine (traces_parameterTypes hNames hParsed.1
        hStands.1).bind fun ds hTypes => ?_
      refine (traces_resolveDefaults hNames parameters
        hParsed.1 hStands.1).bind fun qs hDefaults => ?_
      exact (traces_resolveExpr hNames body hParsed.2
        hStands.2).last fun b hBody => traces_pure
          ⟨evaluated_withTypes hTypes hDefaults,
            hBody.obeys⟩
  | .ret none, _, _ => by
      unfold resolveForm
      cases around.returns with
      | none => exact traces_pure trivial
      | some expected =>
          exact (traces_of_reportsAt
            (reportsAt_checkAssignable hPlace expected
              .unit)).last fun _ _ => traces_pure trivial
  | .ret (some value), hParsed, hStands => by
      unfold resolveForm
      refine (traces_resolveExpr hNames value hParsed
        hStands).last fun r hOwn => ?_
      have hStart : IsStart T value.span.start :=
        Expr.Obeys.isStart hStands
      cases around.returns with
      | none => exact traces_pure hOwn.obeys
      | some expected =>
          exact (traces_of_reportsAt
            (reportsAt_checkAssignable hStart expected
              r.2)).last fun _ _ => traces_pure hOwn.obeys
termination_by structural form => form

theorem traces_resolveExpr
    (hNames : NamesTypes T)
    {around : Surroundings} :
    ∀ e : Expr,
      e.Obeys .parsed →
        e.Obeys (.standing T) →
          Traces (IsStart T) known e.declared e.mentions
            (resolveExpr around e) (EvaluatedExpr T known)
  | ⟨form, span, some type⟩, hParsed, _ =>
      absurd hParsed.1.1 nofun
  | ⟨form, span, none⟩, hParsed, hStands => by
      unfold resolveExpr
      exact (traces_resolveForm hNames hStands.1 form
        hParsed.2 hStands.2).last fun _ hForm =>
          traces_pure ⟨hStands.1, trivial, hForm⟩
termination_by structural e => e

theorem traces_memberArguments
    (hNames : NamesTypes T)
    {around : Surroundings} :
    ∀ e : Expr,
      e.ObeysAside .parsed →
        e.ObeysAside (.standing T) →
          ∀ name arguments target,
            e.form = .invocation name arguments target →
              Traces (IsStart T) known
                (argumentsDeclared arguments)
                (argumentsMentions arguments)
                (resolveArguments around arguments)
                (fun r =>
                  argumentsObey (.evaluated known) r.1)
  | ⟨form, _, _⟩, hParsed, hStands, _, _, _, hForm => by
      cases form with
      | invocation name arguments target =>
          have hOwn :
              Traces (IsStart T) known
                (argumentsDeclared arguments)
                (argumentsMentions arguments)
                (resolveArguments around arguments) _ :=
            traces_resolveArguments hNames arguments
              hParsed.2 hStands.2
          cases hForm
          exact hOwn
      | _ => cases hForm
termination_by structural e => e

theorem traces_resolveOption
    (hNames : NamesTypes T)
    {around : Surroundings} :
    ∀ o : Option Expr,
      optionObeys .parsed o →
        optionObeys (.standing T) o →
          Traces (IsStart T) known (optionDeclared o)
            (optionMentions o) (resolveOption around o)
            (fun r => optionObeys (.evaluated known) r.1)
  | none, _, _ => by
      unfold resolveOption
      exact traces_pure trivial
  | some e, hParsed, hStands => by
      unfold resolveOption
      exact (traces_resolveExpr hNames e hParsed hStands).last
        fun _ hOwn => traces_pure hOwn.obeys
termination_by structural o => o

theorem traces_resolveExprs
    (hNames : NamesTypes T)
    {around : Surroundings} :
    ∀ es : List Expr,
      exprsObey .parsed es →
        exprsObey (.standing T) es →
          Traces (IsStart T) known (exprsDeclared es)
            (exprsMentions es) (resolveExprs around es)
            (exprsObey (.evaluated known))
  | [], _, _ => by
      unfold resolveExprs
      exact traces_pure trivial
  | e :: es, hParsed, hStands => by
      unfold resolveExprs
      refine (traces_resolveExpr hNames e hParsed.1
        hStands.1).bind fun r hFirst => ?_
      exact (traces_resolveExprs hNames es hParsed.2
        hStands.2).last fun _ hOthers =>
          traces_pure ⟨hFirst.obeys, hOthers⟩
termination_by structural es => es

theorem traces_resolveArguments
    (hNames : NamesTypes T)
    {around : Surroundings} :
    ∀ xs : List Argument,
      argumentsObey .parsed xs →
        argumentsObey (.standing T) xs →
          Traces (IsStart T) known (argumentsDeclared xs)
            (argumentsMentions xs)
            (resolveArguments around xs)
            (fun r => argumentsObey (.evaluated known) r.1)
  | [], _, _ => by
      unfold resolveArguments
      exact traces_pure trivial
  | ⟨name, value, span⟩ :: xs, hParsed, hStands => by
      unfold resolveArguments
      refine (traces_resolveExpr hNames value hParsed.1
        hStands.1).bind fun r hFirst => ?_
      exact (traces_resolveArguments hNames xs hParsed.2
        hStands.2).last fun _ hOthers =>
          traces_pure ⟨hFirst.obeys, hOthers⟩
termination_by structural xs => xs

theorem traces_resolveDefaults
    (hNames : NamesTypes T)
    {around : Surroundings} :
    ∀ ps : List Parameter,
      parametersObey .parsed ps →
        parametersObey (.standing T) ps →
          Traces (IsStart T) known (defaultsDeclared ps)
            (defaultsMentions ps) (resolveDefaults around ps)
            (List.Forall₂
              (fun _ q =>
                optionObeys (.evaluated known) q.fallback) ps)
  | [], _, _ => by
      unfold resolveDefaults
      exact traces_pure .nil
  | ⟨name, typeExpr, none, definition, span⟩ :: ps,
      hParsed, hStands => by
      unfold resolveDefaults
      exact (traces_resolveDefaults hNames ps hParsed.2
        hStands.2).last fun _ hOthers =>
          traces_pure (.cons trivial hOthers)
  | ⟨name, typeExpr, some value, definition, span⟩ :: ps,
      hParsed, hStands => by
      unfold resolveDefaults
      refine (traces_resolveExpr hNames value hParsed.1.2.2
        hStands.1.2.2).bind fun r hFirst => ?_
      have hStart : IsStart T value.span.start :=
        Expr.Obeys.isStart hStands.1.2.2
      refine (traces_of_reportsAt
        (reportsAt_checkDefault hStands.1.1 hStart definition
          r.2)).next fun _ _ => ?_
      exact (traces_resolveDefaults hNames ps hParsed.2
        hStands.2).last fun _ hOthers =>
          traces_pure (.cons hFirst.obeys hOthers)
termination_by structural ps => ps

theorem traces_resolveStatements
    (hNames : NamesTypes T)
    {around : Surroundings}
    (last : Ty) :
    ∀ xs : List Statement,
      statementsObey .parsed xs →
        statementsObey (.standing T) xs →
          Traces (IsStart T) known (statementsDeclared xs)
            (statementsMentions xs)
            (resolveStatements around last xs)
            (fun r => statementsObey (.evaluated known) r.1)
  | [], _, _ => by
      unfold resolveStatements
      exact traces_pure trivial
  | x :: xs, hParsed, hStands => by
      unfold resolveStatements
      refine (traces_resolveStatement hNames x hParsed.1
        hStands.1).bind fun r hFirst => ?_
      exact (traces_resolveStatements hNames r.2 xs hParsed.2
        hStands.2).last fun _ hOthers =>
          traces_pure ⟨hFirst, hOthers⟩
termination_by structural xs => xs

theorem traces_resolveStatement
    (hNames : NamesTypes T)
    {around : Surroundings} :
    ∀ x : Statement,
      x.Obeys .parsed →
        x.Obeys (.standing T) →
          Traces (IsStart T) known x.declared x.mentions
            (resolveStatement around x)
            (fun r => r.1.Obeys (.evaluated known))
  | .expression e, hParsed, hStands => by
      unfold resolveStatement
      exact (traces_resolveExpr hNames e hParsed hStands).last
        fun _ hOwn => traces_pure hOwn.obeys
  | .variable v, hParsed, hStands => by
      unfold resolveStatement
      exact (traces_resolveVariable hNames v hParsed
        hStands).last fun _ hOwn => traces_pure hOwn
  | .function f, hParsed, hStands => by
      unfold resolveStatement
      exact (traces_resolveFunction hNames f hParsed
        hStands).last fun _ hOwn => traces_pure hOwn
termination_by structural x => x

theorem traces_resolveVariable
    (hNames : NamesTypes T)
    {around : Surroundings} :
    ∀ v : VariableDecl,
      v.Obeys .parsed →
        v.Obeys (.standing T) →
          Traces (IsStart T) known v.declared v.mentions
            (resolveVariable around v)
            (VariableDecl.Obeys (.evaluated known))
  | ⟨isMutable, name, typeExpr, initializer, definition,
      span⟩, hParsed, hStands => by
      unfold resolveVariable
      refine traces_isResolved
        (List.mem_append_right _
          (List.mem_singleton_self definition)) ?_
      refine (traces_resolveDeclared hNames hParsed.2.1
        hStands.2.1).bind fun d hDeclared => ?_
      refine (traces_resolveOption hNames initializer
        hParsed.2.2 hStands.2.2).quiet fun o hOption => ?_
      have hValue :
          ∀ x,
            (o.2.bind fun t =>
                initializer.map fun e =>
                  (t, e.span.start)) = some x →
              IsStart T x.2 := by
        intro x hSome
        rcases Option.bind_eq_some_iff.1 hSome with
          ⟨t, -, hThere⟩
        rcases Option.map_eq_some_iff.1 hThere with
          ⟨e, rfl, rfl⟩
        exact Expr.Obeys.isStart hStands.2.2
      refine (traces_of_reportsAt
        (reportsAt_variableType hStands.1 hValue name
          d.2)).next fun type _ => ?_
      exact (traces_fillType definition type).last
        fun _ _ => traces_pure ⟨trivial, hDeclared, hOption⟩
termination_by structural v => v

theorem traces_resolveFunction
    (hNames : NamesTypes T)
    {around : Surroundings} :
    ∀ f : FunctionDecl,
      f.Obeys .parsed →
        f.Obeys (.standing T) →
          Traces (IsStart T) known f.declared f.mentions
            (resolveFunction around f)
            (FunctionDecl.Obeys (.evaluated known))
  | ⟨name, parameters, returnType, body, scope, definition,
      span⟩, hParsed, hStands => by
      unfold resolveFunction
      refine traces_isResolved
        (List.mem_append_right _ List.mem_cons_self) ?_
      refine (traces_parameterTypes hNames hParsed.2.1
        hStands.2.1).bind fun ds hTypes => ?_
      refine (traces_resolveDeclared hNames hParsed.2.2.1
        hStands.2.2.1).bind fun d hDeclared => ?_
      refine (traces_fillType definition _).bind
        fun _ _ => ?_
      refine (traces_resolveDefaults hNames parameters
        hParsed.2.1 hStands.2.1).bind fun qs hDefaults => ?_
      refine (traces_resolveOption hNames body hParsed.2.2.2
        hStands.2.2.2).last fun b hBody => ?_
      have hOwn :
          FunctionDecl.Obeys (.evaluated known)
            ⟨name, withTypes qs (ds.map (·.1)), d.1, b.1,
              scope, definition, span⟩ :=
        ⟨trivial, evaluated_withTypes hTypes hDefaults,
          hDeclared, hBody⟩
      rcases b with ⟨body', received⟩
      cases body with
      | none => exact traces_pure hOwn
      | some e =>
          cases received with
          | none => exact traces_pure hOwn
          | some type =>
              have hStart : IsStart T e.span.start :=
                Expr.Obeys.isStart hStands.2.2.2
              exact (traces_of_reportsAt
                (reportsAt_checkBody hStart d.2 type)).last
                  fun _ _ => traces_pure hOwn
termination_by structural f => f

end

------------------------------------------------------------
-- Declarations
------------------------------------------------------------

theorem traces_resolveDeclaration
    (hNames : NamesTypes T)
    (around : Surroundings)
    {d : Declaration}
    (hParsed : d.Obeys .parsed)
    (hStands : d.Obeys (.standing T)) :
    Traces (IsStart T) known d.declared d.mentions
      (resolveDeclaration around d)
      (Declaration.Obeys (.evaluated known)) := by
  cases d with
  | function f =>
      exact (traces_resolveFunction hNames f hParsed
        hStands).last fun _ hOwn => traces_pure hOwn
  | property v =>
      exact (traces_resolveVariable hNames v hParsed
        hStands).last fun _ hOwn => traces_pure hOwn

/- All declarations of a program. -/
theorem traces_declarations
    (hNames : NamesTypes T)
    (around : Surroundings)
    {ds : List Declaration}
    (hParsed : ∀ d ∈ ds, d.Obeys .parsed)
    (hStands : ∀ d ∈ ds, d.Obeys (.standing T)) :
    Traces (IsStart T) known
      (ds.flatMap Declaration.declared)
      (ds.flatMap Declaration.mentions)
      (ds.mapM (resolveDeclaration around))
      (List.Forall₂
        (fun _ e => e.Obeys (.evaluated known)) ds) :=
  traces_mapM fun d hMember =>
    traces_resolveDeclaration hNames around
      (hParsed d hMember) (hStands d hMember)

end SourceCheck
