import SourceCheck.Resolution.Stacks

/-
  The stacks of a resolver are balanced.

  Whatever is resolved with two stacks leaves them as they
  were, and is resolved as it is where their tops surround
  it.  So a resolver may be told what surrounds a node, and
  needs no stacks.

  Key definitions include:
    * `Stacked.Carries`

  Key theorems include:
    * `Stacked.carries_resolveExpr`
    * `Stacked.carries_resolveFunction`
    * `Stacked.run_resolveParts`
-/

namespace SourceCheck

namespace Stacked

variable {α β : Type}
variable {a b c : Stacks}
variable {scope : ScopeId}
variable {declared : Option Ty}

------------------------------------------------------------
-- Stacks along runs
------------------------------------------------------------

/-
  A resolver with stacks does what the one without them does,
  and turns the first stacks into the second ones.
-/
def Carries
    (a : Stacks)
    (p : StackResolver α)
    (q : Resolver α)
    (b : Stacks) :
    Prop :=
  p.run a = do return (← q, b)

theorem carries_pure (x : α) :
    Carries a (pure x) (pure x) a :=
  rfl

/- What does not look at the stacks leaves them alone. -/
theorem carries_lift (q : Resolver α) :
    Carries a (liftM q) q a :=
  rfl

theorem Carries.bind
    {p : StackResolver α}
    {q : Resolver α}
    {f : α → StackResolver β}
    {g : α → Resolver β}
    (hFirst : Carries a p q b)
    (hRest : ∀ x, Carries b (f x) (g x) c) :
    Carries a (p >>= f) (q >>= g) c := by
  unfold Carries at *
  rw [StateT.run_bind, hFirst]
  simp only [bind_assoc, pure_bind, hRest]

section Tops

variable {f : PUnit → StackResolver β}
variable {q : Resolver β}

theorem carries_enter
    (hRest : Carries (a.entered scope) (f ⟨⟩) q b) :
    Carries a (enter scope >>= f) q b :=
  hRest

theorem carries_leave
    (hRest : Carries a (f ⟨⟩) q b) :
    Carries (a.entered scope) (leave >>= f) q b :=
  hRest

theorem carries_push
    (hRest : Carries (a.pushed declared) (f ⟨⟩) q b) :
    Carries a (push declared >>= f) q b :=
  hRest

theorem carries_pop
    (hRest : Carries a (f ⟨⟩) q b) :
    Carries (a.pushed declared) (pop >>= f) q b :=
  hRest

theorem carries_around
    {f : Surroundings → StackResolver β}
    (hRest : Carries a (f a.top) q b) :
    Carries a (around >>= f) q b :=
  hRest

/- A return looks at the innermost function only. -/
theorem carries_checkReturn
    (received : Ty)
    (p : Position)
    (x : β) :
    Carries a (checkReturn received p >>= fun _ => pure x)
      (match a.top.returns with
        | none => pure x
        | some expected =>
            Resolver.checkAssignable expected received p >>=
              fun _ => pure x)
      a := by
  unfold checkReturn
  rw [bind_assoc]
  refine carries_around ?_
  cases a.top.returns with
  | none => exact carries_pure x
  | some expected =>
      exact (carries_lift _).bind fun _ => carries_pure x

end Tops

theorem carries_mapM
    {f : α → StackResolver β}
    {g : α → Resolver β}
    (hEach : ∀ x, Carries a (f x) (g x) a)
    (xs : List α) :
    Carries a (xs.mapM f) (xs.mapM g) a := by
  induction xs with
  | nil => exact carries_pure []
  | cons x xs ih =>
      rw [List.mapM_cons, List.mapM_cons]
      exact (hEach x).bind fun _ => ih.bind fun _ =>
        carries_pure _

------------------------------------------------------------
-- Trees
------------------------------------------------------------

mutual

theorem carries_resolveForm
    (a : Stacks)
    (p : Position) :
    ∀ form : ExprForm,
      Carries a (resolveForm p form)
        (SourceCheck.resolveForm a.top p form) a
  | .int _ => carries_pure _
  | .long _ => carries_pure _
  | .boolean _ => carries_pure _
  | .string _ => carries_pure _
  | .template parts => by
      unfold resolveForm SourceCheck.resolveForm
      exact (carries_resolveExprs a parts).bind fun _ =>
        carries_pure _
  | .reference name target => by
      unfold resolveForm SourceCheck.resolveForm
      refine carries_around ?_
      exact (carries_lift _).bind fun _ => carries_pure _
  | .invocation name arguments target => by
      unfold resolveForm SourceCheck.resolveForm
      refine (carries_resolveArguments a arguments).bind
        fun _ => carries_around ?_
      exact (carries_lift _).bind fun _ => carries_pure _
  | .call callee arguments => by
      unfold resolveForm SourceCheck.resolveForm
      refine (carries_resolveExpr a callee).bind fun _ => ?_
      refine (carries_resolveArguments a arguments).bind
        fun _ => ?_
      exact (carries_lift _).bind fun _ => carries_pure _
  | .access left safe right => by
      unfold resolveForm SourceCheck.resolveForm
      refine (carries_resolveExpr a left).bind fun _ => ?_
      exact (carries_resolveMember a _ p right).bind fun _ =>
        carries_pure _
  | .binary left operator right => by
      unfold resolveForm SourceCheck.resolveForm
      refine (carries_resolveExpr a left).bind fun _ => ?_
      refine (carries_resolveExpr a right).bind fun _ => ?_
      exact (carries_lift _).bind fun _ => carries_pure _
  | .unary operator operand => by
      unfold resolveForm SourceCheck.resolveForm
      refine (carries_resolveExpr a operand).bind fun _ => ?_
      exact (carries_lift _).bind fun _ => carries_pure _
  | .assignment target operator value => by
      unfold resolveForm SourceCheck.resolveForm
      refine (carries_resolveExpr a target).bind fun _ => ?_
      refine (carries_resolveExpr a value).bind fun _ => ?_
      exact (carries_lift _).bind fun _ => carries_pure _
  | .parenthesized inner => by
      unfold resolveForm SourceCheck.resolveForm
      exact (carries_resolveExpr a inner).bind fun _ =>
        carries_pure _
  | .block statements scope => by
      unfold resolveForm SourceCheck.resolveForm
      refine carries_enter ?_
      exact (carries_resolveStatements (a.entered scope) .unit
        statements).bind fun _ =>
          carries_leave (carries_pure _)
  | .conditional condition thenBranch elseBranch => by
      unfold resolveForm SourceCheck.resolveForm
      refine (carries_resolveExpr a condition).bind
        fun _ => ?_
      refine (carries_lift _).bind fun _ => ?_
      refine (carries_resolveExpr a thenBranch).bind
        fun _ => ?_
      exact (carries_resolveOption a elseBranch).bind
        fun _ => carries_pure _
  | .function parameters returnType body scope => by
      unfold resolveForm SourceCheck.resolveForm
      refine carries_enter ?_
      refine (carries_lift _).bind fun _ => ?_
      refine (carries_resolveDefaults (a.entered scope)
        parameters).bind fun _ => ?_
      refine (carries_lift _).bind fun r => ?_
      refine carries_push ?_
      refine (carries_resolveExpr
        ((a.entered scope).pushed r.2) body).bind fun _ => ?_
      refine carries_pop (carries_leave ?_)
      exact (carries_lift _).bind fun _ => carries_pure _
  | .lambda parameters body scope => by
      unfold resolveForm SourceCheck.resolveForm
      refine carries_enter ?_
      refine (carries_lift _).bind fun _ => ?_
      refine (carries_resolveDefaults (a.entered scope)
        parameters).bind fun _ => ?_
      refine carries_push ?_
      exact (carries_resolveExpr
        ((a.entered scope).pushed none) body).bind fun _ =>
          carries_pop (carries_leave (carries_pure _))
  | .ret none => by
      unfold resolveForm SourceCheck.resolveForm
      exact carries_checkReturn .unit p _
  | .ret (some value) => by
      unfold resolveForm SourceCheck.resolveForm
      exact (carries_resolveExpr a value).bind fun _ =>
        carries_checkReturn _ _ _
termination_by structural form => form

theorem carries_resolveExpr (a : Stacks) :
    ∀ e : Expr,
      Carries a (resolveExpr e)
        (SourceCheck.resolveExpr a.top e) a
  | ⟨form, span, some type⟩ => carries_pure _
  | ⟨form, span, none⟩ => by
      unfold resolveExpr SourceCheck.resolveExpr
      exact (carries_resolveForm a span.start form).bind
        fun _ => carries_pure _
termination_by structural e => e

theorem carries_resolveMember
    (a : Stacks)
    (left : Ty)
    (p : Position) :
    ∀ e : Expr,
      Carries a (resolveMember left p e)
        (SourceCheck.resolveMember a.top left p e) a
  | ⟨form, span, type⟩ => by
      cases form with
      | invocation name arguments target =>
          unfold resolveMember SourceCheck.resolveMember
          refine (carries_resolveArguments a arguments).bind
            fun _ => ?_
          exact (carries_lift _).bind fun _ => carries_pure _
      | _ =>
          unfold resolveMember SourceCheck.resolveMember
          exact (carries_lift _).bind fun _ => carries_pure _
termination_by structural e => e

theorem carries_resolveOption (a : Stacks) :
    ∀ o : Option Expr,
      Carries a (resolveOption o)
        (SourceCheck.resolveOption a.top o) a
  | none => carries_pure _
  | some e => by
      unfold resolveOption SourceCheck.resolveOption
      exact (carries_resolveExpr a e).bind fun _ =>
        carries_pure _
termination_by structural o => o

theorem carries_resolveExprs (a : Stacks) :
    ∀ es : List Expr,
      Carries a (resolveExprs es)
        (SourceCheck.resolveExprs a.top es) a
  | [] => carries_pure _
  | e :: es => by
      unfold resolveExprs SourceCheck.resolveExprs
      refine (carries_resolveExpr a e).bind fun _ => ?_
      exact (carries_resolveExprs a es).bind fun _ =>
        carries_pure _
termination_by structural es => es

theorem carries_resolveArguments (a : Stacks) :
    ∀ xs : List Argument,
      Carries a (resolveArguments xs)
        (SourceCheck.resolveArguments a.top xs) a
  | [] => carries_pure _
  | ⟨name, value, span⟩ :: xs => by
      unfold resolveArguments SourceCheck.resolveArguments
      refine (carries_resolveExpr a value).bind fun _ => ?_
      exact (carries_resolveArguments a xs).bind fun _ =>
        carries_pure _
termination_by structural xs => xs

theorem carries_resolveDefaults (a : Stacks) :
    ∀ ps : List Parameter,
      Carries a (resolveDefaults ps)
        (SourceCheck.resolveDefaults a.top ps) a
  | [] => carries_pure _
  | ⟨name, typeExpr, none, definition, span⟩ :: ps => by
      unfold resolveDefaults SourceCheck.resolveDefaults
      exact (carries_resolveDefaults a ps).bind fun _ =>
        carries_pure _
  | ⟨name, typeExpr, some value, definition, span⟩ ::
      ps => by
      unfold resolveDefaults SourceCheck.resolveDefaults
      refine (carries_resolveExpr a value).bind fun _ => ?_
      refine (carries_lift _).bind fun _ => ?_
      exact (carries_resolveDefaults a ps).bind fun _ =>
        carries_pure _
termination_by structural ps => ps

theorem carries_resolveStatements
    (a : Stacks)
    (last : Ty) :
    ∀ xs : List Statement,
      Carries a (resolveStatements last xs)
        (SourceCheck.resolveStatements a.top last xs) a
  | [] => carries_pure _
  | x :: xs => by
      unfold resolveStatements SourceCheck.resolveStatements
      refine (carries_resolveStatement a x).bind fun _ => ?_
      exact (carries_resolveStatements a _ xs).bind fun _ =>
        carries_pure _
termination_by structural xs => xs

theorem carries_resolveStatement (a : Stacks) :
    ∀ x : Statement,
      Carries a (resolveStatement x)
        (SourceCheck.resolveStatement a.top x) a
  | .expression e => by
      unfold resolveStatement SourceCheck.resolveStatement
      exact (carries_resolveExpr a e).bind fun _ =>
        carries_pure _
  | .variable v => by
      unfold resolveStatement SourceCheck.resolveStatement
      exact (carries_resolveVariable a v).bind fun _ =>
        carries_pure _
  | .function f => by
      unfold resolveStatement SourceCheck.resolveStatement
      exact (carries_resolveFunction a f).bind fun _ =>
        carries_pure _
termination_by structural x => x

theorem carries_resolveVariable (a : Stacks) :
    ∀ v : VariableDecl,
      Carries a (resolveVariable v)
        (SourceCheck.resolveVariable a.top v) a
  | ⟨isMutable, name, typeExpr, initializer, definition,
      span⟩ => by
      unfold resolveVariable SourceCheck.resolveVariable
      refine (carries_lift _).bind fun known => ?_
      cases known with
      | true => exact carries_pure _
      | false =>
          refine (carries_lift _).bind fun _ => ?_
          refine (carries_resolveOption a initializer).bind
            fun _ => ?_
          refine (carries_lift _).bind fun _ => ?_
          exact (carries_lift _).bind fun _ => carries_pure _
termination_by structural v => v

theorem carries_resolveFunction (a : Stacks) :
    ∀ f : FunctionDecl,
      Carries a (resolveFunction f)
        (SourceCheck.resolveFunction a.top f) a
  | ⟨name, parameters, returnType, body, scope, definition,
      span⟩ => by
      unfold resolveFunction SourceCheck.resolveFunction
      refine (carries_lift _).bind fun known => ?_
      cases known with
      | true => exact carries_pure _
      | false =>
          refine carries_enter ?_
          refine (carries_lift _).bind fun types => ?_
          refine (carries_lift _).bind fun r => ?_
          refine (carries_lift _).bind fun _ => ?_
          refine (carries_resolveDefaults (a.entered scope)
            parameters).bind fun parameters' => ?_
          let resolved (body' : Option Expr) : FunctionDecl :=
            ⟨name,
              Resolver.withTypes parameters'
                (types.map (·.1)),
              r.1, body', scope, definition, span⟩
          exact carries_resolveBody (a.entered scope) r.2 body
            (g := fun body' => pure (resolved body'))
            fun _ => carries_leave (carries_pure _)
termination_by structural f => f

/- What follows a body goes on with the same stacks. -/
theorem carries_resolveBody
    (a : Stacks)
    (declared : Option Ty) :
    ∀ (body : Option Expr)
      {β : Type}
      {f : Option Expr → StackResolver β}
      {g : Option Expr → Resolver β}
      {c : Stacks},
      (∀ o, Carries a (f o) (g o) c) →
        Carries a (resolveBody declared body >>= f)
          (SourceCheck.resolveOption (a.pushed declared).top
              body >>=
            fun r =>
              match body, r.2 with
              | some e, some type => do
                  let _ ←
                    Resolver.checkBody declared type
                      e.span.start
                  g r.1
              | _, _ => g r.1)
          c
  | none, _, _, _, _, hRest => hRest none
  | some e, _, _, _, _, hRest => by
      unfold resolveBody SourceCheck.resolveOption
      simp only [bind_assoc, pure_bind]
      refine carries_push ?_
      refine (carries_resolveExpr (a.pushed declared) e).bind
        fun _ => carries_pop ?_
      exact (carries_lift _).bind fun _ => hRest _
termination_by structural body => body

end

------------------------------------------------------------
-- Programs
------------------------------------------------------------

theorem carries_resolveDeclaration
    (a : Stacks)
    (d : Declaration) :
    Carries a (resolveDeclaration d)
      (SourceCheck.resolveDeclaration a.top d) a := by
  cases d with
  | function f =>
      exact (carries_resolveFunction a f).bind fun _ =>
        carries_pure _
  | property v =>
      exact (carries_resolveVariable a v).bind fun _ =>
        carries_pure _

/-
  A program is resolved with stacks as it is without them,
  and both stacks are empty again at its end.
-/
theorem run_resolveParts
    (library : Library)
    (program : Program) :
    (resolveParts library program).run .empty = do
      let resolved ← SourceCheck.resolveParts library program
      return (resolved, .empty) := by
  refine carries_enter ?_
  refine (carries_lift _).bind fun _ => ?_
  refine (carries_mapM
    (carries_resolveDeclaration
      (Stacks.empty.entered program.scope))
    program.declarations).bind fun _ => ?_
  exact carries_leave (carries_pure _)

end Stacked

end SourceCheck
