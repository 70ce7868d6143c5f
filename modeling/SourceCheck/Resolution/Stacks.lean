import SourceCheck.Resolution.Program

/-
  Resolving with two stacks.

  One stack holds the scopes around the current place, the
  other one the declared types of the functions around it.
  A scope is entered where its node starts and left where it
  ends, and so is a function body; names and returns look at
  the tops of the stacks.

  Key definitions include:
    * `Stacks`
    * `StackResolver`
    * `Stacked.resolveExpr`
    * `Stacked.resolveFunction`
    * `Stacked.resolveParts`
-/

namespace SourceCheck

------------------------------------------------------------
-- Stacks
------------------------------------------------------------

/-
  The scopes that were entered, and the declared types of
  the functions, where they have one, the innermost first.
-/
structure Stacks where
  scopes : List ScopeId
  returns : List (Option Ty)

namespace Stacks

/- Nothing was entered yet. -/
def empty : Stacks :=
  ⟨[], []⟩

/- The stacks in a scope. -/
def entered (s : Stacks) (scope : ScopeId) : Stacks :=
  { s with scopes := scope :: s.scopes }

/- The stacks behind the innermost scope. -/
def left (s : Stacks) : Stacks :=
  { s with scopes := s.scopes.tail }

/- The stacks in a function body. -/
def pushed (s : Stacks) (declared : Option Ty) : Stacks :=
  { s with returns := declared :: s.returns }

/- The stacks behind the innermost function body. -/
def popped (s : Stacks) : Stacks :=
  { s with returns := s.returns.tail }

/- The tops of both stacks. -/
def top (s : Stacks) : Surroundings :=
  ⟨s.scopes.head?, s.returns.head?.join⟩

end Stacks

/- A resolver with stacks. -/
abbrev StackResolver :=
  StateT Stacks Resolver

namespace Stacked

/- Enter a scope. -/
def enter (scope : ScopeId) : StackResolver PUnit :=
  modify fun s => s.entered scope

/- Leave the innermost scope. -/
def leave : StackResolver PUnit :=
  modify fun s => s.left

/- Start the body of a function. -/
def push (declared : Option Ty) : StackResolver PUnit :=
  modify fun s => s.pushed declared

/- End the body of the innermost function. -/
def pop : StackResolver PUnit :=
  modify fun s => s.popped

/- The innermost scope, and what a return has to give. -/
def around : StackResolver Surroundings := do
  return (← get).top

------------------------------------------------------------
-- Expressions
------------------------------------------------------------

/- The written types of parameters, and their types. -/
def parameterTypes
    (parameters : List Parameter) :
    Resolver (List (TypeExpr × Ty)) :=
  parameters.mapM Resolver.parameterType

/- A return has to give the declared type, if there is one. -/
def checkReturn
    (received : Ty)
    (p : Position) :
    StackResolver PUnit := do
  match (← around).returns with
  | none => return
  | some expected =>
      Resolver.checkAssignable expected received p

mutual

/- A form with its slots filled, and its type. -/
def resolveForm
    (p : Position) :
    ExprForm → StackResolver (ExprForm × Ty)
  | .int value => return (.int value, .int)
  | .long value => return (.long value, .long)
  | .boolean value => return (.boolean value, .boolean)
  | .string value => return (.string value, .string)
  | .template parts => do
      let parts' ← resolveExprs parts
      return (.template parts', .string)
  | .reference name target => do
      let (target', type) ←
        Resolver.reference (← around) name target p
      return (.reference name target', type)
  | .invocation name arguments target => do
      let (arguments', types) ← resolveArguments arguments
      let (target', type) ←
        Resolver.invocation (← around) name types target p
      return (.invocation name arguments' target', type)
  | .call callee arguments => do
      let (callee', calleeType) ← resolveExpr callee
      let (arguments', types) ← resolveArguments arguments
      let type ← Resolver.callType "" calleeType types p
      return (.call callee' arguments', type)
  | .access left safe right => do
      let (left', leftType) ← resolveExpr left
      let (right', type) ← resolveMember leftType p right
      return (.access left' safe right', type)
  | .binary left operator right => do
      let (left', s) ← resolveExpr left
      let (right', t) ← resolveExpr right
      let type ← Resolver.binaryType operator s t p
      return (.binary left' operator right', type)
  | .unary operator operand => do
      let (operand', t) ← resolveExpr operand
      let type ← Resolver.unaryType operator t p
      return (.unary operator operand', type)
  | .assignment target operator value => do
      let (target', s) ← resolveExpr target
      let (value', t) ← resolveExpr value
      Resolver.checkAssignment target' s operator t
        value.span.start
      return (.assignment target' operator value', .unit)
  | .parenthesized inner => do
      let (inner', type) ← resolveExpr inner
      return (.parenthesized inner', type)
  | .block statements scope => do
      enter scope
      let (statements', type) ←
        resolveStatements .unit statements
      leave
      return (.block statements' scope, type)
  | .conditional condition thenBranch elseBranch => do
      let (condition', c) ← resolveExpr condition
      Resolver.checkAssignable .boolean c
        condition.span.start
      let (thenBranch', s) ← resolveExpr thenBranch
      let (elseBranch', t) ← resolveOption elseBranch
      let form :=
        ExprForm.conditional condition' thenBranch'
          elseBranch'
      return (form, if t = some s then s else .unit)
  | .function parameters returnType body scope => do
      enter scope
      let declarations ← parameterTypes parameters
      let parameters' ← resolveDefaults parameters
      let (returnType', declared) ←
        resolveDeclared returnType
      push declared
      let (body', received) ← resolveExpr body
      pop
      leave
      Resolver.checkBody declared received body.span.start
      let form :=
        ExprForm.function
          (Resolver.withTypes parameters'
            (declarations.map (·.1)))
          returnType' body' scope
      let type :=
        Ty.function (declarations.map (·.2))
          (declared.getD received)
      return (form, type)
  | .lambda parameters body scope => do
      enter scope
      let declarations ← parameterTypes parameters
      let parameters' ← resolveDefaults parameters
      push none
      let (body', received) ← resolveExpr body
      pop
      leave
      let form :=
        ExprForm.lambda
          (Resolver.withTypes parameters'
            (declarations.map (·.1)))
          body' scope
      return (form,
        .function (declarations.map (·.2)) received)
  | .ret none => do
      checkReturn .unit p
      return (.ret none, .nothing)
  | .ret (some value) => do
      let (value', received) ← resolveExpr value
      checkReturn received value.span.start
      return (.ret (some value'), .nothing)

/- An expression with its slots filled, and its type. -/
def resolveExpr : Expr → StackResolver (Expr × Ty)
  | ⟨form, span, some type⟩ =>
      return (⟨form, span, some type⟩, type)
  | ⟨form, span, none⟩ => do
      let (form', type) ← resolveForm span.start form
      return (⟨form', span, some type⟩, type)

/- The right side of an access. -/
def resolveMember
    (left : Ty)
    (p : Position) :
    Expr → StackResolver (Expr × Ty)
  | ⟨.invocation name arguments target, span, _⟩ => do
      let (arguments', types) ← resolveArguments arguments
      let (target', type) ←
        Resolver.memberCall left name types target p
          span.start
      let form :=
        ExprForm.invocation name arguments' target'
      return (⟨form, span, some type⟩, type)
  | ⟨.reference name target, span, _⟩ => do
      let (target', type) ←
        Resolver.memberProperty left name target p span.start
      let form := ExprForm.reference name target'
      return (⟨form, span, some type⟩, type)
  | ⟨form, span, _⟩ => do
      let type ←
        Resolver.errorType .expectedInvocationOrReference
          span.start
      return (⟨form, span, some type⟩, type)

/- An expression that may be left out. -/
def resolveOption :
    Option Expr → StackResolver (Option Expr × Option Ty)
  | none => return (none, none)
  | some e => do
      let (e', type) ← resolveExpr e
      return (some e', some type)

/- Expressions one by one, whose types do not matter. -/
def resolveExprs : List Expr → StackResolver (List Expr)
  | [] => return []
  | e :: es => do
      let (e', _) ← resolveExpr e
      return e' :: (← resolveExprs es)

/- Arguments one by one, and their types. -/
def resolveArguments :
    List Argument → StackResolver (List Argument × List Ty)
  | [] => return ([], [])
  | ⟨name, value, span⟩ :: others => do
      let (value', type) ← resolveExpr value
      let (others', types) ← resolveArguments others
      return (⟨name, value', span⟩ :: others', type :: types)

/- Defaults of parameters one by one. -/
def resolveDefaults :
    List Parameter → StackResolver (List Parameter)
  | [] => return []
  | ⟨name, typeExpr, none, definition, span⟩ :: others => do
      let p : Parameter :=
        ⟨name, typeExpr, none, definition, span⟩
      return p :: (← resolveDefaults others)
  | ⟨name, typeExpr, some value, definition, span⟩ ::
        others => do
      let (value', received) ← resolveExpr value
      Resolver.checkDefault definition received span.start
        value.span.start
      let p : Parameter :=
        ⟨name, typeExpr, some value', definition, span⟩
      return p :: (← resolveDefaults others)

------------------------------------------------------------
-- Statements and declarations
------------------------------------------------------------

/- Statements one by one, and the type of the last one. -/
def resolveStatements
    (last : Ty) :
    List Statement → StackResolver (List Statement × Ty)
  | [] => return ([], last)
  | s :: others => do
      let (s', type) ← resolveStatement s
      let (others', last') ← resolveStatements type others
      return (s' :: others', last')

/- A statement, and its type if it is an expression. -/
def resolveStatement :
    Statement → StackResolver (Statement × Ty)
  | .expression e => do
      let (e', type) ← resolveExpr e
      return (.expression e', type)
  | .variable v => do
      return (.variable (← resolveVariable v), .unit)
  | .function f => do
      return (.function (← resolveFunction f), .unit)

/- A variable whose definition has no type yet. -/
def resolveVariable :
    VariableDecl → StackResolver VariableDecl
  | ⟨isMutable, name, typeExpr, initializer, definition,
      span⟩ => do
      if ← Resolver.isResolved definition then
        return ⟨isMutable, name, typeExpr, initializer,
          definition, span⟩
      else
        let (typeExpr', declared) ← resolveDeclared typeExpr
        let (initializer', received) ←
          resolveOption initializer
        let type ←
          Resolver.variableType name declared
            (received.bind fun t =>
              initializer.map fun e => (t, e.span.start))
            span.start
        Resolver.fillType definition type
        return ⟨isMutable, name, typeExpr', initializer',
          definition, span⟩

/- A function whose definition has no type yet. -/
def resolveFunction :
    FunctionDecl → StackResolver FunctionDecl
  | ⟨name, parameters, returnType, body, scope, definition,
      span⟩ => do
      if ← Resolver.isResolved definition then
        return ⟨name, parameters, returnType, body, scope,
          definition, span⟩
      else
        enter scope
        let declarations ← parameterTypes parameters
        let (returnType', declared) ←
          resolveDeclared returnType
        Resolver.fillType definition
          (.function (declarations.map (·.2))
            (declared.getD .unit))
        let parameters' ← resolveDefaults parameters
        let body' ← resolveBody declared body
        leave
        return ⟨name,
          Resolver.withTypes parameters'
            (declarations.map (·.1)),
          returnType', body', scope, definition, span⟩

/- The body of a function, if it has one. -/
def resolveBody
    (declared : Option Ty) :
    Option Expr → StackResolver (Option Expr)
  | none => return none
  | some e => do
      push declared
      let (e', received) ← resolveExpr e
      pop
      Resolver.checkBody declared received e.span.start
      return some e'

end

------------------------------------------------------------
-- Programs
------------------------------------------------------------

/- The imports, all of them followed. -/
def resolveImports
    (library : Library)
    (imports : List Import) :
    Resolver (List Import) :=
  imports.mapM (resolveImport library)

/- A declaration with its slots filled. -/
def resolveDeclaration :
    Declaration → StackResolver Declaration
  | .function f => do
      return .function (← resolveFunction f)
  | .property v => do
      return .property (← resolveVariable v)

/- A program with its slots filled, but for its symbols. -/
def resolveParts
    (library : Library)
    (program : Program) :
    StackResolver Program := do
  enter program.scope
  let imports ← resolveImports library program.imports
  let declarations ←
    program.declarations.mapM resolveDeclaration
  leave
  return { program with
    imports := imports
    declarations := declarations }

end Stacked

end SourceCheck
