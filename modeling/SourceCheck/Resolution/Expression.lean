import SourceCheck.Resolution.Operator
import SourceCheck.Resolution.Reference
import SourceCheck.Resolution.TypeExpr

/-
  The types of expressions, statements and declarations.

  Each function walks a tree in the order of its text and
  gives it back with its slots filled, along with its type.
  A slot that is filled is kept, and what lies below it is
  not walked again.

  Key definitions include:
    * `resolveParameterType`
    * `resolveExpr`
    * `resolveStatements`
    * `resolveVariable`
    * `resolveFunction`
-/

namespace SourceCheck

------------------------------------------------------------
-- Parameters
------------------------------------------------------------

namespace Resolver

/-
  The written type of a parameter and its type, which is the
  type of its definition.
-/
def parameterType
    (p : Parameter) :
    Resolver (TypeExpr × Ty) := do
  let (typeExpr, declared) ← resolveDeclared p.typeExpr
  let type ←
    match declared with
    | some type => pure type
    | none =>
        errorType (.cannotInferVariableType p.name)
          p.span.start
  fillType p.definition type
  return (typeExpr, type)

/- A default has to fit the type of its parameter. -/
def checkDefault
    (definition : DefinitionId)
    (received : Ty)
    (p q : Position) :
    Resolver PUnit := do
  let expected ← definitionType definition p
  checkAssignable expected received q

/- Put written types with filled slots into parameters. -/
def withTypes
    (parameters : List Parameter)
    (types : List TypeExpr) :
    List Parameter :=
  parameters.zipWith
    (fun p t => { p with typeExpr := t }) types

/-
  A body has to fit the declared type, but the value of a
  body whose declared type is `unit` is dropped.
-/
def checkBody
    (declared : Option Ty)
    (received : Ty)
    (p : Position) :
    Resolver PUnit := do
  match declared with
  | none => return
  | some expected =>
      if expected ≠ .unit then
        checkAssignable expected received p

/-
  The type of a variable: the declared type, which the
  initial value has to fit, or else the type of that value.
-/
def variableType
    (name : String)
    (declared : Option Ty)
    (initial : Option (Ty × Position))
    (p : Position) :
    Resolver Ty := do
  match declared, initial with
  | some type, some (received, q) =>
      checkAssignable type received q
      return type
  | some type, none => return type
  | none, some (received, _) => return received
  | none, none =>
      errorType (.cannotInferVariableType name) p

/-
  An assignment checks its target, unless the target is an
  error, and then the value that is stored.
-/
def checkAssignment
    (target : Expr)
    (targetType : Ty)
    (operator : AssignmentOperator)
    (valueType : Ty)
    (p : Position) :
    Resolver PUnit := do
  if !targetType.isError then
    checkTarget target
  let stored ←
    match operator.binary? with
    | some o => binaryType o targetType valueType p
    | none => pure valueType
  checkAssignable targetType stored p

end Resolver

------------------------------------------------------------
-- Expressions
------------------------------------------------------------

mutual

/- A form with its slots filled, and its type. -/
def resolveForm
    (around : Surroundings)
    (p : Position) :
    ExprForm → Resolver (ExprForm × Ty)
  | .int value => return (.int value, .int)
  | .long value => return (.long value, .long)
  | .boolean value => return (.boolean value, .boolean)
  | .string value => return (.string value, .string)
  | .template parts => do
      let parts' ← resolveExprs around parts
      return (.template parts', .string)
  | .reference name target => do
      let (target', type) ←
        Resolver.reference around name target p
      return (.reference name target', type)
  | .invocation name arguments target => do
      let (arguments', types) ←
        resolveArguments around arguments
      let (target', type) ←
        Resolver.invocation around name types target p
      return (.invocation name arguments' target', type)
  | .call callee arguments => do
      let (callee', calleeType) ← resolveExpr around callee
      let (arguments', types) ←
        resolveArguments around arguments
      let type ← Resolver.callType "" calleeType types p
      return (.call callee' arguments', type)
  | .access left safe right => do
      let (left', leftType) ← resolveExpr around left
      let (right', type) ←
        resolveMember around leftType p right
      return (.access left' safe right', type)
  | .binary left operator right => do
      let (left', s) ← resolveExpr around left
      let (right', t) ← resolveExpr around right
      let type ← Resolver.binaryType operator s t p
      return (.binary left' operator right', type)
  | .unary operator operand => do
      let (operand', t) ← resolveExpr around operand
      let type ← Resolver.unaryType operator t p
      return (.unary operator operand', type)
  | .assignment target operator value => do
      let (target', s) ← resolveExpr around target
      let (value', t) ← resolveExpr around value
      Resolver.checkAssignment target' s operator t
        value.span.start
      return (.assignment target' operator value', .unit)
  | .parenthesized inner => do
      let (inner', type) ← resolveExpr around inner
      return (.parenthesized inner', type)
  | .block statements scope => do
      let (statements', type) ←
        resolveStatements (around.within scope) .unit
          statements
      return (.block statements' scope, type)
  | .conditional condition thenBranch elseBranch => do
      let (condition', c) ← resolveExpr around condition
      Resolver.checkAssignable .boolean c
        condition.span.start
      let (thenBranch', s) ← resolveExpr around thenBranch
      let (elseBranch', t) ← resolveOption around elseBranch
      let form :=
        ExprForm.conditional condition' thenBranch'
          elseBranch'
      return (form, if t = some s then s else .unit)
  | .function parameters returnType body scope => do
      let inside := around.within scope
      let declarations ←
        parameters.mapM Resolver.parameterType
      let parameters' ← resolveDefaults inside parameters
      let (returnType', declared) ←
        resolveDeclared returnType
      let (body', received) ←
        resolveExpr (inside.returning declared) body
      Resolver.checkBody declared received body.span.start
      let form :=
        ExprForm.function
          (Resolver.withTypes parameters'
            (declarations.map (·.1)))
          returnType' body' scope
      let type :=
        Ty.function (declarations.map (·.2))
          (declared.getD received)
      return (form, type)
  | .lambda parameters body scope => do
      let inside := around.within scope
      let declarations ←
        parameters.mapM Resolver.parameterType
      let parameters' ← resolveDefaults inside parameters
      let (body', received) ←
        resolveExpr (inside.returning none) body
      let form :=
        ExprForm.lambda
          (Resolver.withTypes parameters'
            (declarations.map (·.1)))
          body' scope
      return (form,
        .function (declarations.map (·.2)) received)
  | .ret none => do
      match around.returns with
      | none => return (.ret none, .nothing)
      | some expected =>
          Resolver.checkAssignable expected .unit p
          return (.ret none, .nothing)
  | .ret (some value) => do
      let (value', received) ← resolveExpr around value
      match around.returns with
      | none => return (.ret (some value'), .nothing)
      | some expected =>
          Resolver.checkAssignable expected received
            value.span.start
          return (.ret (some value'), .nothing)

/-
  An expression with its slots filled, and its type.  A
  filled slot is kept.
-/
def resolveExpr
    (around : Surroundings) :
    Expr → Resolver (Expr × Ty)
  | ⟨form, span, some type⟩ =>
      return (⟨form, span, some type⟩, type)
  | ⟨form, span, none⟩ => do
      let (form', type) ← resolveForm around span.start form
      return (⟨form', span, some type⟩, type)

/-
  The right side of an access, whose left side starts at `p`
  and has the given type.
-/
def resolveMember
    (around : Surroundings)
    (left : Ty)
    (p : Position) :
    Expr → Resolver (Expr × Ty)
  | ⟨.invocation name arguments target, span, _⟩ => do
      let (arguments', types) ←
        resolveArguments around arguments
      let (target', type) ←
        Resolver.memberCall left name types target p
          span.start
      let form :=
        ExprForm.invocation name arguments' target'
      return (⟨form, span, some type⟩, type)
  | ⟨.reference name target, span, _⟩ => do
      let (target', type) ←
        Resolver.memberProperty left name target p span.start
      let form := ExprForm.reference name target'
      return (⟨form, span, some type⟩, type)
  | ⟨form, span, _⟩ => do
      let type ←
        Resolver.errorType .expectedInvocationOrReference
          span.start
      return (⟨form, span, some type⟩, type)

/- An expression that may be left out. -/
def resolveOption
    (around : Surroundings) :
    Option Expr → Resolver (Option Expr × Option Ty)
  | none => return (none, none)
  | some e => do
      let (e', type) ← resolveExpr around e
      return (some e', some type)

/- Expressions one by one, whose types do not matter. -/
def resolveExprs
    (around : Surroundings) :
    List Expr → Resolver (List Expr)
  | [] => return []
  | e :: es => do
      let (e', _) ← resolveExpr around e
      return e' :: (← resolveExprs around es)

/- Arguments one by one, and their types. -/
def resolveArguments
    (around : Surroundings) :
    List Argument → Resolver (List Argument × List Ty)
  | [] => return ([], [])
  | ⟨name, value, span⟩ :: others => do
      let (value', type) ← resolveExpr around value
      let (others', types) ← resolveArguments around others
      return (⟨name, value', span⟩ :: others', type :: types)

/- Defaults of parameters one by one. -/
def resolveDefaults
    (around : Surroundings) :
    List Parameter → Resolver (List Parameter)
  | [] => return []
  | ⟨name, typeExpr, none, definition, span⟩ :: others => do
      let p : Parameter :=
        ⟨name, typeExpr, none, definition, span⟩
      return p :: (← resolveDefaults around others)
  | ⟨name, typeExpr, some value, definition, span⟩ ::
        others => do
      let (value', received) ← resolveExpr around value
      Resolver.checkDefault definition received span.start
        value.span.start
      let p : Parameter :=
        ⟨name, typeExpr, some value', definition, span⟩
      return p :: (← resolveDefaults around others)

------------------------------------------------------------
-- Statements and declarations
------------------------------------------------------------

/-
  Statements one by one, and the type of the last one; with
  no statements, the given type.
-/
def resolveStatements
    (around : Surroundings)
    (last : Ty) :
    List Statement → Resolver (List Statement × Ty)
  | [] => return ([], last)
  | s :: others => do
      let (s', type) ← resolveStatement around s
      let (others', last') ←
        resolveStatements around type others
      return (s' :: others', last')

/- A statement, and its type if it is an expression. -/
def resolveStatement
    (around : Surroundings) :
    Statement → Resolver (Statement × Ty)
  | .expression e => do
      let (e', type) ← resolveExpr around e
      return (.expression e', type)
  | .variable v => do
      return (.variable (← resolveVariable around v), .unit)
  | .function f => do
      return (.function (← resolveFunction around f), .unit)

/- A variable whose definition has no type yet. -/
def resolveVariable
    (around : Surroundings) :
    VariableDecl → Resolver VariableDecl
  | ⟨isMutable, name, typeExpr, initializer, definition,
      span⟩ => do
      if ← Resolver.isResolved definition then
        return ⟨isMutable, name, typeExpr, initializer,
          definition, span⟩
      else
        let (typeExpr', declared) ← resolveDeclared typeExpr
        let (initializer', received) ←
          resolveOption around initializer
        let type ←
          Resolver.variableType name declared
            (received.bind fun t =>
              initializer.map fun e => (t, e.span.start))
            span.start
        Resolver.fillType definition type
        return ⟨isMutable, name, typeExpr', initializer',
          definition, span⟩

/-
  A function whose definition has no type yet.  The type is
  known before the body is walked, which may call the
  function.
-/
def resolveFunction
    (around : Surroundings) :
    FunctionDecl → Resolver FunctionDecl
  | ⟨name, parameters, returnType, body, scope, definition,
      span⟩ => do
      if ← Resolver.isResolved definition then
        return ⟨name, parameters, returnType, body, scope,
          definition, span⟩
      else
        let inside := around.within scope
        let declarations ←
          parameters.mapM Resolver.parameterType
        let (returnType', declared) ←
          resolveDeclared returnType
        Resolver.fillType definition
          (.function (declarations.map (·.2))
            (declared.getD .unit))
        let parameters' ← resolveDefaults inside parameters
        let (body', received) ←
          resolveOption (inside.returning declared) body
        match body, received with
        | some e, some type =>
            Resolver.checkBody declared type e.span.start
        | _, _ => pure ()
        return ⟨name,
          Resolver.withTypes parameters'
            (declarations.map (·.1)),
          returnType', body', scope, definition, span⟩

end

end SourceCheck
