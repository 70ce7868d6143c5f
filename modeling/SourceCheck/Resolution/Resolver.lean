import SourceCheck.Diagnostic.Basic
import SourceCheck.Resolution.Library
import SourceCheck.Resolution.Names
import SourceCheck.Scope.Symbols
import SourceCheck.Ty.Assignable

/-
  Resolvers: actions that give types to definitions and
  report diagnostics.

  Resolvers never fail.  Where a type cannot be found the
  problem is reported, and an error type stands for it.

  Key definitions include:
    * `ResolverState`
    * `Surroundings`
    * `Resolver`
    * `Resolver.errorType`
    * `Resolver.definitionType`
    * `Resolver.checkAssignable`
-/

namespace SourceCheck

------------------------------------------------------------
-- States
------------------------------------------------------------

/-
  The symbols of a program, the names of types and members
  that it knows, and the diagnostics reported so far, in
  order.
-/
structure ResolverState where
  symbols : Symbols
  types : TypeNames
  members : MemberNames
  diagnostics : List Diagnostic

namespace ResolverState

/- Only the built-in types are known. -/
def start (symbols : Symbols) : ResolverState where
  symbols := symbols
  types := ⟨builtinTypes, []⟩
  members := .empty
  diagnostics := []

end ResolverState

/-
  What surrounds an expression: the scope in which names are
  looked up, and the type that a return has to give, where
  one was declared.
-/
structure Surroundings where
  scope : Option ScopeId
  returns : Option Ty

namespace Surroundings

/- No scope and no function surround the expression. -/
def nowhere : Surroundings :=
  ⟨none, none⟩

/- The same function, but another scope. -/
def within
    (s : Surroundings)
    (scope : ScopeId) :
    Surroundings :=
  { s with scope := some scope }

/- The same scope, but another function. -/
def returning
    (s : Surroundings)
    (returns : Option Ty) :
    Surroundings :=
  { s with returns := returns }

end Surroundings

/- An action on a state that cannot fail. -/
abbrev Resolver :=
  StateM ResolverState

namespace Resolver

------------------------------------------------------------
-- Reports
------------------------------------------------------------

/- Report a problem at a place. -/
def report
    (problem : Problem)
    (p : Position) :
    Resolver PUnit :=
  modify fun s =>
    { s with
      diagnostics := s.diagnostics ++ [⟨problem, p⟩] }

/- Report a problem; its error type bears its message. -/
def errorType
    (problem : Problem)
    (p : Position) :
    Resolver Ty := do
  report problem p
  return .error problem.message

/- Report a type that does not fit where it stands. -/
def checkAssignable
    (expected received : Ty)
    (p : Position) :
    Resolver PUnit := do
  if !expected.accepts received then
    report (.typeMismatch expected.text received.text) p

------------------------------------------------------------
-- Definitions
------------------------------------------------------------

/- The type of a definition, which should be known. -/
def definitionType
    (id : DefinitionId)
    (p : Position) :
    Resolver Ty := do
  let symbols := (← get).symbols
  match symbols.type? id with
  | some type => return type
  | none =>
      let d := symbols.definitions[id]?.getD default
      errorType (.unresolvedDefinition d.name) p

/- The type of the definition is known. -/
def isResolved (id : DefinitionId) : Resolver Bool := do
  return ((← get).symbols.type? id).isSome

/- Give a definition a type unless it has one. -/
def fillType
    (id : DefinitionId)
    (type : Ty) :
    Resolver PUnit :=
  modify fun s =>
    { s with symbols := s.symbols.fillType id type }

/- Remember the type of a written type by its text. -/
def remember (text : String) (type : Ty) : Resolver PUnit :=
  modify fun s =>
    { s with types := s.types.remember text type }

end Resolver

end SourceCheck
