import SourceCheck.Source.Position
import SourceCheck.Ty.Basic

/-
  The scopes of a program and the definitions in them.

  A scope binds names to definitions and lies in at most one
  other scope.  A name is looked up in a scope, then in the
  scopes around it, the nearest first.  A definition may be
  seen from one offset of the source text on.

  Key definitions include:
    * `Definition`
    * `Scope`
    * `Symbols`
    * `Symbols.openScope`
    * `Symbols.addDefinition`
    * `Symbols.bind`
    * `Symbols.chain`
    * `Symbols.find?`
    * `Symbols.findVisible?`
-/

namespace SourceCheck

------------------------------------------------------------
-- Definitions
------------------------------------------------------------

/- Scopes are numbered in the order of their creation. -/
abbrev ScopeId := Nat

/- So are definitions. -/
abbrev DefinitionId := Nat

/- What is defined. -/
inductive DefinitionKind where
  | function
  | argument
  | localVariable
  | property
deriving DecidableEq, Inhabited

namespace DefinitionKind

/- Every kind of definition. -/
def all : List DefinitionKind :=
  [function, argument, localVariable, property]

/- The name of a kind of definition. -/
def name : DefinitionKind → String
  | function => "Function"
  | argument => "Argument"
  | localVariable => "LocalVariable"
  | property => "Property"

end DefinitionKind

/-
  Something that has a name.  Its type is not known at
  first.
-/
structure Definition where
  name : String
  kind : DefinitionKind
  span : Span
  visibleFrom : Nat
  isMutable : Bool
  type : Option Ty
deriving DecidableEq, Inhabited

------------------------------------------------------------
-- Scopes
------------------------------------------------------------

/- A scope: the one around it and its bindings. -/
structure Scope where
  parent : Option ScopeId
  bindings : List (String × DefinitionId)
deriving DecidableEq, Inhabited

namespace Scope

/- What a name is bound to in the scope itself. -/
def get? (s : Scope) (name : String) : Option DefinitionId :=
  s.bindings.lookup name

/- How many names are bound. -/
def size (s : Scope) : Nat :=
  s.bindings.length

/- Add a binding. -/
def insert
    (s : Scope)
    (name : String)
    (id : DefinitionId) :
    Scope :=
  { s with bindings := (name, id) :: s.bindings }

theorem get?_insert
    (s : Scope)
    (name other : String)
    (id : DefinitionId) :
    (s.insert name id).get? other =
      if other = name then some id else s.get? other := by
  by_cases h : other = name
  · simp [get?, insert, h]
  · have hne : (other == name) = false :=
      beq_eq_false_iff_ne.2 h
    simp [get?, insert, List.lookup_cons, hne, h]

end Scope

------------------------------------------------------------
-- Scopes and definitions of a program
------------------------------------------------------------

/- The scopes and the definitions of one program. -/
structure Symbols where
  scopes : Array Scope
  definitions : Array Definition
deriving DecidableEq, Inhabited

/- A name was to be bound in a scope that binds it. -/
structure AlreadyBound where
  name : String
  scope : ScopeId
deriving DecidableEq

/- What is wrong, in words. -/
def AlreadyBound.message (e : AlreadyBound) : String :=
  "'" ++ e.name ++ "' is already defined in scope ScopeId(" ++
    toString e.scope ++ ")"

namespace Symbols

/- No scopes and no definitions. -/
def empty : Symbols :=
  ⟨#[], #[]⟩

/- Add a scope without bindings. -/
def openScope
    (s : Symbols)
    (parent : Option ScopeId) :
    ScopeId × Symbols :=
  (s.scopes.size,
    { s with scopes := s.scopes.push ⟨parent, []⟩ })

/- Add a definition, which is not bound yet. -/
def addDefinition
    (s : Symbols)
    (d : Definition) :
    DefinitionId × Symbols :=
  (s.definitions.size,
    { s with definitions := s.definitions.push d })

/- The scope around a scope. -/
def parent? (s : Symbols) (scope : ScopeId) :
    Option ScopeId :=
  s.scopes[scope]?.bind (·.parent)

/- What a name is bound to in one scope. -/
def local?
    (s : Symbols)
    (scope : ScopeId)
    (name : String) :
    Option DefinitionId :=
  s.scopes[scope]?.bind (·.get? name)

/- The scope itself binds the name. -/
def hasLocal
    (s : Symbols)
    (scope : ScopeId)
    (name : String) :
    Bool :=
  (s.local? scope name).isSome

/- Bind a name that the scope does not bind yet. -/
def bind
    (s : Symbols)
    (scope : ScopeId)
    (name : String)
    (id : DefinitionId) :
    Except AlreadyBound Symbols :=
  if s.hasLocal scope name then
    .error ⟨name, scope⟩
  else
    .ok
      { s with
        scopes := s.scopes.modify scope (·.insert name id) }

/- Give a definition a type, whatever type it had. -/
def setType
    (s : Symbols)
    (id : DefinitionId)
    (type : Ty) :
    Symbols :=
  { s with
    definitions := s.definitions.modify id fun d =>
      { d with type := some type } }

/- Give a definition a type unless it has one. -/
def fillType
    (s : Symbols)
    (id : DefinitionId)
    (type : Ty) :
    Symbols :=
  { s with
    definitions := s.definitions.modify id fun d =>
      { d with type := d.type.or (some type) } }

/- The type of a definition. -/
def type? (s : Symbols) (id : DefinitionId) : Option Ty :=
  s.definitions[id]?.bind (·.type)

------------------------------------------------------------
-- Looking names up
------------------------------------------------------------

/-
  A scope and the scopes around it, the nearest first, but
  at most `steps` of them.
-/
def chainOf
    (s : Symbols) :
    Nat → Option ScopeId → List ScopeId
  | 0, _ => []
  | _, none => []
  | steps + 1, some scope =>
      scope :: s.chainOf steps (s.parent? scope)

/-
  A scope and the scopes around it, the nearest first.  No
  chain is longer than there are scopes.
-/
def chain (s : Symbols) (scope : ScopeId) : List ScopeId :=
  s.chainOf s.scopes.size (some scope)

/- What the nearest scope binds the name to. -/
def find?
    (s : Symbols)
    (scope : ScopeId)
    (name : String) :
    Option DefinitionId :=
  (s.chain scope).findSome? (s.local? · name)

/- The definition may be seen at the offset. -/
def isVisible
    (s : Symbols)
    (offset : Nat)
    (id : DefinitionId) :
    Bool :=
  match s.definitions[id]? with
  | none => false
  | some d => d.visibleFrom ≤ offset

/-
  What the nearest scope binds the name to, passing over
  definitions that may not be seen at the offset.
-/
def findVisible?
    (s : Symbols)
    (scope : ScopeId)
    (name : String)
    (offset : Nat) :
    Option DefinitionId :=
  (s.chain scope).findSome? fun id =>
    (s.local? id name).filter (s.isVisible offset)

end Symbols

end SourceCheck
