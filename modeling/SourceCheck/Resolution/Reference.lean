import SourceCheck.Resolution.Resolver
import SourceCheck.Tree.Basic

/-
  What names refer to, and what calls give.

  A name is looked up in the scopes first, then among the
  types, then among the imported members.  Arguments are
  matched by position.

  Key definitions include:
    * `Resolver.reference`
    * `Resolver.callType`
    * `Resolver.invocation`
    * `Resolver.memberCall`
    * `Resolver.memberProperty`
    * `Resolver.checkTarget`
-/

namespace SourceCheck

namespace Resolver

------------------------------------------------------------
-- Names
------------------------------------------------------------

/- What a name refers to, and the type that it has. -/
def typed
    (target : Target)
    (type : Resolver Ty) :
    Resolver (Target × Ty) := do
  return (target, ← type)

/- The type where no scope surrounds a name. -/
def scopelessType (p : Position) : Resolver Ty := do
  report .emptyScopeStack p
  return .error "no table to resolve in"

/- The definition that a name refers to at a place. -/
def visible?
    (scope : ScopeId)
    (name : String)
    (p : Position) :
    Resolver (Option DefinitionId) := do
  return (← get).symbols.findVisible? scope name p.offset

/- How a type is reached by its name. -/
def typeReferenceKind (type : Ty) : ReferenceKind :=
  match type.container? with
  | some c => if c.isObject then .object else .static
  | none => .static

/- What the name of an imported property refers to. -/
def importedProperty
    (name : String)
    (target : Target)
    (p : Position) :
    Resolver (Target × Ty) := do
  match (← get).members.properties name with
  | [] =>
      typed target (errorType (.unresolvedReference name) p)
  | [property] =>
      let found : Target :=
        { target with
          kind := some .topLevel
          member := some property }
      return (found, property.resultType)
  | candidates =>
      typed target
        (errorType
          (.propertyOverloadResolution name
            candidates.length) p)

/- What a name refers to, and its type. -/
def reference
    (around : Surroundings)
    (name : String)
    (target : Target)
    (p : Position) :
    Resolver (Target × Ty) := do
  match around.scope with
  | none => typed target (scopelessType p)
  | some scope =>
      match ← visible? scope name p with
      | some id =>
          let found : Target :=
            { target with
              kind := some .inScope
              definition := some id }
          typed found (definitionType id p)
      | none =>
          match (← get).types.find? name with
          | some type =>
              let kind := typeReferenceKind type
              return ({ target with kind := some kind }, type)
          | none => importedProperty name target p

------------------------------------------------------------
-- Calls
------------------------------------------------------------

/- A call as it is written in messages. -/
def callText (name : String) (arguments : List Ty) : String :=
  name ++ "(" ++
    ", ".intercalate (arguments.map (·.text)) ++ ")"

/- There are as many arguments, and each of them fits. -/
def acceptsAll (parameters arguments : List Ty) : Bool :=
  parameters.length = arguments.length &&
    (parameters.zip arguments).all fun (s, t) => s.accepts t

/- What the call of a value gives. -/
def callType
    (name : String)
    (callee : Ty)
    (arguments : List Ty)
    (p : Position) :
    Resolver Ty := do
  match callee with
  | .function parameters result =>
      if acceptsAll parameters arguments then
        return result
      else
        errorType
          (.noMatchingFunction (callText name arguments)) p
  | .error description => return .error description
  | other => errorType (.notCallable other.text) p

/-
  There is no function for a call.  If an argument is an
  error, that is the reason, and was reported.
-/
def noFunction
    (name : String)
    (arguments : List Ty)
    (p : Position) :
    Resolver Ty := do
  match arguments.find? (·.isError) with
  | some e => return e
  | none =>
      errorType
        (.noMatchingFunction (callText name arguments)) p

/- What the name in a call refers to, and what it gives. -/
def invocation
    (around : Surroundings)
    (name : String)
    (arguments : List Ty)
    (target : Target)
    (p : Position) :
    Resolver (Target × Ty) := do
  match around.scope with
  | none => typed target (scopelessType p)
  | some scope =>
      match ← visible? scope name p with
      | some id =>
          let callee ← definitionType id p
          typed { target with definition := some id }
            (callType name callee arguments p)
      | none =>
          match (← get).members.functions name arguments with
          | f :: _ =>
              let found : Target :=
                { target with member := some f }
              return (found, f.resultType)
          | [] => typed target (noFunction name arguments p)

------------------------------------------------------------
-- Members
------------------------------------------------------------

/-
  The container that a member is looked up in, or the type
  to go on with.
-/
def containerOf
    (type : Ty)
    (p : Position) :
    Resolver (Except Ty Container) := do
  match type with
  | .container name isObject members =>
      return .ok ⟨name, isObject, members⟩
  | .error description => return .error (.error description)
  | other =>
      return .error
        (← errorType (.illegalMemberAccess other.text) p)

/- Use a member that everyone may use. -/
def useMember
    (member : Member)
    (target : Target)
    (p : Position) :
    Resolver (Target × Ty) := do
  if member.isPublic then
    let found : Target :=
      { target with member := some member }
    return (found, member.resultType)
  else
    typed target (errorType (.nonPublicMember member.name) p)

/-
  What the call of a member refers to and gives.  The left
  side stands at `p`, the name of the member at `q`.
-/
def memberCall
    (left : Ty)
    (name : String)
    (arguments : List Ty)
    (target : Target)
    (p q : Position) :
    Resolver (Target × Ty) := do
  match ← containerOf left p with
  | .error type => return (target, type)
  | .ok container =>
      match container.function? name arguments with
      | some f => useMember f target q
      | none => typed target (noFunction name arguments q)

/-
  What the name of a property refers to, and its type.  The
  left side stands at `p`, the name at `q`.
-/
def memberProperty
    (left : Ty)
    (name : String)
    (target : Target)
    (p q : Position) :
    Resolver (Target × Ty) := do
  match ← containerOf left p with
  | .error type => return (target, type)
  | .ok container =>
      match container.property? name with
      | some property =>
          useMember property
            { target with kind := some .member } q
      | none =>
          typed target
            (errorType (.unresolvedReference name) q)

------------------------------------------------------------
-- Assignments
------------------------------------------------------------

/- Only mutable definitions may be assigned to. -/
def checkDefinition
    (id : DefinitionId)
    (p : Position) :
    Resolver PUnit := do
  let d := (← get).symbols.definitions[id]?.getD default
  if d.kind = .function then
    report .invalidAssignmentTarget p
  else if !d.isMutable then
    report (.valReassignment d.name) p

/-
  Only definitions, imported properties and properties of
  containers may be assigned to.
-/
def checkTarget (e : Expr) : Resolver PUnit :=
  let p := e.span.start
  match e.form with
  | .reference _ ⟨some .inScope, some id, _⟩ =>
      checkDefinition id p
  | .reference _ ⟨some .topLevel, _, _⟩ => return
  | .access _ _ ⟨.reference _ _, _, _⟩ => return
  | _ => report .invalidAssignmentTarget p

end Resolver

end SourceCheck
