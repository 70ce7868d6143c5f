import SourceCheck.Resolution.Resolver
import SourceCheck.Tree.TypeExpr

/-
  The types that written types stand for.

  Key definitions include:
    * `Resolver.namedType`
    * `Resolver.joinedType`
    * `resolveTypeExpr`
    * `resolveDeclared`
-/

namespace SourceCheck

namespace Resolver

/-
  What is remembered for a text; if nothing is, what the
  action gives, which is then remembered.
-/
def remembered
    (text : String)
    (action : Resolver Ty) :
    Resolver Ty := do
  match (← get).types.findWritten? text with
  | some type => return type
  | none =>
      let type ← action
      remember text type
      return type

/- The type of a name. -/
def namedType
    (name : String)
    (p : Position) :
    Resolver Ty :=
  remembered name do
    match (← get).types.find? name with
    | some type => return type
    | none => errorType (.unknownType name) p

/- Two types joined, unless one of them is an error. -/
def joinTypes
    (join : Ty → Ty → Ty)
    (left right : Ty) :
    Ty :=
  if left.isError then
    left
  else if right.isError then
    right
  else
    join left right

end Resolver

------------------------------------------------------------
-- Written types
------------------------------------------------------------

mutual

/- A form with its slots filled, and its type. -/
def resolveTypeForm
    (p : Position) :
    TypeForm → Resolver (TypeForm × Ty)
  | .absent =>
      return (.absent, .error "undefined type name")
  | .named name => do
      return (.named name, ← Resolver.namedType name p)
  | .union left right => do
      let (left', s) ← resolveTypeExpr left
      let (right', t) ← resolveTypeExpr right
      let type ←
        Resolver.remembered
          (TypeForm.union left right).text
          (pure (Resolver.joinTypes .union s t))
      return (.union left' right', type)
  | .intersection left right => do
      let (left', s) ← resolveTypeExpr left
      let (right', t) ← resolveTypeExpr right
      let type ←
        Resolver.remembered
          (TypeForm.intersection left right).text
          (pure (Resolver.joinTypes .intersection s t))
      return (.intersection left' right', type)

/-
  A written type with its slots filled, and its type.  A
  slot that is filled is kept.
-/
def resolveTypeExpr :
    TypeExpr → Resolver (TypeExpr × Ty)
  | ⟨form, span, some type⟩ =>
      return (⟨form, span, some type⟩, type)
  | ⟨form, span, none⟩ => do
      let (form', type) ← resolveTypeForm span.start form
      return (⟨form', span, some type⟩, type)

end

/- A written type, and its type unless it was left out. -/
def resolveDeclared
    (t : TypeExpr) :
    Resolver (TypeExpr × Option Ty) := do
  if t.isAbsent then
    return (t, none)
  else
    let (t', type) ← resolveTypeExpr t
    return (t', some type)

end SourceCheck
