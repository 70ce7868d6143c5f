import SourceCheck.Grammar.Parser
import SourceCheck.Grammar.Power
import SourceCheck.Tree.TypeExpr

/-
  The grammar of written types.

  A type is a name, or types that are joined.  Both joins
  group to the left, and each has a power of its own.

  Key definitions include:
    * `Grammar.namedType`
    * `Grammar.joinAbove`
    * `Grammar.typeExpr`
    * `Grammar.optionalType`
-/

namespace SourceCheck

/- The written type that a join makes of two others. -/
def TypeJoin.combine
    (join : TypeJoin)
    (left right : TypeExpr) :
    TypeExpr :=
  let form :=
    match join with
    | .union => TypeForm.union left right
    | .intersection => TypeForm.intersection left right
  .new form (left.span.between right.span)

namespace Grammar

open SourceCheck.Parser

------------------------------------------------------------
-- Types
------------------------------------------------------------

/- A name of a type. -/
def namedType : Parser TypeExpr := do
  if ← checkName then
    let token ← consume
    return .new (.named token.name) token.span
  else
    unexpected "type name"

/-
  Join one more type to the one on the left, if the token
  behind that binds more tightly than the power.
-/
def joinAbove
    (power : Power)
    (right :
      (join : TypeJoin) →
        power < join.power → Parser TypeExpr)
    (left : TypeExpr) :
    Parser (Option TypeExpr) := do
  match (← current).kind.typeJoin? with
  | none => return none
  | some join =>
      if hAbove : power < join.power then
        let _ ← consume
        return some (join.combine left (← right join hAbove))
      else
        return none

/-
  A type whose joins bind more tightly than the power.  What
  is joined to its right binds more tightly than the join.
-/
def typeExpr (power : Power) : Parser TypeExpr := do
  loop
    (joinAbove power fun join _ => typeExpr join.power)
    (← namedType)
termination_by Power.primary.rank - power.rank
decreasing_by
  rename_i hAbove
  have hBelow := Power.rank_le_primary join.power
  exact Nat.sub_lt_sub_left
    (Nat.lt_of_lt_of_le hAbove hBelow) hAbove

/- A type behind a separator, or no type. -/
def optionalType
    (separator : TokenKind)
    (fallback : Span) :
    Parser TypeExpr := do
  if ← accept separator then
    typeExpr .loosest
  else
    return .new .absent fallback

end Grammar

end SourceCheck
