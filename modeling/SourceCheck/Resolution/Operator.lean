import SourceCheck.Resolution.Resolver
import SourceCheck.Tree.Operator

/-
  The types that operators give.

  Key definitions include:
    * `BinaryOperator.type?`
    * `UnaryOperator.takes`
    * `Resolver.binaryType`
    * `Resolver.unaryType`
-/

namespace SourceCheck

------------------------------------------------------------
-- Rules
------------------------------------------------------------

/- The type of an operation on types that it is made for. -/
def BinaryOperator.type?
    (o : BinaryOperator)
    (left right : Ty) :
    Option Ty :=
  match o with
  | plus =>
      if left = .string || right = .string then
        some .string
      else
        left.wider? right
  | minus => left.wider? right
  | multiply => left.wider? right
  | divide => left.wider? right
  | modulo => left.wider? right
  | less => (left.wider? right).map fun _ => .boolean
  | lessEquals => (left.wider? right).map fun _ => .boolean
  | greater => (left.wider? right).map fun _ => .boolean
  | greaterEquals =>
      (left.wider? right).map fun _ => .boolean
  | equals =>
      if left.accepts right || right.accepts left then
        some .boolean
      else
        none
  | notEquals =>
      if left.accepts right || right.accepts left then
        some .boolean
      else
        none
  | and =>
      if left = .boolean && right = .boolean then
        some .boolean
      else
        none
  | or =>
      if left = .boolean && right = .boolean then
        some .boolean
      else
        none

/- The operator is made for the type. -/
def UnaryOperator.takes (o : UnaryOperator) (t : Ty) : Bool :=
  match o with
  | negate => t.rank?.isSome
  | not => t = .boolean

------------------------------------------------------------
-- Operations
------------------------------------------------------------

namespace Resolver

/-
  The type of an operation.  An error among the operands is
  passed on.
-/
def binaryType
    (o : BinaryOperator)
    (left right : Ty)
    (p : Position) :
    Resolver Ty := do
  if left.isError then
    return left
  else if right.isError then
    return right
  else
    match o.type? left right with
    | some type => return type
    | none =>
        errorType
          (.invalidOperands o.symbol left.text right.text) p

/-
  The type of an operation, which is the type of its
  operand.
-/
def unaryType
    (o : UnaryOperator)
    (operand : Ty)
    (p : Position) :
    Resolver Ty := do
  if o.takes operand || operand.isError then
    return operand
  else
    errorType (.invalidOperand o.symbol operand.text) p

end Resolver

end SourceCheck
