import SourceCheck.Token.Basic

/-
  Operators of expressions.

  Key definitions include:
    * `BinaryOperator`
    * `UnaryOperator`
    * `AssignmentOperator`
    * `TokenKind.binaryOperator?`
    * `TokenKind.assignmentOperator?`
-/

namespace SourceCheck

------------------------------------------------------------
-- Binary operators
------------------------------------------------------------

/- An operator between two operands. -/
inductive BinaryOperator where
  | plus
  | minus
  | multiply
  | divide
  | modulo
  | equals
  | notEquals
  | less
  | lessEquals
  | greater
  | greaterEquals
  | and
  | or
deriving DecidableEq, Inhabited

/- An operator as it is written. -/
def BinaryOperator.symbol : BinaryOperator → String
  | plus => "+"
  | minus => "-"
  | multiply => "*"
  | divide => "/"
  | modulo => "%"
  | equals => "=="
  | notEquals => "!="
  | less => "<"
  | lessEquals => "<="
  | greater => ">"
  | greaterEquals => ">="
  | and => "and"
  | or => "or"

/- The binary operator that a token stands for. -/
def TokenKind.binaryOperator? :
    TokenKind → Option BinaryOperator
  | .plus => some .plus
  | .dash => some .minus
  | .star => some .multiply
  | .slash => some .divide
  | .percent => some .modulo
  | .equals => some .equals
  | .notEquals => some .notEquals
  | .less => some .less
  | .lessEquals => some .lessEquals
  | .greater => some .greater
  | .greaterEquals => some .greaterEquals
  | .kwAnd => some .and
  | .kwOr => some .or
  | _ => none

------------------------------------------------------------
-- Unary operators
------------------------------------------------------------

/- An operator before one operand. -/
inductive UnaryOperator where
  | negate
  | not
deriving DecidableEq, Inhabited

/- An operator as it is written. -/
def UnaryOperator.symbol : UnaryOperator → String
  | negate => "-"
  | not => "not"

------------------------------------------------------------
-- Assignments
------------------------------------------------------------

/- An operator that stores a value. -/
inductive AssignmentOperator where
  | assign
  | add
  | subtract
  | multiply
  | divide
deriving DecidableEq, Inhabited

namespace AssignmentOperator

/- The name of an operator. -/
def name : AssignmentOperator → String
  | assign => "Assign"
  | add => "Add"
  | subtract => "Subtract"
  | multiply => "Multiply"
  | divide => "Divide"

/- How the stored value is made from the old one. -/
def binary? : AssignmentOperator → Option BinaryOperator
  | assign => none
  | add => some .plus
  | subtract => some .minus
  | multiply => some .multiply
  | divide => some .divide

end AssignmentOperator

/- The assignment operator that a token stands for. -/
def TokenKind.assignmentOperator? :
    TokenKind → Option AssignmentOperator
  | .assignment => some .assign
  | .plusEquals => some .add
  | .minusEquals => some .subtract
  | .starEquals => some .multiply
  | .slashEquals => some .divide
  | _ => none

end SourceCheck
