import SourceCheck.Token.Basic

/-
  The roles of tokens in expressions and types, and how
  tightly operators bind.

  A token that starts an expression is a `Starter`; one that
  goes on an expression whose left side is known is an
  `Extender`, and has a power.  Written types are joined by
  a `TypeJoin`, which has a power too.

  Key definitions include:
    * `Power`
    * `Power.lower`
    * `Starter`
    * `TokenKind.starter?`
    * `Extender`
    * `TokenKind.extender?`
    * `TypeJoin`
    * `TokenKind.typeJoin?`
-/

namespace SourceCheck

------------------------------------------------------------
-- Powers
------------------------------------------------------------

/- How tightly an operator binds, the loosest first. -/
inductive Power where
  | loosest
  | assignment
  | logicalOr
  | logicalAnd
  | equality
  | relational
  | additive
  | multiplicative
  | unary
  | call
  | member
  | primary
deriving DecidableEq, Inhabited

namespace Power

/- Every power, the loosest first. -/
def all : List Power :=
  [ loosest, assignment, logicalOr, logicalAnd, equality,
    relational, additive, multiplicative, unary, call,
    member, primary ]

/- The number of looser powers. -/
def rank : Power → Nat
  | loosest => 0
  | assignment => 1
  | logicalOr => 2
  | logicalAnd => 3
  | equality => 4
  | relational => 5
  | additive => 6
  | multiplicative => 7
  | unary => 8
  | call => 9
  | member => 10
  | primary => 11

instance : LT Power :=
  ⟨fun p q => p.rank < q.rank⟩

instance (p q : Power) : Decidable (p < q) :=
  inferInstanceAs (Decidable (p.rank < q.rank))

/- The next looser power, if there is one. -/
def lower : Power → Power
  | loosest => loosest
  | assignment => loosest
  | logicalOr => assignment
  | logicalAnd => logicalOr
  | equality => logicalAnd
  | relational => equality
  | additive => relational
  | multiplicative => additive
  | unary => multiplicative
  | call => unary
  | member => call
  | primary => member

/- No power is tighter than the one of primaries. -/
theorem rank_le_primary (p : Power) :
    p.rank ≤ primary.rank := by
  cases p <;> decide

/- The name of a power. -/
def name : Power → String
  | loosest => "Default"
  | assignment => "Assignment"
  | logicalOr => "LogicalOr"
  | logicalAnd => "LogicalAnd"
  | equality => "Equality"
  | relational => "Relational"
  | additive => "Additive"
  | multiplicative => "Multiplicative"
  | unary => "Unary"
  | call => "Call"
  | member => "Member"
  | primary => "Primary"

end Power

------------------------------------------------------------
-- Starting an expression
------------------------------------------------------------

/- What a token at the start of an expression begins. -/
inductive Starter where
  | int
  | boolean
  | string
  | reference
  | unary
  | grouping
  | block
  | conditional
  | function
  | lambda
  | ret
deriving DecidableEq

/- What a token begins, if it may start an expression. -/
def TokenKind.starter? : TokenKind → Option Starter
  | .intLiteral => some .int
  | .kwTrue => some .boolean
  | .kwFalse => some .boolean
  | .identifier => some .reference
  | .escapedIdentifier => some .reference
  | .kwSet => some .reference
  | .kwGet => some .reference
  | .stringStart => some .string
  | .dash => some .unary
  | .kwNot => some .unary
  | .openParen => some .grouping
  | .openCurly => some .block
  | .kwIf => some .conditional
  | .kwFun => some .function
  | .pipe => some .lambda
  | .kwReturn => some .ret
  | _ => none

------------------------------------------------------------
-- Extending an expression
------------------------------------------------------------

/- What a token behind an expression makes of it. -/
inductive Extender where
  | binary
  | assignment
  | member
  | call
deriving DecidableEq

/- What a token makes of the expression before it. -/
def TokenKind.extender? :
    TokenKind → Option (Extender × Power)
  | .assignment => some (.assignment, .assignment)
  | .plusEquals => some (.assignment, .assignment)
  | .minusEquals => some (.assignment, .assignment)
  | .starEquals => some (.assignment, .assignment)
  | .slashEquals => some (.assignment, .assignment)
  | .kwOr => some (.binary, .logicalOr)
  | .kwAnd => some (.binary, .logicalAnd)
  | .equals => some (.binary, .equality)
  | .notEquals => some (.binary, .equality)
  | .less => some (.binary, .relational)
  | .lessEquals => some (.binary, .relational)
  | .greater => some (.binary, .relational)
  | .greaterEquals => some (.binary, .relational)
  | .plus => some (.binary, .additive)
  | .dash => some (.binary, .additive)
  | .star => some (.binary, .multiplicative)
  | .slash => some (.binary, .multiplicative)
  | .percent => some (.binary, .multiplicative)
  | .openParen => some (.call, .call)
  | .dot => some (.member, .member)
  | .questionDot => some (.member, .member)
  | _ => none

------------------------------------------------------------
-- Joining types
------------------------------------------------------------

/- How two written types are joined. -/
inductive TypeJoin where
  | union
  | intersection
deriving DecidableEq

namespace TypeJoin

/- The token between the joined types. -/
def token : TypeJoin → TokenKind
  | union => .pipe
  | intersection => .ampersand

/- How tightly the token binds. -/
def power : TypeJoin → Power
  | union => .logicalOr
  | intersection => .logicalAnd

end TypeJoin

/- How a token joins the types around it. -/
def TokenKind.typeJoin? : TokenKind → Option TypeJoin
  | .pipe => some .union
  | .ampersand => some .intersection
  | _ => none

end SourceCheck
