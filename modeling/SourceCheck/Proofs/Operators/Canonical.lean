import SourceCheck.Proofs.Syntax.Derivation

/-
  Operations and the ways to write them.

  An operation is built from numbers, truth values, names
  and calls by operators, accesses, assignments and
  parentheses.  It is canonical if its nodes lie within each
  other as the powers of the operators say, so that it needs
  no more parentheses than it has.

  Key definitions include:
    * `Expr.isOperation`
    * `Expr.level`
    * `Expr.isCanonical`
    * `Expr.WrittenAs`
    * `ExprForm.opens`
    * `ExprForm.closes`
    * `ExprForm.StopsAt`

  Key theorems include:
    * `ExprForm.level_le_closes`
    * `ExprForm.le_level_of_le_closes`
-/

namespace SourceCheck

------------------------------------------------------------
-- Operations
------------------------------------------------------------

mutual

/- The form is one of an operation, through and through. -/
def ExprForm.isOperation : ExprForm → Bool
  | .int n => 0 ≤ n
  | .boolean _ => true
  | .reference _ _ => true
  | .invocation _ arguments _ =>
      areOperations arguments
  | .call callee arguments =>
      callee.isOperation && areOperations arguments
  | .access left _ right =>
      left.isOperation && right.isOperation
  | .binary left _ right =>
      left.isOperation && right.isOperation
  | .unary _ operand => operand.isOperation
  | .assignment target _ value =>
      target.isOperation && value.isOperation
  | .parenthesized inner => inner.isOperation
  | _ => false

/- The expression is an operation, through and through. -/
def Expr.isOperation : Expr → Bool
  | ⟨form, _, _⟩ => form.isOperation

/- The values of all arguments are operations. -/
def areOperations : List Argument → Bool
  | [] => true
  | ⟨_, value, _⟩ :: xs =>
      value.isOperation && areOperations xs

end

/- Strings are no operations. -/
theorem isOperation_stringForm (parts : List StringPart) :
    (stringForm parts).isOperation = false := by
  unfold stringForm
  split
  · rfl
  · rfl

------------------------------------------------------------
-- Levels
------------------------------------------------------------

/- How tightly an operator binds its operands. -/
def BinaryOperator.power : BinaryOperator → Power
  | or => .logicalOr
  | and => .logicalAnd
  | equals => .equality
  | notEquals => .equality
  | less => .relational
  | lessEquals => .relational
  | greater => .relational
  | greaterEquals => .relational
  | plus => .additive
  | minus => .additive
  | multiply => .multiplicative
  | divide => .multiplicative
  | modulo => .multiplicative

/-
  How tightly the outermost node holds together.  Calls of
  expressions and accesses are on one level.
-/
def ExprForm.level : ExprForm → Power
  | .assignment _ _ _ => .assignment
  | .binary _ o _ => o.power
  | .unary _ _ => .unary
  | .call _ _ => .call
  | .access _ _ _ => .call
  | _ => .primary

def Expr.level (e : Expr) : Power :=
  e.form.level

------------------------------------------------------------
-- Canonical operations
------------------------------------------------------------

/- The form is a bare name. -/
def ExprForm.isReference : ExprForm → Bool
  | .reference _ _ => true
  | _ => false

/- A bare name, or an access to one. -/
def ExprForm.endsWithName : ExprForm → Bool
  | .reference _ _ => true
  | .access _ _ right => right.form.isReference
  | _ => false

/- The form would be taken for a value behind its name. -/
def ExprForm.isNaming : ExprForm → Bool
  | .assignment target .assign _ => target.form.isReference
  | _ => false

mutual

/-
  No node lies within another one that binds more tightly.
  Operators associate to the left, assignments to the right.
  What is called does not end with a name, which would be
  called instead, and no positional argument looks like one
  with a name.
-/
def ExprForm.isCanonical : ExprForm → Bool
  | .invocation _ arguments _ => areCanonical arguments
  | .call callee arguments =>
      Power.call.rank ≤ callee.level.rank &&
        !callee.form.endsWithName &&
          callee.isCanonical && areCanonical arguments
  | .access left _ right =>
      Power.call.rank ≤ left.level.rank &&
        right.isReferenceOrInvocation &&
          left.isCanonical && right.isCanonical
  | .binary left o right =>
      o.power.rank ≤ left.level.rank &&
        o.power.rank < right.level.rank &&
          left.isCanonical && right.isCanonical
  | .unary _ operand =>
      Power.unary.rank ≤ operand.level.rank &&
        operand.isCanonical
  | .assignment target _ value =>
      target.level ≠ .assignment &&
        target.isCanonical && value.isCanonical
  | .parenthesized inner => inner.isCanonical
  | _ => true

/- The expression is canonical, through and through. -/
def Expr.isCanonical : Expr → Bool
  | ⟨form, _, _⟩ => form.isCanonical

/- All arguments are canonical. -/
def areCanonical : List Argument → Bool
  | [] => true
  | ⟨name, value, _⟩ :: xs =>
      (name.isSome || !value.form.isNaming) &&
        value.isCanonical && areCanonical xs

end

namespace ExprForm

variable {callee left right operand target value : Expr}
variable {arguments : List Argument}

theorem isCanonical_call_iff :
    (call callee arguments).isCanonical = true ↔
      ((Power.call.rank ≤ callee.level.rank ∧
          callee.form.endsWithName = false) ∧
        callee.isCanonical = true) ∧
          areCanonical arguments = true := by
  change (_ && !_ && _ && _) = true ↔ _
  simp only [Bool.and_eq_true, decide_eq_true_eq,
    Bool.not_eq_true']

theorem isCanonical_access_iff (safe : Bool) :
    (access left safe right).isCanonical = true ↔
      ((Power.call.rank ≤ left.level.rank ∧
          right.isReferenceOrInvocation = true) ∧
        left.isCanonical = true) ∧
          right.isCanonical = true := by
  change (_ && _ && _ && _) = true ↔ _
  simp only [Bool.and_eq_true, decide_eq_true_eq]

theorem isCanonical_binary_iff (o : BinaryOperator) :
    (binary left o right).isCanonical = true ↔
      ((o.power.rank ≤ left.level.rank ∧
          o.power.rank < right.level.rank) ∧
        left.isCanonical = true) ∧
          right.isCanonical = true := by
  change (_ && _ && _ && _) = true ↔ _
  simp only [Bool.and_eq_true, decide_eq_true_eq]

theorem isCanonical_unary_iff (o : UnaryOperator) :
    (unary o operand).isCanonical = true ↔
      Power.unary.rank ≤ operand.level.rank ∧
        operand.isCanonical = true := by
  change (_ && _) = true ↔ _
  simp only [Bool.and_eq_true, decide_eq_true_eq]

theorem isCanonical_assignment_iff
    (o : AssignmentOperator) :
    (assignment target o value).isCanonical = true ↔
      (target.level ≠ .assignment ∧
        target.isCanonical = true) ∧
          value.isCanonical = true := by
  change (_ && _ && _) = true ↔ _
  simp only [Bool.and_eq_true, decide_eq_true_eq]

end ExprForm

theorem areCanonical_cons_iff
    {name : Option String}
    {value : Expr}
    {span : Span}
    {xs : List Argument} :
    areCanonical (⟨name, value, span⟩ :: xs) = true ↔
      ((name.isSome || !value.form.isNaming) = true ∧
        value.isCanonical = true) ∧
          areCanonical xs = true := by
  change (_ && _ && _) = true ↔ _
  simp only [Bool.and_eq_true]

------------------------------------------------------------
-- Tokens
------------------------------------------------------------

/- The word for a truth value. -/
def booleanKind (b : Bool) : TokenKind :=
  if b then .kwTrue else .kwFalse

/- The token of a unary operator. -/
def UnaryOperator.kind : UnaryOperator → TokenKind
  | negate => .dash
  | not => .kwNot

/- The token between an expression and its member. -/
def accessKind (safe : Bool) : TokenKind :=
  if safe then .questionDot else .dot

mutual

/-
  The form may be written as the tokens.  Numbers and names
  may be spelled in any way that stands for them.
-/
inductive ExprForm.WrittenAs :
    ExprForm → List Token → Prop where
  | int {n token}
      (hKind : token.kind = .intLiteral)
      (hValue : intForm? token.value = some (.int n)) :
      ExprForm.WrittenAs (.int n) [token]
  | boolean {b token}
      (hKind : token.kind = booleanKind b) :
      ExprForm.WrittenAs (.boolean b) [token]
  | reference {token target}
      (hName : token.kind.isName) :
      ExprForm.WrittenAs (.reference token.name target)
        [token]
  | invocation {token opening ts closing arguments target}
      (hName : token.kind.isName)
      (hOpen : opening.kind = .openParen)
      (hArguments : ArgumentsWrittenAs arguments ts)
      (hClose : closing.kind = .closeParen) :
      ExprForm.WrittenAs
        (.invocation token.name arguments target)
        (token :: opening :: (ts ++ [closing]))
  | call {callee us opening ts closing arguments}
      (hCallee : Expr.WrittenAs callee us)
      (hOpen : opening.kind = .openParen)
      (hArguments : ArgumentsWrittenAs arguments ts)
      (hClose : closing.kind = .closeParen) :
      ExprForm.WrittenAs (.call callee arguments)
        (us ++ opening :: (ts ++ [closing]))
  | access {left us token safe right vs}
      (hLeft : Expr.WrittenAs left us)
      (hKind : token.kind = accessKind safe)
      (hRight : Expr.WrittenAs right vs) :
      ExprForm.WrittenAs (.access left safe right)
        (us ++ token :: vs)
  | binary {left us token o right vs}
      (hLeft : Expr.WrittenAs left us)
      (hOperator : token.kind.binaryOperator? = some o)
      (hRight : Expr.WrittenAs right vs) :
      ExprForm.WrittenAs (.binary left o right)
        (us ++ token :: vs)
  | unary {token o operand us}
      (hKind : token.kind = o.kind)
      (hOperand : Expr.WrittenAs operand us) :
      ExprForm.WrittenAs (.unary o operand) (token :: us)
  | assignment {left us token o value vs}
      (hTarget : Expr.WrittenAs left us)
      (hOperator :
        token.kind.assignmentOperator? = some o)
      (hValue : Expr.WrittenAs value vs) :
      ExprForm.WrittenAs (.assignment left o value)
        (us ++ token :: vs)
  | parenthesized {opening inner us closing}
      (hOpen : opening.kind = .openParen)
      (hInner : Expr.WrittenAs inner us)
      (hClose : closing.kind = .closeParen) :
      ExprForm.WrittenAs (.parenthesized inner)
        (opening :: (us ++ [closing]))

/- The expression may be written as the tokens. -/
inductive Expr.WrittenAs : Expr → List Token → Prop where
  | intro {form span type ts}
      (hForm : ExprForm.WrittenAs form ts) :
      Expr.WrittenAs ⟨form, span, type⟩ ts

/- The argument may be written as the tokens. -/
inductive Argument.WrittenAs :
    Argument → List Token → Prop where
  | named {token equals value span ts}
      (hName : token.kind.isName)
      (hEquals : equals.kind = .assignment)
      (hValue : Expr.WrittenAs value ts) :
      Argument.WrittenAs ⟨some token.name, value, span⟩
        (token :: equals :: ts)
  | positional {value span ts}
      (hValue : Expr.WrittenAs value ts) :
      Argument.WrittenAs ⟨none, value, span⟩ ts

/- The arguments may be written as the tokens. -/
inductive ArgumentsWrittenAs :
    List Argument → List Token → Prop where
  | none : ArgumentsWrittenAs [] []
  | some {x us xs ts}
      (hFirst : Argument.WrittenAs x us)
      (hMore : MoreWrittenAs xs ts) :
      ArgumentsWrittenAs (x :: xs) (us ++ ts)

/-
  The arguments behind another one may be written as the
  tokens.  A comma may follow the last one.
-/
inductive MoreWrittenAs :
    List Argument → List Token → Prop where
  | last : MoreWrittenAs [] []
  | trailing {comma}
      (hComma : comma.kind = .comma) :
      MoreWrittenAs [] [comma]
  | next {comma x us xs ts}
      (hComma : comma.kind = .comma)
      (hNext : Argument.WrittenAs x us)
      (hMore : MoreWrittenAs xs ts) :
      MoreWrittenAs (x :: xs) (comma :: (us ++ ts))

end

------------------------------------------------------------
-- The powers of operators
------------------------------------------------------------

theorem Power.lt_iff (p q : Power) :
    p < q ↔ p.rank < q.rank :=
  Iff.rfl

/- Binary operators bind between assignments and signs. -/
theorem BinaryOperator.rank_power (o : BinaryOperator) :
    Power.assignment.rank < o.power.rank ∧
      o.power.rank < Power.unary.rank := by
  cases o <;> decide

/- A binary operator extends an expression as one. -/
theorem extender?_of_binaryOperator?
    {kind : TokenKind}
    {o : BinaryOperator}
    (hOperator : kind.binaryOperator? = some o) :
    kind.extender? = some (.binary, o.power) := by
  cases kind <;> cases hOperator <;> rfl

theorem extender?_of_assignmentOperator?
    {kind : TokenKind}
    {o : AssignmentOperator}
    (hOperator : kind.assignmentOperator? = some o) :
    kind.extender? = some (.assignment, .assignment) := by
  cases kind <;> cases hOperator <;> rfl

/- Each kind of extension has its own powers. -/
theorem extender?_eq_some
    {kind : TokenKind}
    {extender : Extender}
    {q : Power}
    (hOperator : kind.extender? = some (extender, q)) :
    match extender with
    | .binary =>
        ∃ o, kind.binaryOperator? = some o ∧ q = o.power
    | .assignment =>
        (∃ o, kind.assignmentOperator? = some o) ∧
          q = .assignment
    | .member =>
        kind = accessKind (kind = .questionDot) ∧
          q = .member
    | .call => kind = .openParen ∧ q = .call := by
  cases kind <;> cases hOperator <;>
    first
    | exact ⟨_, rfl, rfl⟩
    | exact ⟨⟨_, rfl⟩, rfl⟩
    | exact ⟨rfl, rfl⟩

/- No operator binds more tightly than an access. -/
theorem TokenKind.endsAbove_of_member_le
    (kind : TokenKind)
    {p : Power}
    (hTight : Power.member.rank ≤ p.rank) :
    kind.EndsAbove p := by
  intro extender q hOperator hLess
  have hRank : q.rank ≤ Power.member.rank := by
    cases kind <;> cases hOperator <;> decide
  rw [Power.lt_iff] at hLess
  omega

/- What ends looser expressions ends tighter ones. -/
theorem TokenKind.EndsAbove.mono
    {kind : TokenKind}
    {p q : Power}
    (hEnds : kind.EndsAbove p)
    (hLe : p.rank ≤ q.rank) :
    kind.EndsAbove q := by
  intro extender r hOperator hLess
  rw [Power.lt_iff] at hLess
  exact hEnds extender r hOperator
    (Nat.lt_of_le_of_lt hLe hLess)

------------------------------------------------------------
-- The edges of operations
------------------------------------------------------------

namespace ExprForm

/- The loosest operator on the way down the left edge. -/
def opens : ExprForm → Power
  | .assignment _ _ _ => .assignment
  | .binary _ o _ => o.power
  | .call _ _ => .call
  | .access _ _ _ => .call
  | _ => .primary

/-
  The loosest power at which an operand on the right edge is
  read, which no operator behind the form exceeds.
-/
def closes : ExprForm → Power
  | .assignment _ _ _ => .loosest
  | .binary _ o _ => o.power
  | .unary _ _ => .unary
  | _ => .primary

/-
  Behind the form a token of the kind does not go on with a
  part of it.
-/
structure StopsAt (f : ExprForm) (kind : TokenKind) :
    Prop where
  endsAbove : kind.EndsAbove f.closes
  notCalled : f.endsWithName = true → kind ≠ .openParen

theorem level_le_opens (f : ExprForm) :
    f.level.rank ≤ f.opens.rank := by
  cases f <;> simp only [level, opens, Power.rank] <;> omega

/- Nothing is looser than an assignment. -/
theorem assignment_le_level (f : ExprForm) :
    Power.assignment.rank ≤ f.level.rank := by
  cases f with
  | binary left o right => exact Nat.le_of_lt o.rank_power.1
  | _ => exact Nat.le_of_ble_eq_true rfl

/- Except for assignments, the right edge is as tight. -/
theorem level_le_closes
    {f : ExprForm}
    (hOther : f.level ≠ .assignment) :
    f.level.rank ≤ f.closes.rank := by
  cases f with
  | assignment => exact absurd rfl hOther
  | _ =>
      simp only [level, closes, Power.rank]
      omega

/- Accesses and calls have nothing open on the right. -/
theorem closes_of_call_le
    {f : ExprForm}
    (hTight : Power.call.rank ≤ f.level.rank) :
    f.closes = .primary := by
  cases f with
  | binary left o right =>
      have hBounds := o.rank_power
      simp only [level, Power.rank] at hTight hBounds
      omega
  | assignment =>
      exact absurd hTight
        (by simp only [level, Power.rank]; decide)
  | unary =>
      exact absurd hTight
        (by simp only [level, Power.rank]; decide)
  | _ => rfl

/- What extends the form may have it as its left operand. -/
theorem le_level_of_le_closes
    {f : ExprForm}
    {q : Power}
    (hLoose : q.rank ≤ Power.call.rank)
    (hLe : q.rank ≤ f.closes.rank) :
    q.rank ≤ f.level.rank := by
  cases f with
  | binary => exact hLe
  | unary => exact hLe
  | assignment => exact Nat.le_succ_of_le hLe
  | call => exact hLoose
  | access => exact hLoose
  | _ => exact hLe

/- A right operand is tighter than its operator. -/
theorem lt_level_of_lt_opens
    {f : ExprForm}
    {q : Power}
    (hLoose : q.rank < Power.unary.rank)
    (hLess : q.rank < f.opens.rank) :
    q.rank < f.level.rank := by
  cases f with
  | unary => exact hLoose
  | _ => exact hLess

/- The operand of a sign is no binary operation. -/
theorem unary_le_level_of_lt_opens
    {f : ExprForm}
    (hLess : Power.unary.rank < f.opens.rank) :
    Power.unary.rank ≤ f.level.rank := by
  cases f with
  | unary => exact Nat.le_refl _
  | _ => exact Nat.le_of_lt hLess

theorem level_of_isNaming
    {f : ExprForm}
    (hNaming : f.isNaming = true) :
    f.level = .assignment := by
  cases f with
  | assignment => rfl
  | _ => cases hNaming

end ExprForm

end SourceCheck
