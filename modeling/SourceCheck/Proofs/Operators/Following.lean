import SourceCheck.Proofs.Operators.Canonical
import SourceCheck.Proofs.Syntax.Lookahead

/-
  The parser follows the derivations of operations.

  Where an operation has a derivation, the parser gives its
  tree and stops behind it, if enough tokens are allowed for
  the loops and enough depth for what is nested.  Each token
  costs a loop one step and nests one expression at most.

  Key definitions include:
    * `Phrase.Followed`

  Key theorems include:
    * `Derives.followed`
-/

namespace SourceCheck

open SourceCheck.Parser
open SourceCheck.Grammar

variable {s t u v : ParserState}

------------------------------------------------------------
-- Loops
------------------------------------------------------------

section Loops

variable {α : Type}
variable {a b c : α}
variable {as : List α}

/- A loop goes on with what its step gives. -/
theorem outcome_loopWithin_some
    {step : α → Parser (Option α)}
    {budget : List Token}
    (hStep : (step a).outcome s = (.ok (some b), t))
    (hRest :
      ∀ fewer : List Token,
        fewer.length + 1 = budget.length →
          (loopWithin step fewer b).outcome t = (.ok c, u))
    (hPositive : 0 < budget.length) :
    (loopWithin step budget a).outcome s = (.ok c, u) := by
  cases budget with
  | nil => exact absurd hPositive (Nat.lt_irrefl 0)
  | cons token budget =>
      rw [loopWithin, outcome_bind, hStep]
      exact hRest budget rfl

theorem outcome_collectWithin_none
    {step : Parser (Option α)}
    (hStep : step.outcome s = (.ok none, t))
    (budget : List Token) :
    (collectWithin step budget).outcome s =
      (.ok [], t) := by
  cases budget with
  | nil =>
      rw [collectWithin, outcome_bind, hStep]
      rfl
  | cons token budget =>
      rw [collectWithin, outcome_bind, hStep]
      rfl

theorem outcome_collectWithin_some
    {step : Parser (Option α)}
    {budget : List Token}
    (hStep : step.outcome s = (.ok (some a), t))
    (hRest :
      ∀ fewer : List Token,
        fewer.length + 1 = budget.length →
          (collectWithin step fewer).outcome t =
            (.ok as, u))
    (hPositive : 0 < budget.length) :
    (collectWithin step budget).outcome s =
      (.ok (a :: as), u) := by
  cases budget with
  | nil => exact absurd hPositive (Nat.lt_irrefl 0)
  | cons token budget =>
      rw [collectWithin, outcome_bind, hStep]
      dsimp only
      rw [outcome_bind, hRest budget rfl]
      rfl

end Loops

------------------------------------------------------------
-- Expressions
------------------------------------------------------------

variable {nested : Nested}
variable {p q : Power}

theorem outcome_required
    {e : Expr}
    (hNested :
      (nested.expression p).outcome s = (.ok (some e), t)) :
    (nested.required p).outcome s = (.ok e, t) := by
  unfold Nested.required
  rw [outcome_bind, hNested]
  rfl

/- An expression is what is started, and then extended. -/
theorem outcome_expression
    {starter : Starter}
    {first e : Expr}
    (hStart : s.token.kind.starter? = some starter)
    (hFirst :
      (starter.parser nested s.token).outcome s.next =
        (.ok first, t))
    (hMore :
      (loopWithin (extend nested p) t.stream.ahead
          first).outcome t =
        (.ok e, u)) :
    (expression nested p).outcome s =
      (.ok (some e), u) := by
  unfold expression loop
  rw [outcome_bind, outcome_consume]
  dsimp only
  rw [hStart]
  dsimp only
  rw [outcome_bind, hFirst]
  dsimp only
  rw [bind_assoc, outcome_bind, outcome_get]
  dsimp only
  rw [outcome_bind, hMore]
  rfl

/- What ends above the power is not extended. -/
theorem outcome_extend_none
    {left : Expr}
    (hStop : s.token.kind.EndsAbove p) :
    (extend nested p left).outcome s = (.ok none, s) := by
  unfold extend
  rw [outcome_bind, outcome_current]
  dsimp only
  cases hOperator : s.token.kind.extender? with
  | none => rfl
  | some x =>
      rcases x with ⟨extender, q⟩
      dsimp only
      rw [if_neg (hStop extender q hOperator)]
      rfl

theorem outcome_extend_some
    {left e : Expr}
    {extender : Extender}
    (hOperator :
      s.token.kind.extender? = some (extender, q))
    (hTight : p < q)
    (hExtension :
      (extender.parser nested left s.token q).outcome
          s.next =
        (.ok e, t)) :
    (extend nested p left).outcome s =
      (.ok (some e), t) := by
  unfold extend
  rw [outcome_bind, outcome_current]
  dsimp only
  rw [hOperator]
  dsimp only
  rw [if_pos hTight, outcome_bind, outcome_consume]
  dsimp only
  rw [outcome_bind, hExtension]
  rfl

------------------------------------------------------------
-- Arguments
------------------------------------------------------------

theorem outcome_argument
    {name : Option Token}
    {value : Expr}
    (hName : argumentName.outcome s = (.ok name, t))
    (hValue :
      (nested.expression .loosest).outcome t =
        (.ok (some value), u)) :
    (argument nested).outcome s =
      (.ok ⟨name.map (·.name), value,
        ((name.map (·.span)).getD value.span).between
          value.span⟩, u) := by
  unfold argument
  rw [outcome_bind, hName]
  dsimp only
  rw [outcome_bind, outcome_required hValue]
  rfl

section Items

variable {α : Type}
variable {item : Parser α}
variable {terminator : TokenKind}
variable {x : α}
variable {xs : List α}

theorem outcome_nextItem_none
    (hNone : s.token.kind ≠ .comma) :
    (nextItem .comma terminator item).outcome s =
      (.ok none, s) := by
  unfold nextItem
  rw [outcome_bind, outcome_accept, if_neg hNone]
  rfl

theorem outcome_nextItem_trailing
    (hComma : s.token.kind = .comma)
    (hNone : s.next.token.kind = terminator) :
    (nextItem .comma terminator item).outcome s =
      (.ok none, s.next) := by
  unfold nextItem
  rw [outcome_bind, outcome_accept, if_pos hComma]
  dsimp only
  rw [if_pos rfl, outcome_bind, outcome_check,
    decide_eq_true hNone]
  rfl

theorem outcome_nextItem_some
    (hComma : s.token.kind = .comma)
    (hSome : s.next.token.kind ≠ terminator)
    (hItem : item.outcome s.next = (.ok x, t)) :
    (nextItem .comma terminator item).outcome s =
      (.ok (some x), t) := by
  unfold nextItem
  rw [outcome_bind, outcome_accept, if_pos hComma]
  dsimp only
  rw [if_pos rfl, outcome_bind, outcome_check,
    decide_eq_false hSome]
  dsimp only
  rw [if_neg Bool.false_ne_true, outcome_bind, hItem]
  rfl

theorem outcome_separated_none
    (hNone : s.token.kind = terminator) :
    (separated .comma terminator item).outcome s =
      (.ok [], s) := by
  unfold separated
  rw [outcome_bind, outcome_check, decide_eq_true hNone]
  rfl

theorem outcome_separated_some
    (hSome : s.token.kind ≠ terminator)
    (hFirst : item.outcome s = (.ok x, t))
    (hMore :
      (collectWithin (nextItem .comma terminator item)
          t.stream.ahead).outcome t =
        (.ok xs, u)) :
    (separated .comma terminator item).outcome s =
      (.ok (x :: xs), u) := by
  unfold separated collect
  rw [outcome_bind, outcome_check, decide_eq_false hSome]
  dsimp only
  rw [if_neg Bool.false_ne_true, outcome_bind, hFirst]
  dsimp only
  rw [bind_assoc, outcome_bind, outcome_get]
  dsimp only
  rw [outcome_bind, hMore]
  rfl

end Items

theorem outcome_arguments
    {xs : List Argument}
    (hItems :
      (separated .comma .closeParen
          (argument nested)).outcome s =
        (.ok xs, t))
    (hClose : t.token.kind = .closeParen) :
    (arguments nested).outcome s =
      (.ok (xs, t.token.span), t.next) := by
  unfold arguments
  rw [outcome_bind, hItems]
  dsimp only
  rw [outcome_bind, outcome_expect hClose]
  rfl

------------------------------------------------------------
-- Operations
------------------------------------------------------------

section Operations

variable {token : Token}
variable {left e : Expr}
variable {xs : List Argument}

theorem outcome_intLiteral
    {form : ExprForm}
    (hForm : intForm? token.value = some form) :
    (intLiteral token).outcome s =
      (.ok (.new form token.span), s) := by
  unfold intLiteral
  rw [hForm]
  rfl

theorem outcome_reference
    (hNone : s.token.kind ≠ .openParen) :
    (Grammar.reference nested token).outcome s =
      (.ok (.reference token.name token.span), s) := by
  unfold Grammar.reference
  rw [outcome_bind, outcome_accept, if_neg hNone]
  rfl

theorem outcome_invocation
    (hOpen : s.token.kind = .openParen)
    (hItems :
      (separated .comma .closeParen
          (Grammar.argument nested)).outcome s.next =
        (.ok xs, t))
    (hClose : t.token.kind = .closeParen) :
    (Grammar.reference nested token).outcome s =
      (.ok
        (.invocation token.name xs
          (token.span.between t.token.span)),
        t.next) := by
  unfold Grammar.reference
  rw [outcome_bind, outcome_accept, if_pos hOpen]
  dsimp only
  rw [if_pos rfl, outcome_bind,
    outcome_arguments hItems hClose]
  rfl

theorem outcome_unary
    (hOperand :
      (nested.expression .unary).outcome s =
        (.ok (some e), t)) :
    (Grammar.unary nested token).outcome s =
      (.ok
        (.new
          (.unary
            (if token.kind = .kwNot then .not else .negate)
            e)
          (token.span.between e.span)),
        t) := by
  unfold Grammar.unary
  dsimp only
  rw [outcome_bind, outcome_required hOperand]
  rfl

theorem outcome_grouping
    (hInner :
      (nested.expression .loosest).outcome s =
        (.ok (some e), t))
    (hClose : t.token.kind = .closeParen) :
    (grouping nested token).outcome s =
      (.ok
        (.new (.parenthesized e)
          (token.span.between t.token.span)),
        t.next) := by
  unfold grouping
  rw [outcome_bind, outcome_required hInner]
  dsimp only
  rw [outcome_bind, outcome_expect hClose]
  rfl

theorem outcome_binary
    {o : BinaryOperator}
    (hOperator : token.kind.binaryOperator? = some o)
    (hRight :
      (nested.expression q).outcome s = (.ok (some e), t)) :
    (Grammar.binary nested left token q).outcome s =
      (.ok
        (.new (.binary left o e)
          (left.span.between e.span)),
        t) := by
  unfold Grammar.binary
  rw [hOperator]
  dsimp only
  rw [outcome_bind, outcome_required hRight]
  rfl

theorem outcome_assignment
    {o : AssignmentOperator}
    (hOperator : token.kind.assignmentOperator? = some o)
    (hValue :
      (nested.expression q.lower).outcome s =
        (.ok (some e), t)) :
    (Grammar.assignment nested left token q).outcome s =
      (.ok
        (.new (.assignment left o e)
          (left.span.between e.span)),
        t) := by
  unfold Grammar.assignment
  rw [hOperator]
  dsimp only
  rw [outcome_bind, outcome_required hValue]
  rfl

theorem outcome_memberAccess
    (hName : s.token.kind.isName)
    (hRight :
      (nested.expression q).outcome s = (.ok (some e), t))
    (hIs : e.isReferenceOrInvocation) :
    (memberAccess nested left token q).outcome s =
      (.ok
        (.new
          (.access left (token.kind = .questionDot) e)
          (left.span.between e.span)),
        t) := by
  unfold memberAccess
  rw [outcome_bind, outcome_checkName]
  dsimp only
  rw [if_pos hName, outcome_bind, outcome_required hRight]
  dsimp only
  rw [if_pos hIs]
  rfl

theorem outcome_call
    (hItems :
      (separated .comma .closeParen
          (Grammar.argument nested)).outcome s =
        (.ok xs, t))
    (hClose : t.token.kind = .closeParen) :
    (Grammar.call nested left).outcome s =
      (.ok
        (.new (.call left xs)
          (left.span.between t.token.span)),
        t.next) := by
  unfold Grammar.call
  rw [outcome_bind, outcome_arguments hItems hClose]
  rfl

end Operations

------------------------------------------------------------
-- Derivations
------------------------------------------------------------

/- The parser gives an argument that is an operation. -/
def Item.Followed :
    (i : Item) →
      ParserState → i.Result → ParserState → Prop
  | .argument, s, x, t =>
      x.value.isOperation = true →
        ∀ depth,
          s.left < depth →
            (Grammar.argument (nestedWithin depth)).outcome s =
              (.ok x, t)
  | _, _, _, _ => True

/- The parser gives a list of such arguments. -/
def Item.AllFollowed :
    (i : Item) →
      ParserState → List i.Result → ParserState → Prop
  | .argument, s, xs, t =>
      areOperations xs = true →
        ∀ depth,
          s.left < depth →
            (separated .comma .closeParen
                (Grammar.argument (nestedWithin depth))).outcome s =
              (.ok xs, t)
  | _, _, _, _ => True

/- The parser gives such arguments behind another one. -/
def Item.MoreFollowed :
    (i : Item) →
      ParserState → List i.Result → ParserState → Prop
  | .argument, s, xs, t =>
      areOperations xs = true →
        ∀ depth budget,
          s.left < depth →
            s.left ≤ budget.length →
              (collectWithin
                  (nextItem .comma .closeParen
                    (Grammar.argument (nestedWithin depth)))
                  budget).outcome s =
                (.ok xs, t)
  | _, _, _, _ => True

/-
  If the tree of a phrase is an operation, the parser of the
  phrase gives it, with enough depth for all that is left.
-/
def Phrase.Followed :
    (phrase : Phrase) →
      ParserState → phrase.Result → ParserState → Prop
  | .expression p, s, e, t =>
      e.isOperation = true →
        ∀ depth,
          s.left < depth →
            ((nestedWithin depth).expression p).outcome s =
              (.ok (some e), t)
  | .extensions p left, s, e, t =>
      e.isOperation = true →
        left.isOperation = true ∧
          ∀ depth budget,
            s.left < depth →
              s.left ≤ budget.length →
                (loopWithin (extend (nestedWithin depth) p)
                    budget left).outcome s =
                  (.ok e, t)
  | .start starter token, s, e, t =>
      e.isOperation = true →
        ∀ depth,
          s.left < depth →
            (starter.parser (nestedWithin depth)
                token).outcome s =
              (.ok e, t)
  | .extension extender left operator q, s, e, t =>
      e.isOperation = true →
        left.isOperation = true ∧
          ∀ depth,
            s.left < depth →
              (extender.parser (nestedWithin depth) left
                  operator q).outcome s =
                (.ok e, t)
  | .item i, s, x, t => i.Followed s x t
  | .items i, s, xs, t => i.AllFollowed s xs t
  | .moreItems i, s, xs, t => i.MoreFollowed s xs t
  | _, _, _, _ => True

/- The parser gives the operations that have derivations. -/
theorem Derives.followed
    {phrase : Phrase}
    {r : phrase.Result}
    (hDerives : Derives phrase s r t) :
    phrase.Followed s r t := by
  induction hDerives with
  | @expression p starter s first t e u hStart hFirst _
      ihFirst ihMore =>
      intro hOperation depth hDepth
      rcases ihMore hOperation with ⟨hOther, hMore⟩
      have hPassed :=
        ParserState.left_next (ne_eof_of_starter hStart)
      have hLeft := hFirst.left_le
      dsimp only [Phrase.least] at hLeft
      cases depth with
      | zero => exact absurd hDepth (Nat.not_lt_zero _)
      | succ depth =>
          exact outcome_expression hStart
            (ihFirst hOther depth (by omega))
            (hMore depth _ (by omega) (Nat.le_refl _))
  | stop hStop =>
      exact fun hOperation => ⟨hOperation,
        fun _ budget _ _ =>
          outcome_loopWithin_none
            (outcome_extend_none hStop) budget⟩
  | @more p left extender q s e t f u hOperator hTight
      hExtension _ ihExtension ihMore =>
      intro hOperation
      rcases ihMore hOperation with ⟨hOther, hMore⟩
      rcases ihExtension hOther with ⟨hLeft, hExtended⟩
      have hPassed :=
        ParserState.left_next (ne_eof_of_extender hOperator)
      have hRest := hExtension.left_le
      dsimp only [Phrase.least] at hRest
      refine ⟨hLeft, fun depth budget hDepth hBudget => ?_⟩
      refine outcome_loopWithin_some
        (outcome_extend_some hOperator hTight
          (hExtended depth (by omega)))
        (fun fewer hFewer => ?_) (by omega)
      exact hMore depth fewer (by omega) (by omega)
  | int hForm => exact fun _ _ _ => outcome_intLiteral hForm
  | boolean => exact fun _ _ _ => rfl
  | @string token s parts t =>
      intro hOperation
      have hNone := isOperation_stringForm parts
      exact absurd (hNone.symm.trans hOperation)
        Bool.false_ne_true
  | reference hNone =>
      exact fun _ _ _ => outcome_reference hNone
  | @invocation token s arguments t hOpen _ hClose ih =>
      intro hOperation depth hDepth
      have hPassed :=
        ParserState.left_next (s := s)
          (by rw [hOpen]; decide)
      exact outcome_invocation hOpen
        (ih hOperation depth (by omega)) hClose
  | unary _ ih =>
      exact fun hOperation depth hDepth =>
        outcome_unary (ih hOperation depth hDepth)
  | grouping _ hClose ih =>
      exact fun hOperation depth hDepth =>
        outcome_grouping (ih hOperation depth hDepth) hClose
  | startBlock hBlock _ =>
      intro hOperation
      cases hBlock with
      | block => cases hOperation
  | conditional => exact fun h => nomatch h
  | functionLiteral => exact fun h => nomatch h
  | lambda => exact fun h => nomatch h
  | retValue => exact fun h => nomatch h
  | retNothing => exact fun h => nomatch h
  | binary hIs _ ih =>
      intro hOperation
      rcases Bool.and_eq_true_iff.1 hOperation with
        ⟨hLeft, hRight⟩
      exact ⟨hLeft, fun depth hDepth =>
        outcome_binary hIs (ih hRight depth hDepth)⟩
  | assignment hIs _ ih =>
      intro hOperation
      rcases Bool.and_eq_true_iff.1 hOperation with
        ⟨hLeft, hRight⟩
      exact ⟨hLeft, fun depth hDepth =>
        outcome_assignment hIs (ih hRight depth hDepth)⟩
  | member hName _ hIs ih =>
      intro hOperation
      rcases Bool.and_eq_true_iff.1 hOperation with
        ⟨hLeft, hRight⟩
      exact ⟨hLeft, fun depth hDepth =>
        outcome_memberAccess hName (ih hRight depth hDepth)
          hIs⟩
  | call _ hClose ih =>
      intro hOperation
      rcases Bool.and_eq_true_iff.1 hOperation with
        ⟨hLeft, hArguments⟩
      exact ⟨hLeft, fun depth hDepth =>
        outcome_call (ih hArguments depth hDepth) hClose⟩
  | @named s value t hNamed _ ih =>
      intro hOperation depth hDepth
      have hFirst := s.left_next_le
      have hSecond := s.next.left_next_le
      exact outcome_argument
        (outcome_argumentName_some hNamed)
        (ih hOperation depth (by omega))
  | positional hNone _ ih =>
      intro hOperation depth hDepth
      exact outcome_argument
        (outcome_argumentName_none hNone)
        (ih hOperation depth hDepth)
  | @noItems i s hNone =>
      cases i with
      | argument =>
          exact fun _ _ _ => outcome_separated_none hNone
      | _ => trivial
  | @someItems i s x t xs u hSome hFirst _ ihFirst ihMore =>
      have hLeft := hFirst.left_le
      dsimp only [Phrase.least] at hLeft
      cases i with
      | argument =>
          intro hOperations depth hDepth
          rcases x with ⟨name, value, span⟩
          rcases Bool.and_eq_true_iff.1 hOperations with
            ⟨hValue, hOthers⟩
          exact outcome_separated_some hSome
            (ihFirst hValue depth hDepth)
            (ihMore hOthers depth _ (by omega)
              (Nat.le_refl _))
      | _ => trivial
  | @lastItem i s hNone =>
      cases i with
      | argument =>
          exact fun _ _ budget _ _ =>
            outcome_collectWithin_none
              (outcome_nextItem_none hNone) budget
      | _ => trivial
  | @trailingComma i s hComma hNone =>
      cases i with
      | argument =>
          exact fun _ _ budget _ _ =>
            outcome_collectWithin_none
              (outcome_nextItem_trailing hComma hNone)
              budget
      | _ => trivial
  | @nextItem i s x t xs u hComma hSome hItem _ ihItem
      ihMore =>
      have hLeft := hItem.left_le
      have hPassed :=
        ParserState.left_next (s := s)
          (by rw [hComma]; decide)
      dsimp only [Phrase.least] at hLeft
      cases i with
      | argument =>
          intro hOperations depth budget hDepth hBudget
          rcases x with ⟨name, value, span⟩
          rcases Bool.and_eq_true_iff.1 hOperations with
            ⟨hValue, hOthers⟩
          refine outcome_collectWithin_some
            (outcome_nextItem_some hComma hSome
              (ihItem hValue depth (by omega)))
            (fun fewer hFewer => ?_) (by omega)
          exact ihMore hOthers depth fewer (by omega)
            (by omega)
      | _ => trivial
  | _ => trivial

end SourceCheck
