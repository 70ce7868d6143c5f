import Mathlib
import SourceCheck.Proofs.Literals.Parts
import SourceCheck.Proofs.Syntax.Coverage
import SourceCheck.Proofs.Syntax.Depth

/-
  The tokens that expressions end with.

  Whether the last token of an expression is a closing brace
  can be seen from its tree, along its last parts.  Not all
  trees with one may stand without a semicolon: behind the
  last branches and bodies there has to be a block itself,
  and no operation whose last operand is one.

  Key definitions include:
    * `Expr.closesWithBrace`
    * `Expr.endsInOperation`
    * `Nested.EndsAsWritten`

  Key theorems include:
    * `Expr.endsWithBlock_eq`
    * `endsAsWritten_nestedWithin`
    * `outcome_expressionStatement_of_required`
    * `semicolon_needed`
-/

namespace SourceCheck

open SourceCheck.Parser
open SourceCheck.ParserState
open SourceCheck.Grammar

------------------------------------------------------------
-- Last parts of trees
------------------------------------------------------------

mutual

/- The last part of the form is a block in the end. -/
def ExprForm.closesWithBrace : ExprForm → Bool
  | .block _ _ => true
  | .binary _ _ right => right.closesWithBrace
  | .unary _ operand => operand.closesWithBrace
  | .assignment _ _ value => value.closesWithBrace
  | .conditional _ _ (some e) => e.closesWithBrace
  | .conditional _ e none => e.closesWithBrace
  | .function _ _ body _ => body.closesWithBrace
  | .lambda _ body _ => body.closesWithBrace
  | .ret (some e) => e.closesWithBrace
  | _ => false

/- The last part of the expression is one. -/
def Expr.closesWithBrace : Expr → Bool
  | ⟨form, _, _⟩ => form.closesWithBrace

end

mutual

/- The last branch or body of the form is an operation. -/
def ExprForm.endsInOperation : ExprForm → Bool
  | .binary _ _ _ => true
  | .unary _ _ => true
  | .assignment _ _ _ => true
  | .ret (some _) => true
  | .conditional _ _ (some e) => e.endsInOperation
  | .conditional _ e none => e.endsInOperation
  | .function _ _ body _ => body.endsInOperation
  | .lambda _ body _ => body.endsInOperation
  | _ => false

/- The last branch or body of the expression is one. -/
def Expr.endsInOperation : Expr → Bool
  | ⟨form, _, _⟩ => form.endsInOperation

end

mutual

/- The induction is on the form. -/
theorem ExprForm.endsWithBlock_eq (form : ExprForm) :
    form.endsWithBlock =
      (form.closesWithBrace && !form.endsInOperation) := by
  cases form with
  | conditional condition thenBranch otherwise =>
      cases otherwise with
      | none => exact thenBranch.endsWithBlock_eq
      | some e => exact e.endsWithBlock_eq
  | function parameters returnType body scope =>
      exact body.endsWithBlock_eq
  | lambda parameters body scope =>
      exact body.endsWithBlock_eq
  | ret value =>
      cases value with
      | none => rfl
      | some e => exact (Bool.and_false _).symm
  | binary left operator right =>
      exact (Bool.and_false _).symm
  | unary operator operand => exact (Bool.and_false _).symm
  | assignment target operator value =>
      exact (Bool.and_false _).symm
  | _ => rfl

/-
  The semicolon may be left out behind a brace, unless the
  brace belongs to an operand.
-/
theorem Expr.endsWithBlock_eq (e : Expr) :
    e.endsWithBlock =
      (e.closesWithBrace && !e.endsInOperation) := by
  rcases e with ⟨form, span, type⟩
  exact form.endsWithBlock_eq

end

theorem closesWithBrace_of_intForm?
    {text : String}
    {form : ExprForm}
    (hForm : intForm? text = some form) :
    form.closesWithBrace = false := by
  rcases exists_of_intForm? hForm with ⟨n, rfl⟩ | ⟨n, rfl⟩
  · rfl
  · rfl

theorem closesWithBrace_stringForm
    (parts : List StringPart) :
    (stringForm parts).closesWithBrace = false := by
  unfold stringForm
  split
  · rfl
  · rfl

theorem closesWithBrace_of_isReferenceOrInvocation
    {e : Expr}
    (hIs : e.isReferenceOrInvocation = true) :
    e.closesWithBrace = false := by
  rcases e with ⟨form, span, type⟩
  cases form with
  | reference => rfl
  | invocation => rfl
  | _ => cases hIs

------------------------------------------------------------
-- The token before the cursor
------------------------------------------------------------

/- The last token that was taken is a closing brace. -/
def ParserState.behindBrace (s : ParserState) : Bool :=
  s.stream.previous.kind = .closeCurly

variable {α β : Type}
variable {scopes : List ScopeId}
variable {s t u : ParserState}

theorem ParserState.behindBrace_iff :
    s.behindBrace = true ↔
      s.stream.previous.kind = .closeCurly :=
  decide_eq_true_iff

/- Behind a token that was taken it depends on the token. -/
theorem ParserState.behindBrace_next
    (hMore : s.token.kind ≠ .eof) :
    s.next.behindBrace =
      decide (s.token.kind = .closeCurly) := by
  unfold behindBrace
  rw [previous_next hMore]

theorem behindBrace_of_expect
    {kind : TokenKind}
    {expected : String}
    {token : Token}
    (hKind : kind ≠ .eof)
    (hRun :
      (expect kind expected).outcome s = (.ok token, t)) :
    t.behindBrace = decide (kind = .closeCurly) := by
  rcases outcome_expect_iff.mp hRun with ⟨rfl, -, rfl⟩
  exact behindBrace_next hKind

/- No brace starts an expression. -/
theorem behindBrace_of_starter
    {starter : Starter}
    (hStart : s.token.kind.starter? = some starter) :
    s.next.behindBrace = false := by
  rw [behindBrace_next (ne_eof_of_starter hStart)]
  refine decide_eq_false fun hBrace => ?_
  rw [hBrace] at hStart
  cases hStart

------------------------------------------------------------
-- Parts of runs
------------------------------------------------------------

/- A part of a run leaves the end of the text ahead. -/
theorem ready_of_ties
    {p : Parser α}
    {a : α}
    (hTies :
      ∀ n, ParserRelation.sameOutcome.Ties n scopes p p)
    (hReady : s.Ready scopes)
    (hRun : p.outcome s = (.ok a, t)) :
    t.Ready scopes := by
  have hTied := hTies _ s hReady (Nat.lt_succ_self _)
  have hKept := hTied.kept
  rw [hRun] at hKept
  exact hKept.ready

------------------------------------------------------------
-- Nested expressions and blocks
------------------------------------------------------------

/- Nothing was read, or an expression that ends here. -/
def ReadsTo
    (s : ParserState)
    (r : Option Expr)
    (t : ParserState) :
    Prop :=
  match r with
  | none => t = s
  | some e => t.behindBrace = e.closesWithBrace

/-
  Behind nested expressions and blocks the last token is the
  one that their trees tell.
-/
structure Nested.EndsAsWritten
    (nested : Nested) :
    Prop where
  ties :
    ∀ n,
      ParserRelation.sameOutcome.NestedTies n nested nested
  expression :
    ∀ scopes power s r t,
      s.Ready scopes →
        (nested.expression power).outcome s = (.ok r, t) →
          ReadsTo s r t
  block :
    ∀ start s e t,
      (nested.block start).outcome s = (.ok e, t) →
        t.behindBrace = e.closesWithBrace

variable {nested : Nested}
variable {power : Power}
variable {e : Expr}
variable {token : Token}

theorem behindBrace_required
    (hNested : nested.EndsAsWritten)
    (hReady : s.Ready scopes)
    (hRun :
      (nested.required power).outcome s = (.ok e, t)) :
    t.behindBrace = e.closesWithBrace :=
  hNested.expression scopes power s (some e) t hReady
    (outcome_required_iff.mp hRun)

theorem ready_required
    (hNested : nested.EndsAsWritten)
    (hReady : s.Ready scopes)
    (hRun :
      (nested.required power).outcome s = (.ok e, t)) :
    t.Ready scopes :=
  ready_of_ties
    (fun n =>
      ParserRelation.ties_required (hNested.ties n) power)
    hReady hRun

theorem ready_expect
    {kind : TokenKind}
    {expected : String}
    (hKind : kind ≠ .eof)
    (hReady : s.Ready scopes)
    (hRun :
      (expect kind expected).outcome s = (.ok token, t)) :
    t.Ready scopes := by
  rcases outcome_expect_iff.mp hRun with ⟨rfl, -, rfl⟩
  exact hReady.next hKind

/- An expression behind a token, if the token is there. -/
theorem readsTo_behind
    {kind : TokenKind}
    {r : Option Expr}
    (hNested : nested.EndsAsWritten)
    (hKind : kind ≠ .eof)
    (hReady : s.Ready scopes)
    (hRun :
      (do
          if ← accept kind then
            return some (← nested.required .loosest)
          else
            return none : Parser (Option Expr)).outcome s =
        (.ok r, t)) :
    ReadsTo s r t := by
  rw [outcome_bind, outcome_accept] at hRun
  by_cases hIs : s.token.kind = kind
  · rw [if_pos hIs] at hRun
    rcases exists_of_outcome_bind hRun with
      ⟨e, u, hExpr, hPure⟩
    cases hPure
    exact behindBrace_required hNested
      (hReady.next (ne_of_eq_of_ne hIs hKind)) hExpr
  · rw [if_neg hIs] at hRun
    cases hRun
    rfl

------------------------------------------------------------
-- Expressions that a token begins
------------------------------------------------------------

theorem behindBrace_arguments
    {r : List Argument × Span}
    (hRun : (arguments nested).outcome s = (.ok r, t)) :
    t.behindBrace = false := by
  rcases exists_of_outcome_bind hRun with
    ⟨items, u, -, hRest⟩
  rcases exists_of_outcome_bind hRest with
    ⟨stop, v, hStop, hPure⟩
  cases hPure
  exact behindBrace_of_expect (by decide) hStop

theorem behindBrace_reference
    (hNone : s.behindBrace = false)
    (hRun :
      (reference nested token).outcome s = (.ok e, t)) :
    t.behindBrace = e.closesWithBrace := by
  unfold reference at hRun
  rw [outcome_bind, outcome_accept] at hRun
  by_cases hIs : s.token.kind = .openParen
  · rw [if_pos hIs] at hRun
    rcases exists_of_outcome_bind hRun with
      ⟨r, u, hArguments, hPure⟩
    cases hPure
    exact behindBrace_arguments hArguments
  · rw [if_neg hIs] at hRun
    cases hRun
    exact hNone

theorem behindBrace_conditional
    (hNested : nested.EndsAsWritten)
    (hReady : s.Ready scopes)
    (hRun :
      (conditional nested token).outcome s = (.ok e, t)) :
    t.behindBrace = e.closesWithBrace := by
  rcases exists_of_outcome_bind hRun with
    ⟨opening, u₁, hOpen, hRest₁⟩
  rcases exists_of_outcome_bind hRest₁ with
    ⟨condition, u₂, hCondition, hRest₂⟩
  rcases exists_of_outcome_bind hRest₂ with
    ⟨closing, u₃, hClose, hRest₃⟩
  rcases exists_of_outcome_bind hRest₃ with
    ⟨thenBranch, u₄, hThen, hRest₄⟩
  rcases exists_of_outcome_bind hRest₄ with
    ⟨otherwise, u₅, hElse, hPure⟩
  cases hPure
  have hInside : u₃.Ready scopes :=
    ready_expect (by decide)
      (ready_required hNested
        (ready_expect (by decide) hReady hOpen) hCondition)
      hClose
  have hReads : ReadsTo u₄ otherwise t :=
    readsTo_behind hNested (by decide)
      (ready_required hNested hInside hThen) hElse
  cases otherwise with
  | some e => exact hReads
  | none =>
      have hLast :=
        behindBrace_required hNested hInside hThen
      rw [show t = u₄ from hReads]
      exact hLast

/- A body that is there is the last part of a function. -/
theorem behindBrace_functionBody
    {body : Expr}
    (hNested : nested.EndsAsWritten)
    (hReady : s.Ready scopes)
    (hRun :
      (functionBody nested).outcome s =
        (.ok (some body), t)) :
    t.behindBrace = body.closesWithBrace := by
  rcases exists_of_outcome_bind hRun with
    ⟨value, u, hValue, hRest⟩
  have hReads : ReadsTo s value u :=
    readsTo_behind hNested (by decide) hReady hValue
  cases value with
  | some e =>
      cases hRest
      exact hReads
  | none =>
      dsimp only at hRest
      rw [outcome_bind, outcome_check] at hRest
      by_cases hIs : u.token.kind = .openCurly
      · rw [decide_eq_true hIs] at hRest
        rcases exists_of_outcome_bind hRest with
          ⟨start, v, -, hBlock⟩
        rcases exists_of_outcome_bind hBlock with
          ⟨e, w, hBlock, hPure⟩
        cases hPure
        exact hNested.block _ _ _ _ hBlock
      · rw [decide_eq_false hIs] at hRest
        cases hRest

theorem behindBrace_functionLiteral
    (hNested : nested.EndsAsWritten)
    (hReady : s.Ready scopes)
    (hRun :
      (functionLiteral nested token).outcome s =
        (.ok e, t)) :
    t.behindBrace = e.closesWithBrace := by
  unfold functionLiteral at hRun
  rw [outcome_bind, outcome_checkName] at hRun
  dsimp only at hRun
  split at hRun
  · rcases exists_of_outcome_bind hRun with
      ⟨p, u, -, hFail⟩
    cases hFail
  · rcases exists_of_outcome_inNewScope hRun with
      ⟨u, hInside, rfl⟩
    rcases exists_of_outcome_bind hInside with
      ⟨r, v, hSignature, hRest⟩
    have hBefore : v.Ready (s.newScope :: scopes) :=
      ready_of_ties
        (fun n => ParserRelation.ties_signature
          (hNested.ties n))
        hReady.opened hSignature
    rcases exists_of_outcome_bind hRest with
      ⟨body, w, hBody, hEnd⟩
    cases body with
    | none =>
        rcases exists_of_outcome_bind hEnd with
          ⟨p, x, -, hFail⟩
        cases hFail
    | some body =>
        have hLast :=
          behindBrace_functionBody hNested hBefore hBody
        cases hEnd
        exact hLast

theorem behindBrace_lambda
    (hNested : nested.EndsAsWritten)
    (hReady : s.Ready scopes)
    (hRun :
      (lambda nested token).outcome s = (.ok e, t)) :
    t.behindBrace = e.closesWithBrace := by
  rcases exists_of_outcome_inNewScope hRun with
    ⟨u, hInside, rfl⟩
  rcases exists_of_outcome_bind hInside with
    ⟨parameters, v, hParameters, hRest⟩
  have hBefore : v.Ready (s.newScope :: scopes) :=
    ready_of_ties
      (fun n => ParserRelation.ties_separated (by decide) _
        ParserRelation.ties_lambdaParameter)
      hReady.opened hParameters
  rcases exists_of_outcome_bind hRest with
    ⟨bar, w, hBar, hRest⟩
  rcases exists_of_outcome_bind hRest with
    ⟨body, x, hBody, hPure⟩
  have hLast :=
    behindBrace_required hNested
      (ready_expect (by decide) hBefore hBar) hBody
  cases hPure
  exact hLast

/-
  An expression ends as it is written, whatever token begins
  it.
-/
theorem behindBrace_starter
    {starter : Starter}
    (hNested : nested.EndsAsWritten)
    (hReady : s.Ready scopes)
    (hStart : s.token.kind.starter? = some starter)
    (hRun :
      (starter.parser nested s.token).outcome s.next =
        (.ok e, t)) :
    t.behindBrace = e.closesWithBrace := by
  have hBehind : s.next.Ready scopes :=
    hReady.next (ne_eof_of_starter hStart)
  have hNone : s.next.behindBrace = false :=
    behindBrace_of_starter hStart
  cases starter with
  | int =>
      change (intLiteral s.token).outcome s.next = _ at hRun
      unfold intLiteral at hRun
      split at hRun
      · rename_i form hForm
        cases hRun
        exact hNone.trans
          (closesWithBrace_of_intForm? hForm).symm
      · cases hRun
  | boolean =>
      cases hRun
      exact hNone
  | string =>
      rcases exists_of_outcome_bind hRun with
        ⟨parts, u, -, hRest⟩
      rcases exists_of_outcome_bind hRest with
        ⟨stop, v, hStop, hPure⟩
      cases hPure
      exact (behindBrace_of_expect (by decide) hStop).trans
        (closesWithBrace_stringForm parts).symm
  | reference => exact behindBrace_reference hNone hRun
  | unary =>
      rcases exists_of_outcome_bind hRun with
        ⟨operand, u, hOperand, hPure⟩
      have hLast :=
        behindBrace_required hNested hBehind hOperand
      cases hPure
      exact hLast
  | grouping =>
      rcases exists_of_outcome_bind hRun with
        ⟨inner, u, -, hRest⟩
      rcases exists_of_outcome_bind hRest with
        ⟨stop, v, hStop, hPure⟩
      cases hPure
      exact behindBrace_of_expect (by decide) hStop
  | block => exact hNested.block _ _ e t hRun
  | conditional =>
      exact behindBrace_conditional hNested hBehind hRun
  | function =>
      exact behindBrace_functionLiteral hNested hBehind hRun
  | lambda => exact behindBrace_lambda hNested hBehind hRun
  | ret =>
      rcases exists_of_outcome_bind hRun with
        ⟨value, u, hValue, hPure⟩
      cases hPure
      have hReads : ReadsTo s.next value t :=
        hNested.expression scopes .loosest s.next value t
          hBehind hValue
      cases value with
      | some e => exact hReads
      | none =>
          -- The token that starts no value was given back.
          rw [show t = s.next from hReads]
          exact hNone

------------------------------------------------------------
-- Extensions
------------------------------------------------------------

/- So does what an operator makes of it. -/
theorem behindBrace_extender
    {extender : Extender}
    {left : Expr}
    (hNested : nested.EndsAsWritten)
    (hReady : s.Ready scopes)
    (hRun :
      (extender.parser nested left token power).outcome s =
        (.ok e, t)) :
    t.behindBrace = e.closesWithBrace := by
  cases extender with
  | binary =>
      change (binary nested left token power).outcome s = _
        at hRun
      unfold binary at hRun
      split at hRun
      · cases hRun
      · rcases exists_of_outcome_bind hRun with
          ⟨right, u, hRight, hPure⟩
        have hLast :=
          behindBrace_required hNested hReady hRight
        cases hPure
        exact hLast
  | assignment =>
      change
        (assignment nested left token power).outcome s = _
        at hRun
      unfold assignment at hRun
      split at hRun
      · cases hRun
      · rcases exists_of_outcome_bind hRun with
          ⟨value, u, hValue, hPure⟩
        have hLast :=
          behindBrace_required hNested hReady hValue
        cases hPure
        exact hLast
  | member =>
      change
        (memberAccess nested left token power).outcome s = _
        at hRun
      unfold memberAccess at hRun
      rw [outcome_bind, outcome_checkName] at hRun
      dsimp only at hRun
      split at hRun
      · rcases exists_of_outcome_bind hRun with
          ⟨right, u, hRight, hRest⟩
        split at hRest
        · rename_i hIs
          cases hRest
          have hLast :=
            behindBrace_required hNested hReady hRight
          have hNone :=
            closesWithBrace_of_isReferenceOrInvocation hIs
          exact hLast.trans hNone
        · cases hRest
      · cases hRun
  | call =>
      rcases exists_of_outcome_bind hRun with
        ⟨r, u, hArguments, hPure⟩
      cases hPure
      exact behindBrace_arguments hArguments

/- An expression is left as it is, or extended. -/
theorem readsTo_extend
    {left : Expr}
    {r : Option Expr}
    (hNested : nested.EndsAsWritten)
    (hReady : s.Ready scopes)
    (hRun :
      (extend nested power left).outcome s = (.ok r, t)) :
    ReadsTo s r t := by
  unfold extend at hRun
  rw [outcome_bind, outcome_current] at hRun
  dsimp only at hRun
  split at hRun
  · cases hRun
    rfl
  · rename_i extender q hOperator
    split at hRun
    · rw [outcome_bind, outcome_consume] at hRun
      rcases exists_of_outcome_bind hRun with
        ⟨f, u, hExtended, hPure⟩
      cases hPure
      have hMore := ne_eof_of_extender hOperator
      exact behindBrace_extender hNested (hReady.next hMore)
        hExtended
    · cases hRun
      rfl

/- The induction is on the tokens that bound the loop. -/
theorem behindBrace_loopWithin
    (hNested : nested.EndsAsWritten) :
    ∀ (budget : List Token)
      {first : Expr}
      {s : ParserState},
      s.Ready scopes →
        s.behindBrace = first.closesWithBrace →
          (loopWithin (extend nested power) budget
              first).outcome s = (.ok e, t) →
            t.behindBrace = e.closesWithBrace
  | [], first, s, hReady, hFirst, hRun => by
      rcases exists_of_outcome_bind hRun with
        ⟨r, u, hStep, hPure⟩
      have hReads := readsTo_extend hNested hReady hStep
      cases hPure
      cases r with
      | some f => exact hReads
      | none =>
          rw [show t = s from hReads]
          exact hFirst
  | _ :: budget, first, s, hReady, hFirst, hRun => by
      rcases exists_of_outcome_bind hRun with
        ⟨r, u, hStep, hRest⟩
      have hReads := readsTo_extend hNested hReady hStep
      cases r with
      | some f =>
          have hBehind : u.Ready scopes :=
            ready_of_ties
              (fun n =>
                (ParserRelation.tiesStep_extend
                  (hNested.ties n) power first).ties)
              hReady hStep
          exact behindBrace_loopWithin hNested budget
            hBehind hReads hRest
      | none =>
          cases hRest
          rw [show t = s from hReads]
          exact hFirst

------------------------------------------------------------
-- All depths of nesting
------------------------------------------------------------

/- A token that starts nothing is given back. -/
theorem readsTo_expression
    {r : Option Expr}
    (hNested : nested.EndsAsWritten)
    (hReady : s.Ready scopes)
    (hRun :
      (expression nested power).outcome s = (.ok r, t)) :
    ReadsTo s r t := by
  unfold expression at hRun
  rw [outcome_bind, outcome_consume] at hRun
  dsimp only at hRun
  split at hRun
  · rw [outcome_bind,
      outcome_unconsume_next hReady.ahead_ne] at hRun
    cases hRun
    rfl
  · rename_i starter hStart
    rcases exists_of_outcome_bind hRun with
      ⟨first, u, hFirst, hRest⟩
    rcases exists_of_outcome_bind hRest with
      ⟨e, v, hLoop, hPure⟩
    cases hPure
    have hBehind : u.Ready scopes :=
      ready_of_ties
        (fun n =>
          ParserRelation.ties_starter
            (hNested.ties (n + 1)) starter s.token)
        (hReady.next (ne_eof_of_starter hStart)) hFirst
    have hEnds :=
      behindBrace_starter hNested hReady hStart hFirst
    unfold loop at hLoop
    rw [outcome_bind, outcome_get] at hLoop
    exact behindBrace_loopWithin hNested _ hBehind hEnds
      hLoop

theorem behindBrace_block
    {start : Token}
    (hRun : (block nested start).outcome s = (.ok e, t)) :
    t.behindBrace = e.closesWithBrace := by
  rcases exists_of_outcome_inNewScope hRun with
    ⟨u, hInside, rfl⟩
  rcases exists_of_outcome_bind hInside with
    ⟨statements, v, -, hRest⟩
  rcases exists_of_outcome_bind hRest with
    ⟨stop, w, hStop, hPure⟩
  cases hPure
  exact behindBrace_of_expect (by decide) hStop

theorem endsAsWritten_nestedWithin :
    ∀ depth, (nestedWithin depth).EndsAsWritten
  | 0 =>
      { ties := ParserRelation.nestedTies_nestedWithin 0
        expression := by
          rintro _ _ s _ _ _ ⟨⟩
          rfl
        block := fun _ _ _ _ hRun =>
          absurd hRun
            ParserRelation.outcome_missingExpression }
  | depth + 1 =>
      have hNested := endsAsWritten_nestedWithin depth
      { ties :=
          ParserRelation.nestedTies_nestedWithin (depth + 1)
        expression := fun _ _ _ _ _ hReady hRun =>
          readsTo_expression hNested hReady hRun
        block := fun _ _ _ _ hRun =>
          behindBrace_block hRun }

------------------------------------------------------------
-- Statements
------------------------------------------------------------

/- In a text, the end is ahead until it is passed. -/
theorem ready_of_tokens
    {source file : String}
    (hSource :
      s.stream.tokens = tokenize source (some file))
    (hAhead : s.stream.ahead ≠ []) :
    s.Ready s.scopes := by
  refine ⟨?_, rfl⟩
  rcases (tokensInOrder_tokenize source (some file)).ends
    with ⟨front, last, hTokens, hLast, -⟩
  refine ⟨s.stream.ahead.dropLast,
    s.stream.ahead.getLast hAhead,
    (List.dropLast_append_getLast hAhead).symm, ?_⟩
  rw [hTokens] at hSource
  have hEnds := congrArg List.getLast? hSource
  unfold TokenStream.tokens at hEnds
  rw [List.getLast?_append_of_ne_nil _ hAhead,
    List.getLast?_concat,
    List.getLast?_eq_some_getLast hAhead] at hEnds
  rw [Option.some.inj hEnds]
  exact hLast

/- Where an expression can not end, the statement fails. -/
theorem outcome_unendedStatement
    (hExpr :
      (nested.expression .loosest).outcome s =
        (.ok (some e), t))
    (hNone : t.token.kind ≠ .semicolon)
    (hBlock : ¬ e.endsWithBlock)
    (hClose : t.token.kind ≠ .closeCurly) :
    (expressionStatement nested).outcome s =
      (.error (unexpectedToken t.token "';'"), t) := by
  unfold expressionStatement
  rw [outcome_bind, outcome_required hExpr]
  dsimp only
  rw [outcome_bind, outcome_accept, if_neg hNone]
  dsimp only
  rw [if_neg Bool.false_ne_true, if_neg hBlock,
    outcome_bind, outcome_check, decide_eq_false hClose]
  rfl

/-
  Where a semicolon is needed.

  From every state in a text, an expression that is read
  ends with a closing brace exactly if its tree closes with
  one.
  It may stand without a semicolon if moreover its last
  branch or body is no operation.  A statement is read
  without a semicolon behind such an expression and before a
  closing brace, and nowhere else.
-/
theorem semicolon_needed
    {source file : String}
    {s : ParserState}
    (hSource :
      s.stream.tokens = tokenize source (some file))
    (hAhead : s.stream.ahead ≠ [])
    (depth : Nat) :
    (∀ power e t,
        ((nestedWithin depth).expression power).outcome s =
            (.ok (some e), t) →
          t.left < s.left ∧
            (t.stream.previous.kind = .closeCurly ↔
              e.closesWithBrace = true) ∧
              (e.endsWithBlock = true ↔
                t.stream.previous.kind = .closeCurly ∧
                  e.endsInOperation = false)) ∧
      ∀ e t,
        ((nestedWithin depth).expression .loosest).outcome
            s =
            (.ok (some e), t) →
          (expressionStatement (nestedWithin depth)).outcome
              s =
            if t.token.kind = .semicolon then
              (.ok (.expression e), t.next)
            else if
              t.token.kind = .closeCurly ∨
                t.stream.previous.kind = .closeCurly ∧
                  e.endsInOperation = false
            then
              (.ok (.expression e), t)
            else
              (.error (unexpectedToken t.token "';'"),
                t) := by
  have hReady := ready_of_tokens hSource hAhead
  have hNested := endsAsWritten_nestedWithin depth
  have hBrace {power e t}
      (hRun :
        ((nestedWithin depth).expression power).outcome s =
          (.ok (some e), t)) :
      t.stream.previous.kind = .closeCurly ↔
        e.closesWithBrace = true := by
    have hEnds : t.behindBrace = e.closesWithBrace :=
      hNested.expression _ power s (some e) t hReady hRun
    rw [← hEnds]
    exact behindBrace_iff.symm
  have hBlock {power e t}
      (hRun :
        ((nestedWithin depth).expression power).outcome s =
          (.ok (some e), t)) :
      e.endsWithBlock = true ↔
        t.stream.previous.kind = .closeCurly ∧
          e.endsInOperation = false := by
    rw [hBrace hRun, e.endsWithBlock_eq, Bool.and_eq_true,
      Bool.not_eq_true']
  constructor
  · intro power e t hRun
    have hStep :=
      (hNested.ties _).expression _ power s hReady
        (Nat.lt_succ_self _)
    exact ⟨hStep.left_lt hRun, hBrace hRun, hBlock hRun⟩
  · intro e t hRun
    split
    · rename_i hStop
      exact outcome_endedStatement hRun hStop
    · rename_i hNone
      split
      · rename_i hEnds
        refine outcome_openStatement hRun hNone ?_
        rcases hEnds with hClose | hEnds
        · exact .inr hClose
        · exact .inl ((hBlock hRun).mpr hEnds)
      · rename_i hOpen
        refine outcome_unendedStatement hRun hNone ?_ ?_
        · exact fun hEnds =>
            hOpen (.inr ((hBlock hRun).mp hEnds))
        · exact fun hClose => hOpen (.inl hClose)

/- What was read is known by the way it ends. -/
theorem exists_of_map_endsWithBlock
    {x : Except Diagnostic (Option Expr) × ParserState}
    {b : Bool}
    (hRead :
      x.1.map (Option.map Expr.endsWithBlock) =
        .ok (some b)) :
    ∃ e, x = (.ok (some e), x.2) ∧ e.endsWithBlock = b := by
  rcases x with ⟨r, t⟩
  cases r with
  | error d => cases hRead
  | ok r =>
      cases r with
      | none => cases hRead
      | some e =>
          exact ⟨e, rfl,
            Option.some.inj (Except.ok.inj hRead)⟩

/- An expression follows the block of a conditional. -/
def choiceBlock : ParserState :=
  .initial "if (x) { 2 } y" "main"

/- No semicolon is needed. -/
theorem semicolon_needed_conditional :
    ∃ e t,
      ((nestedWithin 20).expression .loosest).outcome
            choiceBlock =
          (.ok (some e), t) ∧
        t.stream.previous.kind = .closeCurly ∧
          (expressionStatement (nestedWithin 20)).outcome
              choiceBlock =
            (.ok (.expression e), t) := by
  have hRead :
      (((nestedWithin 20).expression .loosest).outcome
          choiceBlock).1.map
            (Option.map Expr.endsWithBlock) =
        .ok (some true) := by
    cbv
  have hBehind :
      (((nestedWithin 20).expression .loosest).outcome
          choiceBlock).2.token.kind =
        .identifier := by
    cbv
  have hNeeded :=
    semicolon_needed
      (tokens_initial "if (x) { 2 } y" "main")
      (ready_initial "if (x) { 2 } y" "main").ahead_ne 20
  rcases exists_of_map_endsWithBlock hRead with
    ⟨e, hRun, hBlock⟩
  have hEnds := ((hNeeded.1 _ e _ hRun).2.2).mp hBlock
  have hStatement := hNeeded.2 e _ hRun
  rw [if_neg (by rw [hBehind]; decide),
    if_pos (.inr hEnds)] at hStatement
  exact ⟨e, _, hRun, hEnds.1, hStatement⟩

/- An expression follows a block that is assigned. -/
def assignedBlock : ParserState :=
  .initial "x = { 2 } y" "main"

/-
  Behind the brace of the block that is assigned a semicolon
  is asked for.
-/
theorem endsWithBlock_false_assigned :
    ∃ e t,
      ((nestedWithin 20).expression .loosest).outcome
            assignedBlock =
          (.ok (some e), t) ∧
        t.stream.previous.kind = .closeCurly ∧
          e.endsWithBlock = false ∧
            (expressionStatement (nestedWithin 20)).outcome
                assignedBlock =
              (.error (unexpectedToken t.token "';'"),
                t) := by
  have hRead :
      (((nestedWithin 20).expression .loosest).outcome
          assignedBlock).1.map
            (Option.map Expr.endsWithBlock) =
        .ok (some false) := by
    cbv
  have hLast :
      (((nestedWithin 20).expression .loosest).outcome
          assignedBlock).2.stream.previous.kind =
        .closeCurly := by
    cbv
  have hBehind :
      (((nestedWithin 20).expression .loosest).outcome
          assignedBlock).2.token.kind =
        .identifier := by
    cbv
  rcases exists_of_map_endsWithBlock hRead with
    ⟨e, hRun, hBlock⟩
  refine ⟨e, _, hRun, hLast, hBlock, ?_⟩
  refine outcome_unendedStatement hRun ?_ ?_ ?_
  · rw [hBehind]
    decide
  · rw [hBlock]
    decide
  · rw [hBehind]
    decide

end SourceCheck
