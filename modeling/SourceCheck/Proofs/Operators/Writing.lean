import SourceCheck.Proofs.Operators.Canonical

/-
  What is read as an operation is canonical.

  An operation that has a derivation is canonical, and the
  tokens of the derivation are one of the ways to write it.
  Its left edge is tighter than the power at which it was
  read, and the token behind it extends no part of it; these
  two facts carry the induction.

  Key definitions include:
    * `WrittenBetween`
    * `Phrase.Written`

  Key theorems include:
    * `Derives.written`
-/

namespace SourceCheck

open SourceCheck.ParserState
open SourceCheck.Parser

------------------------------------------------------------
-- Starters
------------------------------------------------------------

/- What starts an expression says what its token is. -/
theorem starter?_eq_some
    {kind : TokenKind}
    {starter : Starter}
    (hStart : kind.starter? = some starter) :
    match starter with
    | .int => kind = .intLiteral
    | .boolean => kind = booleanKind (kind = .kwTrue)
    | .reference => kind.isName
    | .unary =>
        kind =
          (if kind = .kwNot then UnaryOperator.not
            else .negate).kind
    | .grouping => kind = .openParen
    | _ => True := by
  cases kind <;> cases hStart <;> first | rfl | trivial

/- Literals of integers stand for numbers only. -/
theorem form_of_intForm?
    {text : String}
    {form : ExprForm}
    (hForm : intForm? text = some form)
    (hOperation : form.isOperation = true) :
    ∃ n, form = .int n := by
  unfold intForm? at hForm
  dsimp only at hForm
  split at hForm
  · rcases Option.map_eq_some_iff.1 hForm with ⟨n, -, rfl⟩
    cases hOperation
  · rcases Option.map_eq_some_iff.1 hForm with ⟨n, -, rfl⟩
    exact ⟨n, rfl⟩

/-
  Operands are read at the powers of operators and of
  accesses, and no others.
-/
def Power.Nests (p : Power) : Prop :=
  p ≠ .call ∧ p ≠ .primary

theorem Power.Nests.rank_lt
    {p : Power}
    (hNests : p.Nests) :
    p.rank < Power.primary.rank := by
  rcases hNests with ⟨-, hOther⟩
  cases p with
  | primary => exact absurd rfl hOther
  | _ => decide

/- What is looser than accesses is looser than calls. -/
theorem Power.Nests.rank_lt_call
    {p : Power}
    (hNests : p.Nests)
    (hLess : p < .member) :
    p.rank < Power.call.rank := by
  rcases hNests with ⟨hOther, -⟩
  cases p with
  | call => exact absurd rfl hOther
  | member => exact absurd hLess (by decide)
  | primary => exact absurd hLess (by decide)
  | _ => decide

theorem BinaryOperator.nests_power (o : BinaryOperator) :
    o.power.Nests := by
  cases o <;> exact ⟨by decide, by decide⟩

------------------------------------------------------------
-- Written operations
------------------------------------------------------------

/-
  The expression is canonical and written with the tokens
  between two states.  It may stand where operators of the
  power are read, and what follows it goes on with no part
  of it.
-/
structure WrittenBetween
    (p : Power)
    (s : ParserState)
    (e : Expr)
    (t : ParserState) :
    Prop where
  isCanonical : e.isCanonical = true
  opens : p.rank < e.form.opens.rank
  stopsAt : e.form.StopsAt t.token.kind
  tokens :
    ∃ ts,
      s.stream.ahead = ts ++ t.stream.ahead ∧
        e.WrittenAs ts

/- The arguments are canonical and written likewise. -/
structure ArgumentsWrittenBetween
    (W : List Argument → List Token → Prop)
    (s : ParserState)
    (xs : List Argument)
    (t : ParserState) :
    Prop where
  isCanonical : areCanonical xs = true
  tokens :
    ∃ ts,
      s.stream.ahead = ts ++ t.stream.ahead ∧ W xs ts

/- The argument is canonical and written likewise. -/
structure ArgumentWrittenBetween
    (s : ParserState)
    (x : Argument)
    (t : ParserState) :
    Prop where
  isPlain : (x.name.isSome || !x.value.form.isNaming) = true
  isCanonical : x.value.isCanonical = true
  tokens :
    ∃ ts,
      s.stream.ahead = ts ++ t.stream.ahead ∧
        x.WrittenAs ts

variable {s t u v : ParserState}
variable {p q : Power}

/- Something in parentheses ends with the second one. -/
theorem ahead_closed
    {opening : Token}
    {ts : List Token}
    (hOpen : s.stream.ahead = opening :: t.stream.ahead)
    (hTokens : t.stream.ahead = ts ++ u.stream.ahead)
    (hClose : u.token.kind = .closeParen) :
    s.stream.ahead =
      opening :: (ts ++ [u.token]) ++
        u.next.stream.ahead := by
  have hLast := ahead_eq (s := u) (by rw [hClose]; decide)
  rw [hOpen, hTokens, hLast]
  simp

/- A literal or a name is written with its token. -/
theorem writtenBetween_token
    {form : ExprForm}
    {span : Span}
    (hNests : p.Nests)
    (hMore : s.token.kind ≠ .eof)
    (hCanonical : form.isCanonical = true)
    (hOpens : form.opens = .primary)
    (hStops : form.StopsAt s.next.token.kind)
    (hWritten : form.WrittenAs [s.token]) :
    WrittenBetween p s (.new form span) s.next where
  isCanonical := hCanonical
  opens := by
    rw [Expr.new, hOpens]
    exact hNests.rank_lt
  stopsAt := hStops
  tokens := ⟨[s.token], ahead_eq hMore, .intro hWritten⟩

/- Nothing goes on behind a form that is closed. -/
theorem stopsAt_closed
    {f : ExprForm}
    (hCloses : f.closes = .primary)
    (hClosed : f.endsWithName = false)
    (kind : TokenKind) :
    f.StopsAt kind where
  endsAbove := by
    rw [hCloses]
    exact kind.endsAbove_of_member_le (by decide)
  notCalled hName := by
    rw [hClosed] at hName
    cases hName

/- A token above which nothing goes on calls nothing. -/
theorem stopsAt_open
    {f : ExprForm}
    {kind : TokenKind}
    (hCloses : f.closes = q)
    (hLoose : q.rank < Power.call.rank)
    (hEnds : kind.EndsAbove q) :
    f.StopsAt kind where
  endsAbove := by
    rw [hCloses]
    exact hEnds
  notCalled _ := by
    rintro rfl
    exact hEnds .call .call rfl hLoose

theorem writtenBetween_invocation
    {arguments : List Argument}
    {span : Span}
    (hNests : p.Nests)
    (hName : s.token.kind.isName)
    (hOpen : s.next.token.kind = .openParen)
    (hArguments :
      ArgumentsWrittenBetween ArgumentsWrittenAs
        s.next.next arguments t)
    (hClose : t.token.kind = .closeParen) :
    WrittenBetween p s
      (.invocation s.token.name arguments span) t.next := by
  rcases hArguments with ⟨hCanonical, ts, hTokens, hWritten⟩
  have hFirst := ahead_eq (ne_eof_of_isName hName)
  have hSecond :=
    ahead_closed (ahead_eq (by rw [hOpen]; decide)) hTokens
      hClose
  exact
    { isCanonical := hCanonical
      opens := hNests.rank_lt
      stopsAt := stopsAt_closed rfl rfl _
      tokens :=
        ⟨_, by rw [hFirst, hSecond]; rfl,
          .intro (.invocation hName hOpen hWritten
            hClose)⟩ }

theorem writtenBetween_unary
    {operand : Expr}
    {o : UnaryOperator}
    {span : Span}
    (hNests : p.Nests)
    (hKind : s.token.kind = o.kind)
    (hOperand : WrittenBetween .unary s.next operand t)
    (hEnds : t.token.kind.EndsAbove .unary) :
    WrittenBetween p s (.new (.unary o operand) span) t := by
  rcases hOperand with
    ⟨hCanonical, hOpens, -, ts, hTokens, hWritten⟩
  have hLevel := ExprForm.unary_le_level_of_lt_opens hOpens
  have hFirst :=
    ahead_eq (s := s) (by rw [hKind]; cases o <;> decide)
  exact
    { isCanonical :=
        (ExprForm.isCanonical_unary_iff o).2
          ⟨hLevel, hCanonical⟩
      opens := hNests.rank_lt
      stopsAt :=
        stopsAt_open (q := .unary) rfl (by decide) hEnds
      tokens :=
        ⟨s.token :: ts, by rw [hFirst, hTokens]; rfl,
          .intro (.unary hKind hWritten)⟩ }

theorem writtenBetween_parenthesized
    {inner : Expr}
    {span : Span}
    (hNests : p.Nests)
    (hOpen : s.token.kind = .openParen)
    (hInner : WrittenBetween .loosest s.next inner t)
    (hClose : t.token.kind = .closeParen) :
    WrittenBetween p s (.new (.parenthesized inner) span)
      t.next := by
  rcases hInner with
    ⟨hCanonical, -, -, ts, hTokens, hWritten⟩
  have hFirst :=
    ahead_closed (ahead_eq (by rw [hOpen]; decide)) hTokens
      hClose
  exact
    { isCanonical := hCanonical
      opens := hNests.rank_lt
      stopsAt := stopsAt_closed rfl rfl _
      tokens :=
        ⟨_, hFirst,
          .intro (.parenthesized hOpen hWritten hClose)⟩ }

/-
  What extends an expression is no tighter than its right
  edge, for otherwise it would have extended that.
-/
theorem WrittenBetween.le_closes
    {left : Expr}
    {extender : Extender}
    (hLeft : WrittenBetween p s left t)
    (hOperator :
      t.token.kind.extender? = some (extender, q)) :
    q.rank ≤ left.form.closes.rank :=
  Nat.le_of_not_lt
    (hLeft.stopsAt.endsAbove extender q hOperator)

theorem writtenBetween_binary
    {left right : Expr}
    {o : BinaryOperator}
    {span : Span}
    (hTight : p < o.power)
    (hLeft : WrittenBetween p s left t)
    (hOperator : t.token.kind.binaryOperator? = some o)
    (hRight : WrittenBetween o.power t.next right u)
    (hEnds : u.token.kind.EndsAbove o.power) :
    WrittenBetween p s (.new (.binary left o right) span)
      u := by
  have hExtender := extender?_of_binaryOperator? hOperator
  have hBounds := o.rank_power
  have hLevel :=
    ExprForm.le_level_of_le_closes
      (Nat.le_of_lt (Nat.lt_trans hBounds.2 (by decide)))
      (hLeft.le_closes hExtender)
  have hOther :=
    ExprForm.lt_level_of_lt_opens hBounds.2 hRight.opens
  rcases hLeft with
    ⟨hFirst, -, -, us, hTokens, hWritten⟩
  rcases hRight with
    ⟨hSecond, -, -, vs, hTokens', hWritten'⟩
  have hMiddle := ahead_eq (ne_eof_of_extender hExtender)
  exact
    { isCanonical :=
        (ExprForm.isCanonical_binary_iff o).2
          ⟨⟨⟨hLevel, hOther⟩, hFirst⟩, hSecond⟩
      opens := hTight
      stopsAt :=
        stopsAt_open rfl
          (Nat.lt_trans hBounds.2 (by decide)) hEnds
      tokens :=
        ⟨us ++ t.token :: vs,
          by rw [hTokens, hMiddle, hTokens']; simp,
          .intro (.binary hWritten hOperator hWritten')⟩ }

theorem writtenBetween_assignment
    {target value : Expr}
    {o : AssignmentOperator}
    {span : Span}
    (hTight : p < .assignment)
    (hTarget : WrittenBetween p s target t)
    (hOperator : t.token.kind.assignmentOperator? = some o)
    (hValue : WrittenBetween .loosest t.next value u)
    (hEnds : u.token.kind.EndsAbove .loosest) :
    WrittenBetween p s
      (.new (.assignment target o value) span) u := by
  have hExtender := extender?_of_assignmentOperator? hOperator
  have hLe := hTarget.le_closes hExtender
  have hLevel : target.level ≠ .assignment := by
    intro hLevel
    have hCloses : target.form.closes = .loosest := by
      unfold Expr.level at hLevel
      generalize target.form = f at hLevel
      cases f with
      | assignment => rfl
      | binary left o right =>
          have hBounds := o.rank_power
          simp only [ExprForm.level] at hLevel
          rw [hLevel] at hBounds
          exact absurd hBounds.1 (Nat.lt_irrefl _)
      | _ => cases hLevel
    rw [hCloses] at hLe
    exact absurd hLe (by decide)
  rcases hTarget with
    ⟨hFirst, -, -, us, hTokens, hWritten⟩
  rcases hValue with
    ⟨hSecond, -, -, vs, hTokens', hWritten'⟩
  have hMiddle := ahead_eq (ne_eof_of_extender hExtender)
  exact
    { isCanonical :=
        (ExprForm.isCanonical_assignment_iff o).2
          ⟨⟨hLevel, hFirst⟩, hSecond⟩
      opens := hTight
      stopsAt :=
        stopsAt_open (q := .loosest) rfl (by decide) hEnds
      tokens :=
        ⟨us ++ t.token :: vs,
          by rw [hTokens, hMiddle, hTokens']; simp,
          .intro (.assignment hWritten hOperator
            hWritten')⟩ }

theorem writtenBetween_access
    {left right : Expr}
    {safe : Bool}
    {span : Span}
    (hNests : p.Nests)
    (hTight : p < .member)
    (hLeft : WrittenBetween p s left t)
    (hKind : t.token.kind = accessKind safe)
    (hRight : WrittenBetween .member t.next right u)
    (hIs : right.isReferenceOrInvocation) :
    WrittenBetween p s (.new (.access left safe right) span)
      u := by
  have hExtender :
      t.token.kind.extender? = some (.member, .member) := by
    rw [hKind]
    cases safe <;> rfl
  have hLe := hLeft.le_closes hExtender
  have hLevel :=
    ExprForm.le_level_of_le_closes (Nat.le_refl _)
      (Nat.le_of_succ_le hLe)
  have hStops := hRight.stopsAt
  rcases hLeft with
    ⟨hFirst, -, -, us, hTokens, hWritten⟩
  rcases hRight with
    ⟨hSecond, -, -, vs, hTokens', hWritten'⟩
  have hMiddle := ahead_eq (ne_eof_of_extender hExtender)
  have hTightest : u.token.kind.EndsAbove .primary :=
    u.token.kind.endsAbove_of_member_le (by decide)
  exact
    { isCanonical :=
        (ExprForm.isCanonical_access_iff safe).2
          ⟨⟨⟨hLevel, hIs⟩, hFirst⟩, hSecond⟩
      opens := hNests.rank_lt_call hTight
      stopsAt :=
        { endsAbove := hTightest
          notCalled := by
            intro hName
            apply hStops.notCalled
            have hReference :
                right.form.isReference = true :=
              hName
            generalize right.form = f at hReference
            cases f with
            | reference => rfl
            | _ => cases hReference }
      tokens :=
        ⟨us ++ t.token :: vs,
          by rw [hTokens, hMiddle, hTokens']; simp,
          .intro (.access hWritten hKind hWritten')⟩ }

theorem writtenBetween_call
    {callee : Expr}
    {arguments : List Argument}
    {span : Span}
    (hTight : p < .call)
    (hCallee : WrittenBetween p s callee t)
    (hOpen : t.token.kind = .openParen)
    (hArguments :
      ArgumentsWrittenBetween ArgumentsWrittenAs
        t.next arguments u)
    (hClose : u.token.kind = .closeParen) :
    WrittenBetween p s (.new (.call callee arguments) span)
      u.next := by
  have hExtender :
      t.token.kind.extender? = some (.call, .call) := by
    rw [hOpen]
    rfl
  have hLe := hCallee.le_closes hExtender
  have hLevel :=
    ExprForm.le_level_of_le_closes (Nat.le_refl _) hLe
  have hNotName : callee.form.endsWithName = false := by
    rw [Bool.eq_false_iff]
    intro hName
    exact hCallee.stopsAt.notCalled hName hOpen
  rcases hCallee with
    ⟨hFirst, -, -, us, hTokens, hWritten⟩
  rcases hArguments with
    ⟨hSecond, vs, hTokens', hWritten'⟩
  have hRest :=
    ahead_closed (ahead_eq (by rw [hOpen]; decide)) hTokens'
      hClose
  exact
    { isCanonical :=
        ExprForm.isCanonical_call_iff.2
          ⟨⟨⟨hLevel, hNotName⟩, hFirst⟩, hSecond⟩
      opens := hTight
      stopsAt := stopsAt_closed rfl rfl _
      tokens :=
        ⟨us ++ t.token :: (vs ++ [u.token]),
          by rw [hTokens, hRest]; simp,
          .intro (.call hWritten hOpen hWritten'
            hClose)⟩ }

------------------------------------------------------------
-- Arguments
------------------------------------------------------------

theorem writtenBetween_named
    {value : Expr}
    {span : Span}
    (hNamed : s.AtNamed)
    (hValue : WrittenBetween p s.next.next value t) :
    ArgumentWrittenBetween s
      ⟨some s.token.name, value, span⟩ t := by
  rcases hValue with
    ⟨hCanonical, -, -, ts, hTokens, hWritten⟩
  have hFirst := ahead_eq (ne_eof_of_isName hNamed.1)
  have hSecond :=
    ahead_eq (s := s.next) (by rw [hNamed.2]; decide)
  exact
    { isPlain := rfl
      isCanonical := hCanonical
      tokens :=
        ⟨s.token :: s.next.token :: ts,
          by rw [hFirst, hSecond, hTokens]; rfl,
          .named hNamed.1 hNamed.2 hWritten⟩ }

/- What looks like a value with a name is read as one. -/
theorem atNamed_of_isNaming
    {f : ExprForm}
    {ts us : List Token}
    (hNaming : f.isNaming = true)
    (hWritten : f.WrittenAs ts)
    (hAhead : s.stream.ahead = ts ++ us) :
    s.AtNamed := by
  cases hWritten with
  | @assignment target _ token o value vs hTarget hOperator
      hValue =>
      cases hTarget with
      | @intro form span type _ hForm =>
          cases o with
          | assign =>
              have hKind : token.kind = .assignment := by
                generalize token.kind = kind at hOperator
                cases kind <;> cases hOperator
                rfl
              cases hForm with
              | reference hName =>
                  have hNext := ahead_next hAhead
                  exact
                    ⟨by rw [token_of_ahead hAhead]
                        exact hName,
                      by rw [token_of_ahead hNext]
                         exact hKind⟩
              | _ => cases hNaming
          | _ => cases hNaming
  | _ => cases hNaming

theorem writtenBetween_positional
    {value : Expr}
    {span : Span}
    (hNone : ¬ s.AtNamed)
    (hValue : WrittenBetween p s value t) :
    ArgumentWrittenBetween s ⟨none, value, span⟩ t := by
  rcases hValue with
    ⟨hCanonical, -, -, ts, hTokens, hWritten⟩
  exact
    { isPlain := by
        rw [Option.isSome_none, Bool.false_or,
          Bool.not_eq_true', Bool.eq_false_iff]
        intro hNaming
        cases hWritten with
        | intro hForm =>
            exact hNone
              (atNamed_of_isNaming hNaming hForm hTokens)
      isCanonical := hCanonical
      tokens := ⟨ts, hTokens, .positional hWritten⟩ }

/- An argument and those behind it, maybe with a comma. -/
theorem ArgumentWrittenBetween.cons
    {W : List Argument → List Token → Prop}
    {r : ParserState}
    {front : List Token}
    {x : Argument}
    {xs : List Argument}
    (hFront : r.stream.ahead = front ++ s.stream.ahead)
    (hFirst : ArgumentWrittenBetween s x t)
    (hMore : ArgumentsWrittenBetween MoreWrittenAs t xs u)
    (hWritten :
      ∀ us ts,
        x.WrittenAs us →
          MoreWrittenAs xs ts →
            W (x :: xs) (front ++ (us ++ ts))) :
    ArgumentsWrittenBetween W r (x :: xs) u := by
  rcases x with ⟨name, value, span⟩
  rcases hFirst with
    ⟨hPlain, hCanonical, us, hTokens, hFirst⟩
  rcases hMore with ⟨hOthers, ts, hTokens', hMore⟩
  dsimp only at hPlain hCanonical
  exact
    { isCanonical :=
        areCanonical_cons_iff.2
          ⟨⟨hPlain, hCanonical⟩, hOthers⟩
      tokens :=
        ⟨front ++ (us ++ ts),
          by rw [hFront, hTokens, hTokens']; simp,
          hWritten us ts hFirst hMore⟩ }

------------------------------------------------------------
-- Derivations
------------------------------------------------------------

/- Arguments that are operations are written. -/
def Item.Written :
    (i : Item) →
      ParserState → i.Result → ParserState → Prop
  | .argument, s, x, t =>
      x.value.isOperation = true →
        ArgumentWrittenBetween s x t
  | _, _, _, _ => True

def Item.AllWritten
    (W : List Argument → List Token → Prop) :
    (i : Item) →
      ParserState → List i.Result → ParserState → Prop
  | .argument, s, xs, t =>
      areOperations xs = true →
        ArgumentsWrittenBetween W s xs t
  | _, _, _, _ => True

/-
  If the tree of a phrase is an operation, it is written
  with the tokens of the phrase and with those before it
  that belong to it.
-/
def Phrase.Written :
    (phrase : Phrase) →
      ParserState → phrase.Result → ParserState → Prop
  | .expression p, s, e, t =>
      p.Nests →
        e.isOperation = true →
          WrittenBetween p s e t ∧
            t.token.kind.EndsAbove p
  | .extensions p left, s, e, t =>
      p.Nests →
        e.isOperation = true →
          left.isOperation = true ∧
            ∀ r,
              WrittenBetween p r left s →
                WrittenBetween p r e t ∧
                  t.token.kind.EndsAbove p
  | .start starter token, s, e, t =>
      ∀ p r,
        p.Nests →
          r.token = token →
            r.next = s →
              token.kind.starter? = some starter →
                e.isOperation = true →
                  WrittenBetween p r e t
  | .extension extender left operator q, s, e, t =>
      ∀ r,
        r.token = operator →
          r.next = s →
            operator.kind.extender? = some (extender, q) →
              e.isOperation = true →
                left.isOperation = true ∧
                  ∀ p o,
                    p.Nests →
                      p < q →
                        WrittenBetween p o left r →
                          WrittenBetween p o e t
  | .item i, s, x, t => i.Written s x t
  | .items i, s, xs, t =>
      i.AllWritten ArgumentsWrittenAs s xs t
  | .moreItems i, s, xs, t =>
      i.AllWritten MoreWrittenAs s xs t
  | _, _, _, _ => True

/-
  Operations are read as canonical trees, from the tokens
  that they are written with.
-/
theorem Derives.written
    {phrase : Phrase}
    {r : phrase.Result}
    (hDerives : Derives phrase s r t) :
    phrase.Written s r t := by
  induction hDerives with
  | @expression p starter s first t e u hStart _ _ ihFirst
      ihMore =>
      intro hNests hOperation
      rcases ihMore hNests hOperation with ⟨hFirst, hMore⟩
      exact hMore s
        (ihFirst p s hNests rfl rfl hStart hFirst)
  | stop hStop =>
      exact fun _ hOperation =>
        ⟨hOperation, fun _ hLeft => ⟨hLeft, hStop⟩⟩
  | @more p left extender q s e t f u hOperator hTight _ _
      ihExtension ihMore =>
      intro hNests hOperation
      rcases ihMore hNests hOperation with ⟨hBoth, hMore⟩
      rcases ihExtension s rfl rfl hOperator hBoth with
        ⟨hLeft, hExtended⟩
      exact ⟨hLeft, fun r hWritten =>
        hMore r (hExtended p r hNests hTight hWritten)⟩
  | @int token form s hForm =>
      rintro p r hNests rfl rfl hStart hOperation
      have hKind := starter?_eq_some hStart
      rcases form_of_intForm? hForm hOperation with ⟨n, rfl⟩
      exact writtenBetween_token hNests
        (ne_eof_of_starter hStart) rfl rfl
        (stopsAt_closed rfl rfl _) (.int hKind hForm)
  | boolean =>
      rintro p r hNests rfl rfl hStart _
      exact writtenBetween_token hNests
        (ne_eof_of_starter hStart) rfl rfl
        (stopsAt_closed rfl rfl _)
        (.boolean (starter?_eq_some hStart))
  | @string token s parts t =>
      intro p r _ _ _ _ hOperation
      have hNone := isOperation_stringForm parts
      exact absurd (hNone.symm.trans hOperation)
        Bool.false_ne_true
  | reference hNone =>
      rintro p r hNests rfl rfl hStart _
      have hTightest : r.next.token.kind.EndsAbove .primary :=
        TokenKind.endsAbove_of_member_le _ (by decide)
      exact writtenBetween_token hNests
        (ne_eof_of_starter hStart) rfl rfl
        ⟨hTightest, fun _ => hNone⟩
        (.reference (starter?_eq_some hStart))
  | invocation hOpen _ hClose ih =>
      rintro p r hNests rfl rfl hStart hOperation
      exact writtenBetween_invocation hNests
        (starter?_eq_some hStart) hOpen (ih hOperation)
        hClose
  | unary _ ih =>
      rintro p r hNests rfl rfl hStart hOperation
      have hBoth :=
        ih ⟨by decide, by decide⟩ hOperation
      exact writtenBetween_unary hNests
        (starter?_eq_some hStart) hBoth.1 hBoth.2
  | grouping _ hClose ih =>
      rintro p r hNests rfl rfl hStart hOperation
      have hBoth :=
        ih ⟨by decide, by decide⟩ hOperation
      exact writtenBetween_parenthesized hNests
        (starter?_eq_some hStart) hBoth.1 hClose
  | startBlock hBlock _ =>
      intro p r _ _ _ _ hOperation
      cases hBlock with
      | block => cases hOperation
  | conditional => exact fun _ _ _ _ _ _ h => nomatch h
  | functionLiteral => exact fun _ _ _ _ _ _ h => nomatch h
  | lambda => exact fun _ _ _ _ _ _ h => nomatch h
  | retValue => exact fun _ _ _ _ _ _ h => nomatch h
  | retNothing => exact fun _ _ _ _ _ _ h => nomatch h
  | @binary left operator q o s right t hIs _ ih =>
      rintro r rfl rfl hOperator hOperation
      rcases Bool.and_eq_true_iff.1 hOperation with
        ⟨hLeft, hRight⟩
      rcases extender?_eq_some hOperator with
        ⟨o', hOther, rfl⟩
      rw [hIs] at hOther
      cases hOther
      have hBoth := ih o.nests_power hRight
      exact ⟨hLeft, fun p o hNests hTight hWritten =>
        writtenBetween_binary hTight hWritten hIs hBoth.1
          hBoth.2⟩
  | @assignment left operator q o s value t hIs _ ih =>
      rintro r rfl rfl hOperator hOperation
      rcases Bool.and_eq_true_iff.1 hOperation with
        ⟨hLeft, hRight⟩
      rcases extender?_eq_some hOperator with ⟨-, rfl⟩
      have hBoth := ih ⟨by decide, by decide⟩ hRight
      exact ⟨hLeft, fun p o hNests hTight hWritten =>
        writtenBetween_assignment hTight hWritten hIs
          hBoth.1 hBoth.2⟩
  | @member left operator q s right t _ _ hIs ih =>
      rintro r rfl rfl hOperator hOperation
      rcases Bool.and_eq_true_iff.1 hOperation with
        ⟨hLeft, hRight⟩
      rcases extender?_eq_some hOperator with ⟨hKind, rfl⟩
      have hBoth := ih ⟨by decide, by decide⟩ hRight
      exact ⟨hLeft, fun p o hNests hTight hWritten =>
        writtenBetween_access hNests hTight hWritten hKind
          hBoth.1 hIs⟩
  | call _ hClose ih =>
      rintro r rfl rfl hOperator hOperation
      rcases Bool.and_eq_true_iff.1 hOperation with
        ⟨hLeft, hArguments⟩
      rcases extender?_eq_some hOperator with ⟨hOpen, rfl⟩
      exact ⟨hLeft, fun p o hNests hTight hWritten =>
        writtenBetween_call hTight hWritten hOpen
          (ih hArguments) hClose⟩
  | named hNamed _ ih =>
      intro hOperation
      exact writtenBetween_named hNamed
        (ih ⟨by decide, by decide⟩ hOperation).1
  | positional hNone _ ih =>
      intro hOperation
      exact writtenBetween_positional hNone
        (ih ⟨by decide, by decide⟩ hOperation).1
  | @noItems i s _ =>
      cases i with
      | argument => exact fun _ => ⟨rfl, [], rfl, .none⟩
      | _ => trivial
  | @someItems i s x t xs u _ _ _ ihFirst ihMore =>
      cases i with
      | argument =>
          intro hOperations
          rcases x with ⟨name, value, span⟩
          rcases Bool.and_eq_true_iff.1 hOperations with
            ⟨hValue, hOthers⟩
          exact (ihFirst hValue).cons
            (List.nil_append _).symm (ihMore hOthers) fun _ _ => .some
      | _ => trivial
  | @lastItem i s _ =>
      cases i with
      | argument => exact fun _ => ⟨rfl, [], rfl, .last⟩
      | _ => trivial
  | @trailingComma i s hComma _ =>
      cases i with
      | argument =>
          exact fun _ =>
            ⟨rfl, [s.token],
              ahead_eq (by rw [hComma]; decide),
              .trailing hComma⟩
      | _ => trivial
  | @nextItem i s x t xs u hComma _ _ _ ihItem ihMore =>
      cases i with
      | argument =>
          intro hOperations
          rcases x with ⟨name, value, span⟩
          rcases Bool.and_eq_true_iff.1 hOperations with
            ⟨hValue, hOthers⟩
          have hFront :
              s.stream.ahead =
                [s.token] ++ s.next.stream.ahead :=
            ahead_eq (by rw [hComma]; decide)
          exact (ihItem hValue).cons hFront (ihMore hOthers)
            fun _ _ => .next hComma
      | _ => trivial
  | _ => trivial

end SourceCheck
