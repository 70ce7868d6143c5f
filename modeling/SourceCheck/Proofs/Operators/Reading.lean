import SourceCheck.Proofs.Operators.Canonical
import SourceCheck.Tree.Equivalence

/-
  Canonical operations are read as they are written.

  The tokens of a canonical operation have a derivation, of
  an operation that means the same.  What lies on the left
  edge is read by the loop that reads the whole, so that a
  derivation is given to it for what follows.

  Key definitions include:
    * `Copies`
    * `Reads`

  Key theorems include:
    * `reads_of_written`
-/

namespace SourceCheck

open SourceCheck.ParserState
open SourceCheck.Parser

------------------------------------------------------------
-- Copies
------------------------------------------------------------

/- The second operation means the same as the first one. -/
structure Copies (e f : Expr) : Prop where
  equivalent : e.equivalent f = true
  isOperation : f.isOperation = true
  isCalled :
    e.isReferenceOrInvocation = f.isReferenceOrInvocation

/- So do all arguments. -/
structure CopiesAll (xs ys : List Argument) : Prop where
  equivalent : equivalentArguments xs ys = true
  isOperation : areOperations ys = true

theorem CopiesAll.nil : CopiesAll [] [] :=
  ⟨by simp only [equivalentArguments], rfl⟩

theorem CopiesAll.cons
    {name : Option String}
    {e f : Expr}
    {xs ys : List Argument}
    (hFirst : Copies e f)
    (hMore : CopiesAll xs ys)
    (s t : Span) :
    CopiesAll (⟨name, e, s⟩ :: xs) (⟨name, f, t⟩ :: ys) where
  equivalent := by
    simp only [equivalentArguments, Argument.equivalent,
      hFirst.equivalent, hMore.equivalent, decide_true,
      Bool.and_self]
  isOperation := by
    simp only [areOperations, hFirst.isOperation,
      hMore.isOperation, Bool.and_self]

------------------------------------------------------------
-- Reading
------------------------------------------------------------

/- A copy of the expression is derived at the power. -/
def ReadsAt
    (p : Power)
    (s : ParserState)
    (e : Expr)
    (t : ParserState) :
    Prop :=
  ∃ f, Copies e f ∧ Derives (.expression p) s f t

/-
  A copy of the expression is read at the power, and goes on
  in every way that its extensions do.
-/
def Reads
    (p : Power)
    (s : ParserState)
    (e : Expr)
    (t : ParserState) :
    Prop :=
  ∃ f,
    Copies e f ∧
      ∀ g u,
        Derives (.extensions p f) t g u →
          Derives (.expression p) s g u

variable {s t u v : ParserState}
variable {p q : Power}
variable {span : Span}
variable {type : Option Ty}

/- What is read ends where nothing goes on. -/
theorem Reads.ends
    {e : Expr}
    (hReads : Reads p s e t)
    (hEnds : t.token.kind.EndsAbove p) :
    ReadsAt p s e t := by
  rcases hReads with ⟨f, hCopies, hMore⟩
  exact ⟨f, hCopies, hMore f t (.stop hEnds)⟩

/- What one token or one pair of parentheses starts. -/
theorem reads_start
    {e f : Expr}
    {starter : Starter}
    (hStart : s.token.kind.starter? = some starter)
    (hCopies : Copies e f)
    (hFirst : Derives (.start starter s.token) s.next f t) :
    Reads p s e t :=
  ⟨f, hCopies, fun _ _ hMore =>
    .expression hStart hFirst hMore⟩

/- What an operator makes of an expression is read on. -/
theorem Reads.extend
    {left e : Expr}
    {extender : Extender}
    (hLeft : Reads p s left t)
    (hOperator :
      t.token.kind.extender? = some (extender, q))
    (hTight : p < q)
    (hExtension :
      ∀ g,
        Copies left g →
          ∃ f,
            Copies e f ∧
              Derives (.extension extender g t.token q)
                t.next f u) :
    Reads p s e u := by
  rcases hLeft with ⟨g, hCopies, hMore⟩
  rcases hExtension g hCopies with ⟨f, hBoth, hDerives⟩
  exact ⟨f, hBoth, fun _ _ hRest =>
    hMore _ _ (.more hOperator hTight hDerives hRest)⟩

/- A name may stand by itself. -/
theorem starter?_of_isName
    {kind : TokenKind}
    (hName : kind.isName) :
    kind.starter? = some .reference := by
  cases kind <;> first | rfl | cases hName

theorem reads_int
    {n : Int}
    (hKind : s.token.kind = .intLiteral)
    (hValue : intForm? s.token.value = some (.int n))
    (hOperation : (ExprForm.int n).isOperation = true) :
    Reads p s ⟨.int n, span, type⟩ s.next := by
  refine reads_start (by rw [hKind]; rfl) ?_ (.int hValue)
  exact ⟨by simp only [Expr.equivalent, Expr.new,
    ExprForm.equivalent, decide_true], hOperation, rfl⟩

theorem reads_boolean
    {b : Bool}
    (hKind : s.token.kind = booleanKind b) :
    Reads p s ⟨.boolean b, span, type⟩ s.next := by
  refine reads_start (by rw [hKind]; cases b <;> rfl) ?_
    .boolean
  have hSame : decide (s.token.kind = .kwTrue) = b := by
    rw [hKind]
    cases b <;> rfl
  rw [hSame]
  exact ⟨by simp only [Expr.equivalent, Expr.new,
    ExprForm.equivalent, decide_true], rfl, rfl⟩

theorem reads_reference
    {target : Target}
    (hName : s.token.kind.isName)
    (hNone : s.next.token.kind ≠ .openParen) :
    Reads p s ⟨.reference s.token.name target, span, type⟩
      s.next := by
  refine reads_start (starter?_of_isName hName) ?_
    (.reference hNone)
  exact ⟨by simp only [Expr.equivalent, Expr.reference,
    Expr.new, ExprForm.equivalent, decide_true], rfl, rfl⟩

theorem reads_invocation
    {arguments : List Argument}
    {target : Target}
    (hName : s.token.kind.isName)
    (hOpen : s.next.token.kind = .openParen)
    (hArguments :
      ∃ xs,
        CopiesAll arguments xs ∧
          Derives (.items .argument) s.next.next xs t)
    (hClose : t.token.kind = .closeParen) :
    Reads p s
      ⟨.invocation s.token.name arguments target, span,
        type⟩
      t.next := by
  rcases hArguments with ⟨xs, hCopies, hItems⟩
  refine reads_start (starter?_of_isName hName) ?_
    (.invocation hOpen hItems hClose)
  exact ⟨by simp only [Expr.equivalent, Expr.invocation,
    Expr.new, ExprForm.equivalent, hCopies.equivalent,
    decide_true, Bool.and_self], hCopies.isOperation, rfl⟩

theorem reads_unary
    {o : UnaryOperator}
    {operand : Expr}
    (hKind : s.token.kind = o.kind)
    (hOperand : ReadsAt .unary s.next operand t) :
    Reads p s ⟨.unary o operand, span, type⟩ t := by
  rcases hOperand with ⟨f, hCopies, hDerives⟩
  refine reads_start (by rw [hKind]; cases o <;> rfl) ?_
    (.unary hDerives)
  have hSame :
      (if s.token.kind = .kwNot then UnaryOperator.not
        else .negate) = o := by
    rw [hKind]
    cases o <;> rfl
  rw [hSame]
  exact ⟨by simp only [Expr.equivalent, Expr.new,
    ExprForm.equivalent, hCopies.equivalent, decide_true,
    Bool.and_self], hCopies.isOperation, rfl⟩

theorem reads_parenthesized
    {inner : Expr}
    (hOpen : s.token.kind = .openParen)
    (hInner : ReadsAt .loosest s.next inner t)
    (hClose : t.token.kind = .closeParen) :
    Reads p s ⟨.parenthesized inner, span, type⟩
      t.next := by
  rcases hInner with ⟨f, hCopies, hDerives⟩
  refine reads_start (by rw [hOpen]; rfl) ?_
    (.grouping hDerives hClose)
  exact ⟨by simp only [Expr.equivalent, Expr.new,
    ExprForm.equivalent, hCopies.equivalent],
    hCopies.isOperation, rfl⟩

theorem reads_binary
    {left right : Expr}
    {o : BinaryOperator}
    (hTight : p < o.power)
    (hLeft : Reads p s left t)
    (hOperator : t.token.kind.binaryOperator? = some o)
    (hRight : ReadsAt o.power t.next right u) :
    Reads p s ⟨.binary left o right, span, type⟩ u := by
  rcases hRight with ⟨f, hCopies, hDerives⟩
  refine hLeft.extend (extender?_of_binaryOperator? hOperator)
    hTight fun g hFirst =>
      ⟨_, ?_, .binary hOperator hDerives⟩
  refine ⟨?_, ?_, rfl⟩
  · simp only [Expr.equivalent, Expr.new,
      ExprForm.equivalent, hFirst.equivalent,
      hCopies.equivalent, decide_true, Bool.and_self]
  · simp only [Expr.new, Expr.isOperation,
      ExprForm.isOperation, hFirst.isOperation,
      hCopies.isOperation, Bool.and_self]

theorem reads_assignment
    {target value : Expr}
    {o : AssignmentOperator}
    (hTight : p < .assignment)
    (hTarget : Reads p s target t)
    (hOperator : t.token.kind.assignmentOperator? = some o)
    (hValue : ReadsAt .loosest t.next value u) :
    Reads p s ⟨.assignment target o value, span, type⟩
      u := by
  rcases hValue with ⟨f, hCopies, hDerives⟩
  refine hTarget.extend
    (extender?_of_assignmentOperator? hOperator)
    hTight fun g hFirst =>
      ⟨_, ?_, .assignment hOperator hDerives⟩
  refine ⟨?_, ?_, rfl⟩
  · simp only [Expr.equivalent, Expr.new,
      ExprForm.equivalent, hFirst.equivalent,
      hCopies.equivalent, decide_true, Bool.and_self]
  · simp only [Expr.new, Expr.isOperation,
      ExprForm.isOperation, hFirst.isOperation,
      hCopies.isOperation, Bool.and_self]

theorem reads_access
    {left right : Expr}
    {safe : Bool}
    (hTight : p < .member)
    (hLeft : Reads p s left t)
    (hKind : t.token.kind = accessKind safe)
    (hName : t.next.token.kind.isName)
    (hRight : ReadsAt .member t.next right u)
    (hIs : right.isReferenceOrInvocation) :
    Reads p s ⟨.access left safe right, span, type⟩ u := by
  rcases hRight with ⟨f, hCopies, hDerives⟩
  refine hLeft.extend
    (by rw [hKind]; cases safe <;> rfl)
    hTight fun g hFirst =>
      ⟨_, ?_, .member hName hDerives
        (hCopies.isCalled.symm.trans hIs)⟩
  have hSafe :
      decide (t.token.kind = .questionDot) = safe := by
    rw [hKind]
    cases safe <;> rfl
  rw [hSafe]
  refine ⟨?_, ?_, rfl⟩
  · simp only [Expr.equivalent, Expr.new,
      ExprForm.equivalent, hFirst.equivalent,
      hCopies.equivalent, decide_true, Bool.and_self]
  · simp only [Expr.new, Expr.isOperation,
      ExprForm.isOperation, hFirst.isOperation,
      hCopies.isOperation, Bool.and_self]

theorem reads_call
    {callee : Expr}
    {arguments : List Argument}
    (hTight : p < .call)
    (hCallee : Reads p s callee t)
    (hOpen : t.token.kind = .openParen)
    (hArguments :
      ∃ xs,
        CopiesAll arguments xs ∧
          Derives (.items .argument) t.next xs u)
    (hClose : u.token.kind = .closeParen) :
    Reads p s ⟨.call callee arguments, span, type⟩
      u.next := by
  rcases hArguments with ⟨xs, hCopies, hItems⟩
  refine hCallee.extend (by rw [hOpen]; rfl) hTight
    fun g hFirst => ⟨_, ?_, .call hItems hClose⟩
  refine ⟨?_, ?_, rfl⟩
  · simp only [Expr.equivalent, Expr.new,
      ExprForm.equivalent, hFirst.equivalent,
      hCopies.equivalent, Bool.and_self]
  · simp only [Expr.new, Expr.isOperation,
      ExprForm.isOperation, hFirst.isOperation,
      hCopies.isOperation, Bool.and_self]

------------------------------------------------------------
-- First tokens
------------------------------------------------------------

mutual

/- What is written starts with a token that starts it. -/
theorem starts_of_writtenForm :
    ∀ {f : ExprForm} {ts : List Token},
      f.WrittenAs ts →
        ∀ us,
          s.stream.ahead = ts ++ us →
            ∃ starter, s.token.kind.starter? = some starter
  | _, _, .int hKind _, _, hAhead => by
      rw [token_of_ahead hAhead, hKind]
      exact ⟨_, rfl⟩
  | _, _, .boolean (b := b) hKind, _, hAhead => by
      rw [token_of_ahead hAhead, hKind]
      cases b <;> exact ⟨_, rfl⟩
  | _, _, .reference hName, _, hAhead => by
      rw [token_of_ahead hAhead]
      exact ⟨_, starter?_of_isName hName⟩
  | _, _, .invocation hName _ _ _, _, hAhead => by
      rw [token_of_ahead hAhead]
      exact ⟨_, starter?_of_isName hName⟩
  | _, _, .call hCallee _ _ _, _, hAhead => by
      rw [List.append_assoc] at hAhead
      exact starts_of_writtenAs hCallee _ hAhead
  | _, _, .access hLeft _ _, _, hAhead => by
      rw [List.append_assoc] at hAhead
      exact starts_of_writtenAs hLeft _ hAhead
  | _, _, .binary hLeft _ _, _, hAhead => by
      rw [List.append_assoc] at hAhead
      exact starts_of_writtenAs hLeft _ hAhead
  | _, _, .unary (o := o) hKind _, _, hAhead => by
      rw [token_of_ahead hAhead, hKind]
      cases o <;> exact ⟨_, rfl⟩
  | _, _, .assignment hTarget _ _, _, hAhead => by
      rw [List.append_assoc] at hAhead
      exact starts_of_writtenAs hTarget _ hAhead
  | _, _, .parenthesized hOpen _ _, _, hAhead => by
      rw [token_of_ahead hAhead, hOpen]
      exact ⟨_, rfl⟩

theorem starts_of_writtenAs :
    ∀ {e : Expr} {ts : List Token},
      e.WrittenAs ts →
        ∀ us,
          s.stream.ahead = ts ++ us →
            ∃ starter, s.token.kind.starter? = some starter
  | _, _, .intro hForm, us, hAhead =>
      starts_of_writtenForm hForm us hAhead

end

theorem accessKind_ne_assignment (safe : Bool) :
    accessKind safe ≠ .assignment := by
  cases safe <;> decide

/- What is extended is no value behind its name. -/
theorem not_naming_of_left
    {left : Expr}
    {token : Token}
    {ts us : List Token}
    (hTight : left.level ≠ .assignment)
    (hToken : token.kind ≠ .assignment)
    (hAhead : (s.passed ts).stream.ahead = token :: us)
    (hBoth :
      left.form.isNaming = true ∨
        left.form.isReference = true ∧
          (s.passed ts).token.kind = .assignment) :
    False := by
  rcases hBoth with hNaming | ⟨-, hKind⟩
  · exact hTight (ExprForm.level_of_isNaming hNaming)
  · rw [token_of_ahead hAhead] at hKind
    exact hToken hKind

/- Tight operands are no assignments. -/
theorem level_ne_assignment
    {e : Expr}
    (hTight : q.rank ≤ e.level.rank)
    (hLess : Power.assignment.rank < q.rank) :
    e.level ≠ .assignment := by
  intro hLevel
  rw [hLevel] at hTight
  exact absurd hLess (Nat.not_lt.2 hTight)

mutual

/-
  Where a name and an equals sign are ahead, there is an
  assignment to the name, or the name alone before the sign.
-/
theorem naming_of_writtenForm
    (hNamed : s.AtNamed) :
    ∀ {f : ExprForm} {ts : List Token},
      f.WrittenAs ts →
        f.isCanonical = true →
          ∀ us,
            s.stream.ahead = ts ++ us →
              f.isNaming = true ∨
                f.isReference = true ∧
                  (s.passed ts).token.kind = .assignment
  | _, _, .int hKind _, _, _, hAhead => by
      have hName := hNamed.1
      rw [token_of_ahead hAhead, hKind] at hName
      cases hName
  | _, _, .boolean (b := b) hKind, _, _, hAhead => by
      have hName := hNamed.1
      rw [token_of_ahead hAhead, hKind] at hName
      cases b <;> cases hName
  | _, _, .reference _, _, _, _ => .inr ⟨rfl, hNamed.2⟩
  | _, _, .invocation _ hOpen _ _, _, _, hAhead => by
      have hNext := hNamed.2
      rw [token_of_ahead (ahead_next hAhead), hOpen] at hNext
      cases hNext
  | _, _, .unary (o := o) hKind _, _, _, hAhead => by
      have hName := hNamed.1
      rw [token_of_ahead hAhead, hKind] at hName
      cases o <;> cases hName
  | _, _, .parenthesized hOpen _ _, _, _, hAhead => by
      have hName := hNamed.1
      rw [token_of_ahead hAhead, hOpen] at hName
      cases hName
  | _, _, .call hCallee hOpen _ _, hCanonical, _,
      hAhead => by
      rw [ExprForm.isCanonical_call_iff] at hCanonical
      rw [List.append_assoc] at hAhead
      exact (not_naming_of_left
        (level_ne_assignment hCanonical.1.1.1 (by decide))
        (by rw [hOpen]; decide) (ahead_passed hAhead)
        (naming_of_writtenAs hNamed hCallee hCanonical.1.2
          _ hAhead)).elim
  | _, _, .access hLeft hKind _, hCanonical, _, hAhead => by
      rw [ExprForm.isCanonical_access_iff] at hCanonical
      rw [List.append_assoc] at hAhead
      exact (not_naming_of_left
        (level_ne_assignment hCanonical.1.1.1 (by decide))
        (by rw [hKind]; exact accessKind_ne_assignment _)
        (ahead_passed hAhead)
        (naming_of_writtenAs hNamed hLeft hCanonical.1.2
          _ hAhead)).elim
  | _, _, .binary (o := o) hLeft hOperator _, hCanonical, _,
      hAhead => by
      rw [ExprForm.isCanonical_binary_iff] at hCanonical
      rw [List.append_assoc] at hAhead
      exact (not_naming_of_left
        (level_ne_assignment hCanonical.1.1.1
          o.rank_power.1)
        (by
          intro hKind
          rw [hKind] at hOperator
          cases hOperator)
        (ahead_passed hAhead)
        (naming_of_writtenAs hNamed hLeft hCanonical.1.2
          _ hAhead)).elim
  | _, _, .assignment (o := o) hTarget hOperator _,
      hCanonical, _, hAhead => by
      rw [ExprForm.isCanonical_assignment_iff] at hCanonical
      rw [List.append_assoc] at hAhead
      rcases naming_of_writtenAs hNamed hTarget
        hCanonical.1.2 _ hAhead with
        hNaming | ⟨hReference, hKind⟩
      · exact absurd (ExprForm.level_of_isNaming hNaming)
          hCanonical.1.1
      · rw [token_of_ahead (ahead_passed hAhead)] at hKind
        rw [hKind] at hOperator
        cases hOperator
        exact .inl hReference

theorem naming_of_writtenAs
    (hNamed : s.AtNamed) :
    ∀ {e : Expr} {ts : List Token},
      e.WrittenAs ts →
        e.isCanonical = true →
          ∀ us,
            s.stream.ahead = ts ++ us →
              e.form.isNaming = true ∨
                e.form.isReference = true ∧
                  (s.passed ts).token.kind = .assignment
  | _, _, .intro hForm, hCanonical, us, hAhead =>
      naming_of_writtenForm hNamed hForm hCanonical us hAhead

end

------------------------------------------------------------
-- Readable operations
------------------------------------------------------------

/-
  Wherever the tokens are ahead the expression is read, if
  its left edge is tight enough and nothing behind it goes
  on with a part of it.
-/
def Expr.Readable (e : Expr) (ts : List Token) : Prop :=
  ∀ {p : Power} {s : ParserState} {us : List Token},
    p.rank < e.form.opens.rank →
      s.stream.ahead = ts ++ us →
        e.form.StopsAt (s.passed ts).token.kind →
          Reads p s e (s.passed ts)

/- The argument is read before what extends nothing. -/
def Argument.Readable
    (x : Argument)
    (ts : List Token) :
    Prop :=
  ∀ {s : ParserState} {us : List Token},
    s.stream.ahead = ts ++ us →
      (s.passed ts).token.kind.extender? = none →
        ∃ f span,
          Copies x.value f ∧
            Derives (.item .argument) s ⟨x.name, f, span⟩
              (s.passed ts)

/- The arguments are read up to the parenthesis. -/
def ArgumentsReadable
    (xs : List Argument)
    (ts : List Token) :
    Prop :=
  ∀ {s : ParserState} {closing : Token} {us : List Token},
    closing.kind = .closeParen →
      s.stream.ahead = ts ++ closing :: us →
        ∃ ys,
          CopiesAll xs ys ∧
            Derives (.items .argument) s ys (s.passed ts)

/- So are those behind another one. -/
def MoreReadable
    (xs : List Argument)
    (ts : List Token) :
    Prop :=
  ∀ {s : ParserState} {closing : Token} {us : List Token},
    closing.kind = .closeParen →
      s.stream.ahead = ts ++ closing :: us →
        ∃ ys,
          CopiesAll xs ys ∧
            Derives (.moreItems .argument) s ys
              (s.passed ts)

namespace ExprForm

/- A left operand stops at its operator. -/
theorem stopsAt_operator
    {f : ExprForm}
    {kind : TokenKind}
    {extender : Extender}
    (hOperator : kind.extender? = some (extender, q))
    (hLe : q.rank ≤ f.closes.rank)
    (hNotCalled : kind ≠ .openParen) :
    f.StopsAt kind where
  endsAbove other r hOther := by
    rw [hOperator] at hOther
    cases hOther
    exact Nat.not_lt.2 hLe
  notCalled _ := hNotCalled

/- Everything is read at the loosest power. -/
theorem loosest_lt_opens (f : ExprForm) :
    Power.loosest.rank < f.opens.rank := by
  cases f with
  | binary left o right =>
      exact Nat.lt_trans (by decide) o.rank_power.1
  | _ => exact Nat.zero_lt_succ _

/- The operand of a sign is read at its power. -/
theorem unary_lt_opens
    {f : ExprForm}
    (hLevel : Power.unary.rank ≤ f.level.rank) :
    Power.unary.rank < f.opens.rank := by
  cases f with
  | binary left o right =>
      exact absurd o.rank_power.2 (Nat.not_lt.2 hLevel)
  | assignment =>
      exact absurd hLevel
        (by simp only [level, Power.rank]; decide)
  | _ => exact Nat.le_of_ble_eq_true rfl

/- A right operand stops where the whole does. -/
theorem stopsAt_operand
    {f : ExprForm}
    {kind : TokenKind}
    (hLe : q.rank ≤ f.closes.rank)
    (hLoose : q.rank < Power.call.rank)
    (hEnds : kind.EndsAbove q) :
    f.StopsAt kind where
  endsAbove := hEnds.mono hLe
  notCalled _ := by
    rintro rfl
    exact hEnds .call .call rfl hLoose

end ExprForm

/- An operand is read up to where nothing goes on. -/
theorem Expr.Readable.ends
    {e : Expr}
    {ts us : List Token}
    (hReadable : e.Readable ts)
    (hAhead : s.stream.ahead = ts ++ us)
    (hOpens : q.rank < e.form.opens.rank)
    (hCloses : q.rank ≤ e.form.closes.rank)
    (hLoose : q.rank < Power.call.rank)
    (hEnds : (s.passed ts).token.kind.EndsAbove q) :
    ReadsAt q s e (s.passed ts) :=
  (hReadable hOpens hAhead
    (ExprForm.stopsAt_operand hCloses hLoose hEnds)).ends
      hEnds

/- At the loosest power everything is read. -/
theorem Expr.Readable.endsLoosest
    {e : Expr}
    {ts us : List Token}
    (hReadable : e.Readable ts)
    (hAhead : s.stream.ahead = ts ++ us)
    (hEnds :
      (s.passed ts).token.kind.EndsAbove .loosest) :
    ReadsAt .loosest s e (s.passed ts) :=
  hReadable.ends hAhead e.form.loosest_lt_opens
    (Nat.zero_le _) (by decide) hEnds

/- A closing parenthesis ends everything. -/
theorem endsAbove_of_extender?_eq_none
    {kind : TokenKind}
    (hNone : kind.extender? = none)
    (p : Power) :
    kind.EndsAbove p := by
  intro extender q hOperator
  rw [hNone] at hOperator
  cases hOperator

theorem readable_int
    {n : Int}
    {token : Token}
    (hKind : token.kind = .intLiteral)
    (hValue : intForm? token.value = some (.int n))
    (hOperation : (ExprForm.int n).isOperation = true) :
    Expr.Readable ⟨.int n, span, type⟩ [token] := by
  intro p s us _ hAhead _
  have hToken := token_of_ahead hAhead
  subst hToken
  exact reads_int hKind hValue hOperation

theorem readable_boolean
    {b : Bool}
    {token : Token}
    (hKind : token.kind = booleanKind b) :
    Expr.Readable ⟨.boolean b, span, type⟩ [token] := by
  intro p s us _ hAhead _
  have hToken := token_of_ahead hAhead
  subst hToken
  exact reads_boolean hKind

theorem readable_reference
    {token : Token}
    {target : Target}
    (hName : token.kind.isName) :
    Expr.Readable
      ⟨.reference token.name target, span, type⟩
      [token] := by
  intro p s us _ hAhead hStops
  have hToken := token_of_ahead hAhead
  subst hToken
  exact reads_reference hName (hStops.notCalled rfl)

theorem readable_invocation
    {token opening closing : Token}
    {ts : List Token}
    {arguments : List Argument}
    {target : Target}
    (hName : token.kind.isName)
    (hOpen : opening.kind = .openParen)
    (hArguments : ArgumentsReadable arguments ts)
    (hClose : closing.kind = .closeParen) :
    Expr.Readable
      ⟨.invocation token.name arguments target, span, type⟩
      (token :: opening :: (ts ++ [closing])) := by
  intro p s us _ hAhead _
  have hToken := token_of_ahead hAhead
  have hOpening := token_of_ahead (ahead_next hAhead)
  have hInner :
      s.next.next.stream.ahead = ts ++ closing :: us := by
    rw [ahead_next (ahead_next hAhead)]
    simp
  have hClosing := token_of_ahead (ahead_passed hInner)
  subst hToken
  rw [passed_cons, passed_cons, passed_append]
  exact reads_invocation hName (by rw [hOpening, hOpen])
    (hArguments hClose hInner) (by rw [hClosing, hClose])

theorem readable_unary
    {token : Token}
    {o : UnaryOperator}
    {operand : Expr}
    {us : List Token}
    (hKind : token.kind = o.kind)
    (hOperand : operand.Readable us)
    (hLevel : Power.unary.rank ≤ operand.level.rank) :
    Expr.Readable ⟨.unary o operand, span, type⟩
      (token :: us) := by
  intro p s vs _ hAhead hStops
  have hToken := token_of_ahead hAhead
  have hEnds :
      (s.next.passed us).token.kind.EndsAbove .unary :=
    hStops.endsAbove
  have hCloses :=
    ExprForm.level_le_closes
      (level_ne_assignment hLevel (by decide))
  exact reads_unary (by rw [hToken, hKind])
    (hOperand.ends (ahead_next hAhead)
      (ExprForm.unary_lt_opens hLevel)
      (Nat.le_trans hLevel hCloses) (by decide) hEnds)

theorem readable_parenthesized
    {opening closing : Token}
    {inner : Expr}
    {us : List Token}
    (hOpen : opening.kind = .openParen)
    (hInner : inner.Readable us)
    (hClose : closing.kind = .closeParen) :
    Expr.Readable ⟨.parenthesized inner, span, type⟩
      (opening :: (us ++ [closing])) := by
  intro p s vs _ hAhead _
  have hOpening := token_of_ahead hAhead
  have hMiddle :
      s.next.stream.ahead = us ++ closing :: vs := by
    rw [ahead_next hAhead]
    simp
  have hClosing := token_of_ahead (ahead_passed hMiddle)
  have hNone :
      (s.next.passed us).token.kind.extender? = none := by
    rw [hClosing, hClose]
    rfl
  rw [passed_cons, passed_append]
  exact reads_parenthesized (by rw [hOpening, hOpen])
    (hInner.endsLoosest hMiddle
      (endsAbove_of_extender?_eq_none hNone _))
    (by rw [hClosing, hClose])

theorem readable_binary
    {left right : Expr}
    {us vs : List Token}
    {token : Token}
    {o : BinaryOperator}
    (hLeft : left.Readable us)
    (hOperator : token.kind.binaryOperator? = some o)
    (hRight : right.Readable vs)
    (hFirst : o.power.rank ≤ left.level.rank)
    (hSecond : o.power.rank < right.level.rank) :
    Expr.Readable ⟨.binary left o right, span, type⟩
      (us ++ token :: vs) := by
  intro p s ws hOpens hAhead hStops
  rw [List.append_assoc] at hAhead
  rw [passed_append, passed_cons] at hStops ⊢
  have hMiddle := ahead_passed hAhead
  have hToken := token_of_ahead hMiddle
  have hBounds := o.rank_power
  have hExtender := extender?_of_binaryOperator? hOperator
  have hCloses :=
    ExprForm.level_le_closes
      (level_ne_assignment hFirst hBounds.1)
  have hCloses' :=
    ExprForm.level_le_closes
      (level_ne_assignment (Nat.le_of_lt hSecond) hBounds.1)
  have hStart : Reads p s left (s.passed us) := by
    refine hLeft ?_ hAhead ?_
    · exact Nat.lt_of_lt_of_le hOpens
        (Nat.le_trans hFirst left.form.level_le_opens)
    · rw [hToken]
      refine ExprForm.stopsAt_operator hExtender
        (Nat.le_trans hFirst hCloses) ?_
      intro hKind
      rw [hKind] at hOperator
      cases hOperator
  have hEnd :
      ReadsAt o.power (s.passed us).next right
        ((s.passed us).next.passed vs) :=
    hRight.ends (ahead_next hMiddle)
      (Nat.lt_of_lt_of_le hSecond right.form.level_le_opens)
      (Nat.le_trans (Nat.le_of_lt hSecond) hCloses')
      (Nat.lt_trans hBounds.2 (by decide)) hStops.endsAbove
  exact reads_binary hOpens hStart
    (by rw [hToken, hOperator]) hEnd

theorem readable_assignment
    {target value : Expr}
    {us vs : List Token}
    {token : Token}
    {o : AssignmentOperator}
    (hTarget : target.Readable us)
    (hOperator : token.kind.assignmentOperator? = some o)
    (hValue : value.Readable vs)
    (hLevel : target.level ≠ .assignment) :
    Expr.Readable ⟨.assignment target o value, span, type⟩
      (us ++ token :: vs) := by
  intro p s ws hOpens hAhead hStops
  rw [List.append_assoc] at hAhead
  rw [passed_append, passed_cons] at hStops ⊢
  have hMiddle := ahead_passed hAhead
  have hToken := token_of_ahead hMiddle
  have hExtender := extender?_of_assignmentOperator? hOperator
  have hFirst := target.form.assignment_le_level
  have hCloses := ExprForm.level_le_closes hLevel
  have hStart : Reads p s target (s.passed us) := by
    refine hTarget ?_ hAhead ?_
    · exact Nat.lt_of_lt_of_le hOpens
        (Nat.le_trans hFirst target.form.level_le_opens)
    · rw [hToken]
      refine ExprForm.stopsAt_operator hExtender
        (Nat.le_trans hFirst hCloses) ?_
      intro hKind
      rw [hKind] at hOperator
      cases hOperator
  exact reads_assignment hOpens hStart
    (by rw [hToken, hOperator])
    (hValue.endsLoosest (ahead_next hMiddle)
      hStops.endsAbove)

/- Names and calls of names have nothing open. -/
theorem edges_of_isReferenceOrInvocation
    {e : Expr}
    (hIs : e.isReferenceOrInvocation = true) :
    e.form.opens = .primary ∧
      e.form.closes = .primary ∧
        (e.form.endsWithName = e.form.isReference) := by
  unfold Expr.isReferenceOrInvocation at hIs
  generalize e.form = f at hIs
  cases f with
  | reference => exact ⟨rfl, rfl, rfl⟩
  | invocation => exact ⟨rfl, rfl, rfl⟩
  | _ => cases hIs

/- They start with the name. -/
theorem isName_of_writtenAs
    {e : Expr}
    {ts us : List Token}
    (hWritten : e.WrittenAs ts)
    (hIs : e.isReferenceOrInvocation = true)
    (hAhead : s.stream.ahead = ts ++ us) :
    s.token.kind.isName := by
  cases hWritten with
  | intro hForm =>
      cases hForm with
      | reference hName =>
          rw [token_of_ahead hAhead]
          exact hName
      | invocation hName _ _ _ =>
          rw [token_of_ahead hAhead]
          exact hName
      | _ => cases hIs

theorem readable_access
    {left right : Expr}
    {us vs : List Token}
    {token : Token}
    {safe : Bool}
    (hLeft : left.Readable us)
    (hKind : token.kind = accessKind safe)
    (hWritten : right.WrittenAs vs)
    (hRight : right.Readable vs)
    (hLevel : Power.call.rank ≤ left.level.rank)
    (hIs : right.isReferenceOrInvocation = true) :
    Expr.Readable ⟨.access left safe right, span, type⟩
      (us ++ token :: vs) := by
  intro p s ws hOpens hAhead hStops
  rw [List.append_assoc] at hAhead
  rw [passed_append, passed_cons] at hStops ⊢
  have hMiddle := ahead_passed hAhead
  have hToken := token_of_ahead hMiddle
  have hExtender :
      token.kind.extender? = some (.member, .member) := by
    rw [hKind]
    cases safe <;> rfl
  have hStart : Reads p s left (s.passed us) := by
    refine hLeft ?_ hAhead ?_
    · exact Nat.lt_of_lt_of_le hOpens
        (Nat.le_trans hLevel left.form.level_le_opens)
    · rw [hToken]
      refine ExprForm.stopsAt_operator hExtender ?_ ?_
      · rw [ExprForm.closes_of_call_le hLevel]
        decide
      · rw [hKind]
        cases safe <;> decide
  rcases edges_of_isReferenceOrInvocation hIs with
    ⟨hFirst, hLast, hName⟩
  have hTightest (kind : TokenKind) :
      kind.EndsAbove .member :=
    kind.endsAbove_of_member_le (Nat.le_refl _)
  have hEnd :
      ReadsAt .member (s.passed us).next right
        ((s.passed us).next.passed vs) := by
    refine (hRight ?_ (ahead_next hMiddle) ?_).ends
      (hTightest _)
    · rw [hFirst]
      decide
    · refine ⟨?_, fun hIsName => hStops.notCalled ?_⟩
      · rw [hLast]
        exact (hTightest _).mono (by decide)
      · exact hName.symm.trans hIsName
  have hLoose : p.rank < Power.call.rank := hOpens
  exact reads_access (Nat.lt_trans hLoose (by decide)) hStart
    (by rw [hToken, hKind])
    (isName_of_writtenAs hWritten hIs (ahead_next hMiddle))
    hEnd hIs

theorem readable_call
    {callee : Expr}
    {us ts : List Token}
    {opening closing : Token}
    {arguments : List Argument}
    (hCallee : callee.Readable us)
    (hOpen : opening.kind = .openParen)
    (hArguments : ArgumentsReadable arguments ts)
    (hClose : closing.kind = .closeParen)
    (hLevel : Power.call.rank ≤ callee.level.rank)
    (hName : callee.form.endsWithName = false) :
    Expr.Readable ⟨.call callee arguments, span, type⟩
      (us ++ opening :: (ts ++ [closing])) := by
  intro p s ws hOpens hAhead _
  rw [List.append_assoc] at hAhead
  rw [passed_append, passed_cons, passed_append]
  have hMiddle := ahead_passed hAhead
  have hOpening := token_of_ahead hMiddle
  have hInner :
      (s.passed us).next.stream.ahead =
        ts ++ closing :: ws := by
    rw [ahead_next hMiddle]
    simp
  have hClosing := token_of_ahead (ahead_passed hInner)
  have hStart : Reads p s callee (s.passed us) := by
    refine hCallee ?_ hAhead ?_
    · exact Nat.lt_of_lt_of_le hOpens
        (Nat.le_trans hLevel callee.form.level_le_opens)
    · rw [hOpening, hOpen]
      constructor
      · rw [ExprForm.closes_of_call_le hLevel]
        exact TokenKind.endsAbove_of_member_le _ (by decide)
      · intro hEnds
        rw [hName] at hEnds
        cases hEnds
  exact reads_call hOpens hStart (by rw [hOpening, hOpen])
    (hArguments hClose hInner) (by rw [hClosing, hClose])

------------------------------------------------------------
-- Readable arguments
------------------------------------------------------------

theorem readable_named
    {token equals : Token}
    {value : Expr}
    {ts : List Token}
    (hName : token.kind.isName)
    (hEquals : equals.kind = .assignment)
    (hValue : value.Readable ts) :
    Argument.Readable ⟨some token.name, value, span⟩
      (token :: equals :: ts) := by
  intro s us hAhead hNone
  have hToken := token_of_ahead hAhead
  have hNext := token_of_ahead (ahead_next hAhead)
  have hAhead' := ahead_next (ahead_next hAhead)
  subst hToken
  rcases hValue.endsLoosest hAhead'
    (endsAbove_of_extender?_eq_none hNone _) with
    ⟨f, hCopies, hDerives⟩
  exact ⟨f, _, hCopies,
    .named ⟨hName, by rw [hNext, hEquals]⟩ hDerives⟩

theorem readable_positional
    {value : Expr}
    {ts : List Token}
    (hWritten : value.WrittenAs ts)
    (hValue : value.Readable ts)
    (hCanonical : value.isCanonical = true)
    (hPlain : value.form.isNaming = false) :
    Argument.Readable ⟨none, value, span⟩ ts := by
  intro s us hAhead hNone
  rcases hValue.endsLoosest hAhead
    (endsAbove_of_extender?_eq_none hNone _) with
    ⟨f, hCopies, hDerives⟩
  refine ⟨f, _, hCopies, .positional ?_ hDerives⟩
  intro hNamed
  rcases naming_of_writtenAs hNamed hWritten hCanonical us
    hAhead with hNaming | ⟨-, hKind⟩
  · rw [hPlain] at hNaming
    cases hNaming
  · rw [hKind] at hNone
    cases hNone

/- Arguments start, and do not end the list. -/
theorem ne_closeParen_of_writtenAs
    {x : Argument}
    {ts us : List Token}
    (hWritten : x.WrittenAs ts)
    (hAhead : s.stream.ahead = ts ++ us) :
    s.token.kind ≠ .closeParen := by
  intro hClose
  cases hWritten with
  | named hName _ _ =>
      rw [token_of_ahead hAhead] at hClose
      rw [hClose] at hName
      cases hName
  | positional hValue =>
      rcases starts_of_writtenAs hValue us hAhead with
        ⟨starter, hStart⟩
      rw [hClose] at hStart
      cases hStart

/- Behind an argument stands a comma or the parenthesis. -/
theorem extender?_of_moreWrittenAs
    {xs : List Argument}
    {ts us : List Token}
    {closing : Token}
    (hMore : MoreWrittenAs xs ts)
    (hClose : closing.kind = .closeParen)
    (hAhead : s.stream.ahead = ts ++ closing :: us) :
    s.token.kind.extender? = none := by
  cases hMore with
  | last =>
      rw [token_of_ahead hAhead, hClose]
      rfl
  | trailing hComma =>
      rw [token_of_ahead hAhead, hComma]
      rfl
  | next hComma _ _ =>
      rw [token_of_ahead hAhead, hComma]
      rfl

/- An argument is read, and then those behind it. -/
theorem readable_items
    {x : Argument}
    {xs : List Argument}
    {us ts ws : List Token}
    {closing : Token}
    (hFirst : x.Readable us)
    (hWritten : MoreWrittenAs xs ts)
    (hMore : MoreReadable xs ts)
    (hClose : closing.kind = .closeParen)
    (hAhead : s.stream.ahead = us ++ ts ++ closing :: ws) :
    ∃ y ys t,
      CopiesAll (x :: xs) (y :: ys) ∧
        Derives (.item .argument) s y t ∧
          Derives (.moreItems .argument) t ys
            (s.passed (us ++ ts)) := by
  rw [List.append_assoc] at hAhead
  have hMiddle := ahead_passed hAhead
  rcases hFirst hAhead
    (extender?_of_moreWrittenAs hWritten hClose hMiddle)
    with ⟨f, span, hCopies, hDerives⟩
  rcases hMore hClose hMiddle with ⟨ys, hOthers, hItems⟩
  rw [passed_append]
  rcases x with ⟨name, value, place⟩
  exact ⟨⟨name, f, span⟩, ys, _,
    .cons hCopies hOthers place span, hDerives, hItems⟩

theorem readable_some
    {x : Argument}
    {xs : List Argument}
    {us ts : List Token}
    (hWritten : x.WrittenAs us)
    (hFirst : x.Readable us)
    (hWrittenMore : MoreWrittenAs xs ts)
    (hMore : MoreReadable xs ts) :
    ArgumentsReadable (x :: xs) (us ++ ts) := by
  intro s closing ws hClose hAhead
  rcases readable_items hFirst hWrittenMore hMore hClose
    hAhead with ⟨y, ys, t, hCopies, hItem, hItems⟩
  rw [List.append_assoc] at hAhead
  exact ⟨y :: ys, hCopies,
    .someItems (ne_closeParen_of_writtenAs hWritten hAhead)
      hItem hItems⟩

theorem readable_next
    {comma : Token}
    {x : Argument}
    {xs : List Argument}
    {us ts : List Token}
    (hComma : comma.kind = .comma)
    (hWritten : x.WrittenAs us)
    (hFirst : x.Readable us)
    (hWrittenMore : MoreWrittenAs xs ts)
    (hMore : MoreReadable xs ts) :
    MoreReadable (x :: xs) (comma :: (us ++ ts)) := by
  intro s closing ws hClose hAhead
  have hToken := token_of_ahead hAhead
  have hRest :
      s.next.stream.ahead = us ++ ts ++ closing :: ws :=
    ahead_next hAhead
  rcases readable_items hFirst hWrittenMore hMore hClose
    hRest with ⟨y, ys, t, hCopies, hItem, hItems⟩
  rw [List.append_assoc] at hRest
  rw [passed_cons]
  exact ⟨y :: ys, hCopies,
    .nextItem (by rw [hToken, hComma])
      (ne_closeParen_of_writtenAs hWritten hRest) hItem
      hItems⟩

theorem readable_none : ArgumentsReadable [] [] := by
  intro s closing us hClose hAhead
  refine ⟨[], .nil, .noItems ?_⟩
  rw [token_of_ahead hAhead]
  exact hClose

theorem readable_last : MoreReadable [] [] := by
  intro s closing us hClose hAhead
  refine ⟨[], .nil, .lastItem ?_⟩
  rw [token_of_ahead hAhead, hClose]
  decide

theorem readable_trailing
    {comma : Token}
    (hComma : comma.kind = .comma) :
    MoreReadable [] [comma] := by
  intro s closing us hClose hAhead
  refine ⟨[], .nil, .trailingComma ?_ ?_⟩
  · rw [token_of_ahead hAhead, hComma]
  · rw [token_of_ahead (ahead_next hAhead)]
    exact hClose

------------------------------------------------------------
-- Canonical operations
------------------------------------------------------------

mutual

/- Canonical forms are read as they are written. -/
theorem readable_of_writtenForm :
    ∀ {f : ExprForm} {ts : List Token},
      f.WrittenAs ts →
        f.isOperation = true →
          f.isCanonical = true →
            ∀ span type, Expr.Readable ⟨f, span, type⟩ ts
  | _, _, .int hKind hValue, hOperation, _, _, _ =>
      readable_int hKind hValue hOperation
  | _, _, .boolean hKind, _, _, _, _ =>
      readable_boolean hKind
  | _, _, .reference hName, _, _, _, _ =>
      readable_reference hName
  | _, _, .invocation hName hOpen hArguments hClose,
      hOperation, hCanonical, _, _ =>
      readable_invocation hName hOpen
        (readable_of_argumentsWrittenAs hArguments
          hOperation hCanonical)
        hClose
  | _, _, .call hCallee hOpen hArguments hClose, hOperation,
      hCanonical, _, _ => by
      rcases Bool.and_eq_true_iff.1 hOperation with
        ⟨hLeft, hRight⟩
      rcases ExprForm.isCanonical_call_iff.1 hCanonical with
        ⟨⟨⟨hLevel, hName⟩, hFirst⟩, hSecond⟩
      exact readable_call
        (readable_of_writtenAs hCallee hLeft hFirst) hOpen
        (readable_of_argumentsWrittenAs hArguments hRight
          hSecond)
        hClose hLevel hName
  | _, _, .access hLeft hKind hRight, hOperation,
      hCanonical, _, _ => by
      rcases Bool.and_eq_true_iff.1 hOperation with
        ⟨hIsLeft, hIsRight⟩
      rcases (ExprForm.isCanonical_access_iff _).1
          hCanonical with
        ⟨⟨⟨hLevel, hIs⟩, hFirst⟩, hSecond⟩
      exact readable_access
        (readable_of_writtenAs hLeft hIsLeft hFirst) hKind
        hRight
        (readable_of_writtenAs hRight hIsRight hSecond)
        hLevel hIs
  | _, _, .binary hLeft hOperator hRight, hOperation,
      hCanonical, _, _ => by
      rcases Bool.and_eq_true_iff.1 hOperation with
        ⟨hIsLeft, hIsRight⟩
      rcases (ExprForm.isCanonical_binary_iff _).1
          hCanonical with
        ⟨⟨⟨hLevel, hOther⟩, hFirst⟩, hSecond⟩
      exact readable_binary
        (readable_of_writtenAs hLeft hIsLeft hFirst)
        hOperator
        (readable_of_writtenAs hRight hIsRight hSecond)
        hLevel hOther
  | _, _, .unary hKind hOperand, hOperation, hCanonical, _,
      _ => by
      rcases (ExprForm.isCanonical_unary_iff _).1
          hCanonical with
        ⟨hLevel, hInner⟩
      exact readable_unary hKind
        (readable_of_writtenAs hOperand hOperation hInner)
        hLevel
  | _, _, .assignment hTarget hOperator hValue, hOperation,
      hCanonical, _, _ => by
      rcases Bool.and_eq_true_iff.1 hOperation with
        ⟨hIsLeft, hIsRight⟩
      rcases (ExprForm.isCanonical_assignment_iff _).1
          hCanonical with
        ⟨⟨hLevel, hFirst⟩, hSecond⟩
      exact readable_assignment
        (readable_of_writtenAs hTarget hIsLeft hFirst)
        hOperator
        (readable_of_writtenAs hValue hIsRight hSecond)
        hLevel
  | _, _, .parenthesized hOpen hInner hClose, hOperation,
      hCanonical, _, _ =>
      readable_parenthesized hOpen
        (readable_of_writtenAs hInner hOperation hCanonical)
        hClose

/- Canonical operations are read as they are written. -/
theorem readable_of_writtenAs :
    ∀ {e : Expr} {ts : List Token},
      e.WrittenAs ts →
        e.isOperation = true →
          e.isCanonical = true → e.Readable ts
  | _, _, .intro hForm, hOperation, hCanonical =>
      readable_of_writtenForm hForm hOperation hCanonical _ _

theorem readable_of_argumentWrittenAs :
    ∀ {x : Argument} {ts : List Token},
      x.WrittenAs ts →
        x.value.isOperation = true →
          x.value.isCanonical = true →
            (x.name.isSome || !x.value.form.isNaming) =
                true →
              x.Readable ts
  | _, _, .named hName hEquals hValue, hOperation,
      hCanonical, _ =>
      readable_named hName hEquals
        (readable_of_writtenAs hValue hOperation hCanonical)
  | _, _, .positional hValue, hOperation, hCanonical,
      hPlain =>
      readable_positional hValue
        (readable_of_writtenAs hValue hOperation hCanonical)
        hCanonical ((Bool.not_eq_true' _).mp hPlain)

theorem readable_of_argumentsWrittenAs :
    ∀ {xs : List Argument} {ts : List Token},
      ArgumentsWrittenAs xs ts →
        areOperations xs = true →
          areCanonical xs = true → ArgumentsReadable xs ts
  | _, _, .none, _, _ => readable_none
  | ⟨_, _, _⟩ :: _, _, .some hFirst hMore, hOperations,
      hCanonical => by
      rw [areCanonical_cons_iff] at hCanonical
      rcases Bool.and_eq_true_iff.1 hOperations with
        ⟨hIsValue, hAre⟩
      exact readable_some hFirst
        (readable_of_argumentWrittenAs hFirst hIsValue
          hCanonical.1.2 hCanonical.1.1)
        hMore
        (readable_of_moreWrittenAs hMore hAre
          hCanonical.2)

theorem readable_of_moreWrittenAs :
    ∀ {xs : List Argument} {ts : List Token},
      MoreWrittenAs xs ts →
        areOperations xs = true →
          areCanonical xs = true → MoreReadable xs ts
  | _, _, .last, _, _ => readable_last
  | _, _, .trailing hComma, _, _ => readable_trailing hComma
  | ⟨_, _, _⟩ :: _, _, .next hComma hNext hMore,
      hOperations, hCanonical => by
      rw [areCanonical_cons_iff] at hCanonical
      rcases Bool.and_eq_true_iff.1 hOperations with
        ⟨hIsValue, hAre⟩
      exact readable_next hComma hNext
        (readable_of_argumentWrittenAs hNext hIsValue
          hCanonical.1.2 hCanonical.1.1)
        hMore
        (readable_of_moreWrittenAs hMore hAre
          hCanonical.2)

end

end SourceCheck
