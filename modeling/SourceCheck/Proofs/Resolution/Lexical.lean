import SourceCheck.Proofs.Resolution.Settling
import SourceCheck.Proofs.Syntax.Merging

/-
  Walks over expressions that bind names lexically.

  For each kind of tree there is a property that holds if
  the walk over it settles the uses of its names, in every
  environment that is seen in the window of the text where
  the tree stands.  The property of a tree follows from the
  properties of its parts.

  Key definitions include:
    * `Lexical`
    * `Resolves`
    * `ResolvesOption`
    * `ResolvesArguments`

  Key theorems include:
    * `resolves_reference`
    * `resolves_invocation`
    * `ResolvesForm.expr`
-/

namespace SourceCheck

open SourceCheck.Resolver
open SourceCheck.Alignment

------------------------------------------------------------
-- Walks
------------------------------------------------------------

/-
  In the window from `a` up to `b` of a scope the walk
  settles what it meets.  It declares the definitions from
  `lo` up to `hi`, in scopes of their own.
-/
structure Lexical
    {α : Type}
    (y : Symbols)
    (scope : ScopeId)
    (a b lo hi : Nat)
    (p : Surroundings → Resolver α)
    (Q : Environment → α → Prop) :
    Prop where
  le : lo ≤ hi
  settles :
    ∀ {around env},
      around.scope = some scope →
        y.Sees a b (some scope) env →
          Settles y (Set.Ico lo hi) env (p around) []
            (Q env)

/- The walk settles the uses in a form. -/
def ResolvesForm
    (y : Symbols)
    (scope : ScopeId)
    (a b lo hi : Nat)
    (span : Span)
    (form : ExprForm) :
    Prop :=
  Lexical y scope a b lo hi
    (fun around => resolveForm around span.start form)
    (fun env r =>
      r.1.uses env span =
        (form.uses env span).map Use.settled)

/-
  The walk settles the uses in an expression, where it
  stands alone and where it is the right side of an access.
-/
structure Resolves
    (y : Symbols)
    (scope : ScopeId)
    (a b lo hi : Nat)
    (e : Expr) :
    Prop where
  alone :
    Lexical y scope a b lo hi
      (fun around => resolveExpr around e)
      (fun env r =>
        r.1.uses env = (e.uses env).map Use.settled)
  member :
    e.isReferenceOrInvocation →
      ∀ left p,
        Lexical y scope a b lo hi
          (fun around => resolveMember around left p e)
          (fun env r =>
            r.1.usesOfMember env =
              (e.usesOfMember env).map Use.settled)

/- The walk settles the uses in what may be left out. -/
inductive ResolvesOption
    (y : Symbols)
    (scope : ScopeId)
    (a b lo hi : Nat) :
    Option Expr → Prop where
  | none
      (hLe : lo ≤ hi) :
      ResolvesOption y scope a b lo hi none
  | some {e}
      (hExpr : Resolves y scope a b lo hi e) :
      ResolvesOption y scope a b lo hi (some e)

/- The walk settles the uses in expressions. -/
inductive ResolvesExprs
    (y : Symbols)
    (scope : ScopeId)
    (a b hi : Nat) :
    Nat → List Expr → Prop where
  | nil {lo}
      (hLe : lo ≤ hi) :
      ResolvesExprs y scope a b hi lo []
  | cons {lo mid e es}
      (hFirst : Resolves y scope a b lo mid e)
      (hRest : ResolvesExprs y scope a b hi mid es) :
      ResolvesExprs y scope a b hi lo (e :: es)

/- The walk settles the uses in arguments. -/
def ResolvesArguments
    (y : Symbols)
    (scope : ScopeId)
    (a b lo hi : Nat)
    (arguments : List Argument) :
    Prop :=
  Lexical y scope a b lo hi
    (fun around => resolveArguments around arguments)
    (fun env r =>
      usesInArguments env r.1 =
        (usesInArguments env arguments).map Use.settled)

variable {y : Symbols}
variable {scope inner : ScopeId}
variable {a b c d : Nat}
variable {lo mid hi first last : Nat}
variable {span : Span}

theorem Lexical.mono
    {α : Type}
    {p : Surroundings → Resolver α}
    {Q : Environment → α → Prop}
    (hLexical : Lexical y scope a b lo hi p Q)
    (hStart : c ≤ a)
    (hStop : b ≤ d)
    (hFirst : first ≤ lo)
    (hLast : hi ≤ last) :
    Lexical y scope c d first last p Q where
  le := Nat.le_trans hFirst (Nat.le_trans hLexical.le hLast)
  settles hScope hSees :=
    (hLexical.settles hScope (hSees.mono hStart hStop)).imp
      (fun _ hMember =>
        ⟨Nat.le_trans hFirst hMember.1,
          Nat.lt_of_lt_of_le hMember.2 hLast⟩)
      (fun _ h => h) (fun _ h => h)

theorem Resolves.mono
    {e : Expr}
    (hExpr : Resolves y scope a b lo hi e)
    (hStart : c ≤ a)
    (hStop : b ≤ d)
    (hFirst : first ≤ lo)
    (hLast : hi ≤ last) :
    Resolves y scope c d first last e where
  alone := hExpr.alone.mono hStart hStop hFirst hLast
  member hIs left p :=
    (hExpr.member hIs left p).mono hStart hStop hFirst hLast

theorem ResolvesOption.mono
    {o : Option Expr}
    (hOption : ResolvesOption y scope a b lo hi o)
    (hStart : c ≤ a)
    (hStop : b ≤ d)
    (hFirst : first ≤ lo)
    (hLast : hi ≤ last) :
    ResolvesOption y scope c d first last o := by
  cases hOption with
  | none hLe =>
      exact .none (Nat.le_trans hFirst
        (Nat.le_trans hLe hLast))
  | some hExpr =>
      exact .some (hExpr.mono hStart hStop hFirst hLast)

theorem ResolvesExprs.mono
    {es : List Expr}
    (hExprs : ResolvesExprs y scope a b hi lo es)
    (hStart : c ≤ a)
    (hStop : b ≤ d) :
    ResolvesExprs y scope c d hi lo es := by
  induction hExprs with
  | nil hLe => exact .nil hLe
  | cons hFirst _ ih =>
      exact .cons
        (hFirst.mono hStart hStop (Nat.le_refl _)
          (Nat.le_refl _)) ih

theorem ResolvesExprs.le
    {es : List Expr}
    (hExprs : ResolvesExprs y scope a b hi lo es) :
    lo ≤ hi := by
  induction hExprs with
  | nil hLe => exact hLe
  | cons hFirst _ ih => exact Nat.le_trans hFirst.alone.le ih

------------------------------------------------------------
-- Parts of expressions
------------------------------------------------------------

/- What may be left out is walked if it is there. -/
theorem ResolvesOption.lexical
    {o : Option Expr}
    (hOption : ResolvesOption y scope a b lo hi o) :
    Lexical y scope a b lo hi
      (fun around => resolveOption around o)
      (fun env r =>
        usesInOption env r.1 =
          (usesInOption env o).map Use.settled) := by
  cases hOption with
  | none hLe => exact ⟨hLe, fun _ _ => settles_pure rfl⟩
  | some hExpr =>
      refine ⟨hExpr.alone.le, fun hScope hSees => ?_⟩
      exact (hExpr.alone.settles hScope hSees).last
        fun r hr => settles_pure hr

theorem ResolvesExprs.lexical
    {es : List Expr}
    (hExprs : ResolvesExprs y scope a b hi lo es) :
    Lexical y scope a b lo hi
      (fun around => resolveExprs around es)
      (fun env r =>
        usesInExprs env r =
          (usesInExprs env es).map Use.settled) := by
  induction hExprs with
  | nil hLe => exact ⟨hLe, fun _ _ => settles_pure rfl⟩
  | cons hFirst hRest ih =>
      refine ⟨Nat.le_trans hFirst.alone.le ih.le,
        fun hScope hSees => ?_⟩
      refine (hFirst.alone.settles hScope hSees).bind
        hFirst.alone.le ih.le fun r hr => ?_
      refine (ih.settles hScope hSees).last
        fun rs hrs => settles_pure ?_
      exact Use.settled_append hr hrs

theorem resolvesArguments_nil
    (hLe : lo ≤ hi) :
    ResolvesArguments y scope a b lo hi [] :=
  ⟨hLe, fun _ _ => settles_pure rfl⟩

theorem resolvesArguments_cons
    {x : Argument}
    {xs : List Argument}
    (hFirst : Resolves y scope a b lo mid x.value)
    (hRest : ResolvesArguments y scope a b mid hi xs) :
    ResolvesArguments y scope a b lo hi (x :: xs) := by
  rcases x with ⟨name, value, span⟩
  refine ⟨Nat.le_trans hFirst.alone.le hRest.le,
    fun hScope hSees => ?_⟩
  refine (hFirst.alone.settles hScope hSees).bind
    hFirst.alone.le hRest.le fun r hr => ?_
  refine (hRest.settles hScope hSees).last
    fun rs hrs => settles_pure ?_
  exact Use.settled_append hr hrs

/- An expression is walked as its form is. -/
theorem ResolvesForm.lexical
    {form : ExprForm}
    (hForm : ResolvesForm y scope a b lo hi span form) :
    Lexical y scope a b lo hi
      (fun around => resolveExpr around (.new form span))
      (fun env r =>
        r.1.uses env =
          ((Expr.new form span).uses env).map
            Use.settled) := by
  refine ⟨hForm.le, fun hScope hSees => ?_⟩
  exact (hForm.settles hScope hSees).last
    fun r hr => settles_pure hr

/- Of most forms expressions are no names and no calls. -/
theorem ResolvesForm.expr
    {form : ExprForm}
    (hForm : ResolvesForm y scope a b lo hi span form)
    (hOther :
      (Expr.new form span).isReferenceOrInvocation =
        false) :
    Resolves y scope a b lo hi (.new form span) where
  alone := hForm.lexical
  member hIs := by
    rw [hOther] at hIs
    cases hIs

/- Neighbouring texts may be one text. -/
theorem ResolvesExprs.consMerged
    {e : Expr}
    {es : List Expr}
    (hFirst : Resolves y scope a b lo mid e)
    (hRest : ResolvesExprs y scope a b hi mid es) :
    ResolvesExprs y scope a b hi lo (consMerged e es) := by
  unfold SourceCheck.consMerged
  split
  · cases hRest with
    | cons hSecond hOthers =>
        have hLe :=
          Nat.le_trans hFirst.alone.le hSecond.alone.le
        have hText (value : String) (span : Span) :
            Resolves y scope a b lo _
              (.new (.string value) span) :=
          ResolvesForm.expr
            ⟨hLe, fun _ _ => settles_pure rfl⟩ rfl
        exact .cons (hText _ _) hOthers
  · exact .cons hFirst hRest

theorem ResolvesExprs.mergeTexts
    {es : List Expr}
    (hExprs : ResolvesExprs y scope a b hi lo es) :
    ResolvesExprs y scope a b hi lo (mergeTexts es) := by
  induction hExprs with
  | nil hLe => exact .nil hLe
  | cons hFirst _ ih =>
      rw [mergeTexts_cons]
      exact .consMerged hFirst ih

------------------------------------------------------------
-- Names and calls of names
------------------------------------------------------------

theorem resolvesForm_reference
    (name : String)
    (hStart : a ≤ span.start.offset)
    (hStop : span.start.offset < b)
    (hLe : lo ≤ hi) :
    ResolvesForm y scope a b lo hi span
      (.reference name .unknown) := by
  refine ⟨hLe, fun hScope hSees => ?_⟩
  unfold resolveForm
  refine (settles_reference hScope hSees hStart hStop
    name).last fun r hr => settles_pure ?_
  change [_] = List.map Use.settled [_]
  simp only [hr, List.map_cons, List.map_nil, Use.settled]

theorem resolves_reference
    (name : String)
    (hStart : a ≤ span.start.offset)
    (hStop : span.start.offset < b)
    (hLe : lo ≤ hi) :
    Resolves y scope a b lo hi (.reference name span) where
  alone :=
    (resolvesForm_reference name hStart hStop hLe).lexical
  member _ left p := by
    refine ⟨hLe, fun _ _ => ?_⟩
    exact Helps.settles
      (helps_memberProperty left name .unknown _ _ _ _)
      fun _ => settles_pure rfl

theorem resolvesForm_invocation
    (name : String)
    {arguments : List Argument}
    (hStart : a ≤ span.start.offset)
    (hStop : span.start.offset < b)
    (hArguments :
      ResolvesArguments y scope a b lo hi arguments) :
    ResolvesForm y scope a b lo hi span
      (.invocation name arguments .unknown) := by
  refine ⟨hArguments.le, fun hScope hSees => ?_⟩
  unfold resolveForm
  refine (hArguments.settles hScope hSees).last
    fun r hr => ?_
  refine (settles_invocation hScope hSees hStart hStop name
    r.2).last fun u hu => settles_pure ?_
  change _ :: _ = List.map Use.settled (_ :: _)
  simp only [hr, hu, List.map_cons, Use.settled]

theorem resolves_invocation
    (name : String)
    {arguments : List Argument}
    (hStart : a ≤ span.start.offset)
    (hStop : span.start.offset < b)
    (hArguments :
      ResolvesArguments y scope a b lo hi arguments) :
    Resolves y scope a b lo hi
      (.invocation name arguments span) where
  alone :=
    (resolvesForm_invocation name hStart hStop
      hArguments).lexical
  member _ left p := by
    refine ⟨hArguments.le, fun hScope hSees => ?_⟩
    refine (hArguments.settles hScope hSees).last
      fun r hr => ?_
    exact Helps.settles
      (helps_memberCall left name r.2 .unknown _ _ _ _)
      fun _ => settles_pure hr

------------------------------------------------------------
-- Forms without scopes
------------------------------------------------------------

namespace ResolvesForm

theorem int
    (value : Int)
    (hLe : lo ≤ hi) :
    ResolvesForm y scope a b lo hi span (.int value) :=
  ⟨hLe, fun _ _ => settles_pure rfl⟩

theorem long
    (value : Int)
    (hLe : lo ≤ hi) :
    ResolvesForm y scope a b lo hi span (.long value) :=
  ⟨hLe, fun _ _ => settles_pure rfl⟩

theorem boolean
    (value : Bool)
    (hLe : lo ≤ hi) :
    ResolvesForm y scope a b lo hi span (.boolean value) :=
  ⟨hLe, fun _ _ => settles_pure rfl⟩

theorem string
    (value : String)
    (hLe : lo ≤ hi) :
    ResolvesForm y scope a b lo hi span (.string value) :=
  ⟨hLe, fun _ _ => settles_pure rfl⟩

theorem template
    {parts : List Expr}
    (hParts : ResolvesExprs y scope a b hi lo parts) :
    ResolvesForm y scope a b lo hi span
      (.template parts) := by
  refine ⟨hParts.le, fun hScope hSees => ?_⟩
  unfold resolveForm
  exact (hParts.lexical.settles hScope hSees).last
    fun r hr => settles_pure hr

theorem call
    {callee : Expr}
    {arguments : List Argument}
    (hCallee : Resolves y scope a b lo mid callee)
    (hArguments :
      ResolvesArguments y scope a b mid hi arguments) :
    ResolvesForm y scope a b lo hi span
      (.call callee arguments) := by
  have hLow := hCallee.alone.le
  have hHigh := hArguments.le
  refine ⟨Nat.le_trans hLow hHigh, fun hScope hSees => ?_⟩
  unfold resolveForm
  refine (hCallee.alone.settles hScope hSees).bind hLow
    hHigh fun r hr => ?_
  refine (hArguments.settles hScope hSees).last
    fun u hu => ?_
  refine Helps.settles (helps_callType "" r.2 u.2 _ _)
    fun _ => settles_pure ?_
  exact Use.settled_append hr hu

theorem access
    {left right : Expr}
    {safe : Bool}
    (hLeft : Resolves y scope a b lo mid left)
    (hRight : Resolves y scope a b mid hi right)
    (hIs : right.isReferenceOrInvocation) :
    ResolvesForm y scope a b lo hi span
      (.access left safe right) := by
  have hLow := hLeft.alone.le
  have hHigh := hRight.alone.le
  refine ⟨Nat.le_trans hLow hHigh, fun hScope hSees => ?_⟩
  unfold resolveForm
  refine (hLeft.alone.settles hScope hSees).bind hLow hHigh
    fun r hr => ?_
  refine ((hRight.member hIs r.2 span.start).settles hScope
    hSees).last fun u hu => settles_pure ?_
  exact Use.settled_append hr hu

theorem binary
    {left right : Expr}
    {operator : BinaryOperator}
    (hLeft : Resolves y scope a b lo mid left)
    (hRight : Resolves y scope a b mid hi right) :
    ResolvesForm y scope a b lo hi span
      (.binary left operator right) := by
  have hLow := hLeft.alone.le
  have hHigh := hRight.alone.le
  refine ⟨Nat.le_trans hLow hHigh, fun hScope hSees => ?_⟩
  unfold resolveForm
  refine (hLeft.alone.settles hScope hSees).bind hLow hHigh
    fun r hr => ?_
  refine (hRight.alone.settles hScope hSees).last
    fun u hu => ?_
  refine Helps.settles (helps_binaryType operator r.2 u.2 _ _)
    fun _ => settles_pure ?_
  exact Use.settled_append hr hu

theorem unary
    {operand : Expr}
    {operator : UnaryOperator}
    (hOperand : Resolves y scope a b lo hi operand) :
    ResolvesForm y scope a b lo hi span
      (.unary operator operand) := by
  refine ⟨hOperand.alone.le, fun hScope hSees => ?_⟩
  unfold resolveForm
  refine (hOperand.alone.settles hScope hSees).last
    fun r hr => ?_
  exact Helps.settles (helps_unaryType operator r.2 _ _)
    fun _ => settles_pure hr

theorem assignment
    {target value : Expr}
    {operator : AssignmentOperator}
    (hTarget : Resolves y scope a b lo mid target)
    (hValue : Resolves y scope a b mid hi value) :
    ResolvesForm y scope a b lo hi span
      (.assignment target operator value) := by
  have hLow := hTarget.alone.le
  have hHigh := hValue.alone.le
  refine ⟨Nat.le_trans hLow hHigh, fun hScope hSees => ?_⟩
  unfold resolveForm
  refine (hTarget.alone.settles hScope hSees).bind hLow
    hHigh fun r hr => ?_
  refine (hValue.alone.settles hScope hSees).last
    fun u hu => ?_
  refine Helps.settles
    (helps_checkAssignment (helps_checkTarget_self r.1) r.2
      operator u.2 _ _)
    fun _ => settles_pure ?_
  exact Use.settled_append hr hu

theorem parenthesized
    {e : Expr}
    (hInner : Resolves y scope a b lo hi e) :
    ResolvesForm y scope a b lo hi span
      (.parenthesized e) := by
  refine ⟨hInner.alone.le, fun hScope hSees => ?_⟩
  unfold resolveForm
  exact (hInner.alone.settles hScope hSees).last
    fun r hr => settles_pure hr

theorem conditional
    {condition thenBranch : Expr}
    {elseBranch : Option Expr}
    (hCondition : Resolves y scope a b lo mid condition)
    (hThen : Resolves y scope a b mid first thenBranch)
    (hElse :
      ResolvesOption y scope a b first hi elseBranch) :
    ResolvesForm y scope a b lo hi span
      (.conditional condition thenBranch elseBranch) := by
  have hLow := hCondition.alone.le
  have hMiddle := hThen.alone.le
  have hHigh := hElse.lexical.le
  have hRest := Nat.le_trans hMiddle hHigh
  refine ⟨Nat.le_trans hLow hRest, fun hScope hSees => ?_⟩
  unfold resolveForm
  refine (hCondition.alone.settles hScope hSees).bind hLow
    hRest fun r hr => ?_
  refine Helps.settles (helps_checkAssignable .boolean r.2 _ _)
    fun _ => ?_
  refine (hThen.alone.settles hScope hSees).bind hMiddle
    hHigh fun u hu => ?_
  refine (hElse.lexical.settles hScope hSees).last
    fun v hv => settles_pure ?_
  exact Use.settled_append (Use.settled_append hr hu) hv

theorem ret
    {value : Option Expr}
    (hValue : ResolvesOption y scope a b lo hi value) :
    ResolvesForm y scope a b lo hi span (.ret value) := by
  cases hValue with
  | none hLe =>
      refine ⟨hLe, fun {around env} hScope hSees => ?_⟩
      unfold resolveForm
      cases around.returns with
      | none => exact settles_pure rfl
      | some expected =>
          exact Helps.settles
            (helps_checkAssignable expected .unit _ _)
            fun _ => settles_pure rfl
  | some hExpr =>
      refine ⟨hExpr.alone.le,
        fun {around env} hScope hSees => ?_⟩
      unfold resolveForm
      refine (hExpr.alone.settles hScope hSees).last
        fun r hr => ?_
      cases around.returns with
      | none => exact settles_pure hr
      | some expected =>
          exact Helps.settles
            (helps_checkAssignable expected r.2 _ _)
            fun _ => settles_pure hr

end ResolvesForm

end SourceCheck
