import SourceCheck.Proofs.Resolution.Scoping
import SourceCheck.Proofs.Syntax.Equivalence

/-
  Bounds of what trees refer to.

  A tree names scopes and definitions by their numbers, and
  its expressions start at offsets.  In a tree that was read
  between two states the numbers are those that were given
  out up to the second state, and definitions are made with
  numbers that were free in the first one.

  Key definitions include:
    * `Bounds`
    * `Expr.Bounded`

  Key theorems include:
    * `Derives.bounded`
-/

namespace SourceCheck

open SourceCheck.Parser
open SourceCheck.ParserState

------------------------------------------------------------
-- Bounded trees
------------------------------------------------------------

/-
  Expressions start before an offset, and scopes and
  definitions are among the first ones.  Those definitions
  that a tree makes are not among the very first.
-/
structure Bounds where
  offset : Nat
  scopes : Nat
  first : Nat
  definitions : Nat

/- A definition of the tree. -/
def Bounds.Makes (b : Bounds) (id : DefinitionId) : Prop :=
  b.first ≤ id ∧ id < b.definitions

/- The definition that a name refers to, if it has one. -/
def Target.Bounded (b : Bounds) (target : Target) : Prop :=
  ∀ id, target.definition = some id → id < b.definitions

mutual

def ExprForm.Bounded (b : Bounds) : ExprForm → Prop
  | .int _ => True
  | .long _ => True
  | .boolean _ => True
  | .string _ => True
  | .template parts => boundedExprs b parts
  | .reference _ target => target.Bounded b
  | .invocation _ arguments _ => boundedArguments b arguments
  | .call callee arguments =>
      callee.Bounded b ∧ boundedArguments b arguments
  | .access left _ right => left.Bounded b ∧ right.Bounded b
  | .binary left _ right => left.Bounded b ∧ right.Bounded b
  | .unary _ operand => operand.Bounded b
  | .assignment target _ value =>
      target.Bounded b ∧ value.Bounded b
  | .parenthesized inner => inner.Bounded b
  | .block statements scope =>
      scope < b.scopes ∧ boundedStatements b statements
  | .conditional condition thenBranch elseBranch =>
      condition.Bounded b ∧ thenBranch.Bounded b ∧
        boundedOption b elseBranch
  | .function parameters _ body scope =>
      scope < b.scopes ∧ boundedParameters b parameters ∧
        body.Bounded b
  | .lambda parameters body scope =>
      scope < b.scopes ∧ boundedParameters b parameters ∧
        body.Bounded b
  | .ret value => boundedOption b value

def Expr.Bounded (b : Bounds) : Expr → Prop
  | ⟨form, span, _⟩ =>
      span.start.offset < b.offset ∧ form.Bounded b

def boundedOption (b : Bounds) : Option Expr → Prop
  | none => True
  | some e => e.Bounded b

def boundedExprs (b : Bounds) : List Expr → Prop
  | [] => True
  | e :: es => e.Bounded b ∧ boundedExprs b es

def boundedArguments (b : Bounds) : List Argument → Prop
  | [] => True
  | ⟨_, value, _⟩ :: others =>
      value.Bounded b ∧ boundedArguments b others

def boundedParameters (b : Bounds) : List Parameter → Prop
  | [] => True
  | ⟨_, _, fallback, definition, _⟩ :: others =>
      (b.Makes definition ∧ boundedOption b fallback) ∧
        boundedParameters b others

def boundedStatements (b : Bounds) : List Statement → Prop
  | [] => True
  | x :: others => x.Bounded b ∧ boundedStatements b others

def Statement.Bounded (b : Bounds) : Statement → Prop
  | .expression e => e.Bounded b
  | .variable v => v.Bounded b
  | .function f => f.Bounded b

def VariableDecl.Bounded (b : Bounds) : VariableDecl → Prop
  | ⟨_, _, _, initializer, definition, _⟩ =>
      b.Makes definition ∧ boundedOption b initializer

def FunctionDecl.Bounded (b : Bounds) : FunctionDecl → Prop
  | ⟨_, parameters, _, body, scope, definition, _⟩ =>
      (scope < b.scopes ∧ b.Makes definition) ∧
        boundedParameters b parameters ∧ boundedOption b body

end

/- A declaration within bounds. -/
def Declaration.Bounded (b : Bounds) : Declaration → Prop
  | .function f => f.Bounded b
  | .property v => v.Bounded b

------------------------------------------------------------
-- Runs within bounds
------------------------------------------------------------

variable {b : Bounds}
variable {s t u : ParserState}
variable {bs : List Binding}

/-
  The run starts behind the very first definitions, and what
  is given out up to its end is within bounds.
-/
structure Bounds.Covers
    (b : Bounds)
    (s t : ParserState) :
    Prop where
  regular : s.Regular
  first_le : b.first ≤ s.defined
  reach_le : t.reach ≤ b.offset
  scopes_le : t.symbols.scopes.size ≤ b.scopes
  defined_le : t.defined ≤ b.definitions

namespace Bounds.Covers

/- The first part of a run that is covered. -/
theorem first
    (hCovers : b.Covers s u)
    (hRest : t.Leads u bs) :
    b.Covers s t where
  regular := hCovers.regular
  first_le := hCovers.first_le
  reach_le := Nat.le_trans hRest.reach_le hCovers.reach_le
  scopes_le := Nat.le_trans hRest.size_le hCovers.scopes_le
  defined_le :=
    Nat.le_trans hRest.defined_le hCovers.defined_le

/- The rest of a run that is covered. -/
theorem rest
    (hCovers : b.Covers s u)
    (hFirst : s.Leads t bs) :
    b.Covers t u where
  regular := hFirst.regular
  first_le := Nat.le_trans hCovers.first_le hFirst.defined_le
  reach_le := hCovers.reach_le
  scopes_le := hCovers.scopes_le
  defined_le := hCovers.defined_le

theorem next (hCovers : b.Covers s t) :
    b.Covers s.next t :=
  hCovers.rest (.next hCovers.regular)

/- A run in a scope of its own. -/
theorem opened (hCovers : b.Covers s t) :
    b.Covers s.opened t :=
  ⟨hCovers.regular.opened, hCovers.first_le,
    hCovers.reach_le, hCovers.scopes_le, hCovers.defined_le⟩

/- The run up to where the innermost scope is closed. -/
theorem of_closed (hCovers : b.Covers s t.closed) :
    b.Covers s t :=
  ⟨hCovers.regular, hCovers.first_le, hCovers.reach_le,
    hCovers.scopes_le, hCovers.defined_le⟩

/- A token that the run passes starts within bounds. -/
theorem offset_lt
    (hCovers : b.Covers s t)
    (hMore : s.token.kind ≠ .eof)
    (hRest : s.next.Leads t bs) :
    s.token.span.start.offset < b.offset :=
  Nat.lt_of_lt_of_le
    (hCovers.regular.offset_lt_reach_next hMore)
    (Nat.le_trans hRest.reach_le hCovers.reach_le)

/- A scope that the run opens is within bounds. -/
theorem newScope_lt
    (hCovers : b.Covers s t)
    (hRest : s.opened.Leads t bs) :
    s.newScope < b.scopes := by
  have hSize :
      s.opened.symbols.scopes.size =
        s.symbols.scopes.size + 1 :=
    Array.size_push _
  have hSizes := hRest.size_le
  rw [hSize] at hSizes
  exact Nat.lt_of_succ_le
    (Nat.le_trans hSizes hCovers.scopes_le)

/- A definition that the run makes is within bounds. -/
theorem makes
    {d : Definition}
    {id : DefinitionId}
    (hCovers : b.Covers s t)
    (hDeclares : s.Declares d id t) :
    b.Makes id := by
  rcases hDeclares.defined_eq with ⟨rfl, hDefined⟩
  have hEnd := hCovers.defined_le
  rw [hDefined] at hEnd
  exact ⟨hCovers.first_le, hEnd⟩

end Bounds.Covers

------------------------------------------------------------
-- Bounds of what is derived
------------------------------------------------------------

section Phrases

variable (b : Bounds)

/- An item is within bounds. -/
def Item.Bounded : (i : Item) → i.Result → Prop
  | .argument, x => x.value.Bounded b
  | .parameter, p =>
      b.Makes p.definition ∧ boundedOption b p.fallback
  | .lambdaParameter, p =>
      b.Makes p.definition ∧ boundedOption b p.fallback
  | .entry, _ => True

/- Items are within bounds. -/
def Item.AllBounded : (i : Item) → List i.Result → Prop
  | .argument, xs => boundedArguments b xs
  | .parameter, ps => boundedParameters b ps
  | .lambdaParameter, ps => boundedParameters b ps
  | .entry, _ => True

/-
  The tree of a phrase is within bounds, if so is what stands
  before it.
-/
def Phrase.Bounded : (phrase : Phrase) → phrase.Result → Prop
  | .expression _, e => e.Bounded b
  | .extensions _ left, e => left.Bounded b → e.Bounded b
  | .start _ token, e =>
      token.span.start.offset < b.offset → e.Bounded b
  | .extension _ left _ _, e => left.Bounded b → e.Bounded b
  | .behind _, o => boundedOption b o
  | .item i, x => i.Bounded b x
  | .items i, xs => i.AllBounded b xs
  | .moreItems i, xs => i.AllBounded b xs
  | .signature, r => boundedParameters b r.1
  | .body, e => e.Bounded b
  | .namedBody, o => boundedOption b o
  | .parts, xs => boundedExprs b (xs.map (·.expression))
  | .block token, e =>
      token.span.start.offset < b.offset → e.Bounded b
  | .statements, xs => boundedStatements b xs
  | .statement, x => x.Bounded b
  | .variableDecl _, v => v.Bounded b
  | .functionDecl, f => f.Bounded b

end Phrases

theorem Expr.bounded_iff (e : Expr) :
    e.Bounded b ↔
      e.span.start.offset < b.offset ∧ e.form.Bounded b := by
  rcases e with ⟨form, span, type⟩
  rw [Expr.Bounded]

theorem boundedExprs_consMerged
    {e : Expr}
    {es : List Expr}
    (hFirst : e.Bounded b)
    (hOthers : boundedExprs b es) :
    boundedExprs b (consMerged e es) := by
  unfold consMerged
  split
  · rw [boundedExprs] at hOthers ⊢
    rw [Expr.bounded_iff] at hFirst ⊢
    refine ⟨⟨hFirst.1, ?_⟩, hOthers.2⟩
    rw [Expr.new, ExprForm.Bounded]
    trivial
  · rw [boundedExprs]
    exact ⟨hFirst, hOthers⟩

theorem boundedExprs_mergeTexts
    {es : List Expr}
    (hExprs : boundedExprs b es) :
    boundedExprs b (mergeTexts es) := by
  induction es with
  | nil => exact hExprs
  | cons e es ih =>
      rw [boundedExprs] at hExprs
      rw [mergeTexts_cons]
      exact boundedExprs_consMerged hExprs.1 (ih hExprs.2)

theorem bounded_stringForm
    {parts : List StringPart}
    (hParts : boundedExprs b (parts.map (·.expression))) :
    (stringForm parts).Bounded b := by
  unfold stringForm
  split
  · rw [ExprForm.Bounded]
    exact boundedExprs_mergeTexts hParts
  · rw [ExprForm.Bounded]
    trivial

theorem bounded_intForm
    {text : String}
    {form : ExprForm}
    (hForm : intForm? text = some form) :
    form.Bounded b := by
  rcases exists_of_intForm? hForm with ⟨n, rfl⟩ | ⟨n, rfl⟩
  · rw [ExprForm.Bounded]
    trivial
  · rw [ExprForm.Bounded]
    trivial

theorem Item.allBounded_nil (i : Item) :
    i.AllBounded b [] := by
  cases i with
  | argument =>
      rw [Item.AllBounded, boundedArguments]
      trivial
  | parameter =>
      rw [Item.AllBounded, boundedParameters]
      trivial
  | lambdaParameter =>
      rw [Item.AllBounded, boundedParameters]
      trivial
  | entry => trivial

theorem Item.allBounded_cons
    {i : Item}
    {x : i.Result}
    {xs : List i.Result}
    (hFirst : i.Bounded b x)
    (hOthers : i.AllBounded b xs) :
    i.AllBounded b (x :: xs) := by
  cases i with
  | argument =>
      rcases x with ⟨name, value, span⟩
      rw [Item.AllBounded, boundedArguments]
      exact ⟨hFirst, hOthers⟩
  | parameter =>
      rcases x with ⟨name, type, fallback, id, span⟩
      rw [Item.AllBounded, boundedParameters]
      exact ⟨hFirst, hOthers⟩
  | lambdaParameter =>
      rcases x with ⟨name, type, fallback, id, span⟩
      rw [Item.AllBounded, boundedParameters]
      exact ⟨hFirst, hOthers⟩
  | entry => trivial

/- Trees are bounded by what was given out at their end. -/
theorem Derives.bounded
    {phrase : Phrase}
    {r : phrase.Result}
    (hDerives : Derives phrase s r t) :
    b.Covers s t → phrase.Bounded b r := by
  have hNew {form : ExprForm} {span : Span}
      (hLess : span.start.offset < b.offset)
      (hForm : form.Bounded b) :
      (Expr.new form span).Bounded b :=
    (Expr.bounded_iff _).2 ⟨hLess, hForm⟩
  have hBinary {left right : Expr} {form : ExprForm}
      (hLeft : left.Bounded b)
      (hForm : form.Bounded b) :
      (Expr.new form (left.span.between right.span)).Bounded
        b :=
    hNew ((Expr.bounded_iff _).1 hLeft).1 hForm
  induction hDerives with
  | @expression power starter s first t e u hStart hFirst
      hMore ihFirst ihMore =>
      intro hCovers
      have hLeft := hFirst.leads hCovers.regular.next
      have hRight := hMore.leads hLeft.regular
      have hLess :=
        hCovers.offset_lt (ne_eof_of_starter hStart)
          (hLeft.trans hRight)
      exact ihMore (hCovers.next.rest hLeft)
        (ihFirst (hCovers.next.first hRight) hLess)
  | stop _ => exact fun _ hLeft => hLeft
  | @more power left extender q s e t f u _ _ hExtension
      hMore ihExtension ihMore =>
      intro hCovers hLeft
      have hFirst := hExtension.leads hCovers.regular.next
      have hRight := hMore.leads hFirst.regular
      exact ihMore (hCovers.next.rest hFirst)
        (ihExtension (hCovers.next.first hRight) hLeft)
  | int hForm =>
      exact fun _ hLess => hNew hLess (bounded_intForm hForm)
  | boolean => exact fun _ hLess => hNew hLess trivial
  | @string token s parts t hParts hClose ih =>
      intro hCovers hLess
      have hLeads := hParts.leads hCovers.regular
      have hOwn := ih (hCovers.first (.next hLeads.regular))
      exact hNew hLess (bounded_stringForm hOwn)
  | reference _ =>
      exact fun _ hLess => hNew hLess nofun
  | @invocation token s arguments t hOpen hItems hClose ih =>
      intro hCovers hLess
      have hLeads := hItems.leads hCovers.regular.next
      exact hNew hLess
        (ih (hCovers.next.first (.next hLeads.regular)))
  | @unary token s operand t hOperand ih =>
      exact fun hCovers hLess => hNew hLess (ih hCovers)
  | @grouping token s inner t hInner hClose ih =>
      intro hCovers hLess
      have hLeads := hInner.leads hCovers.regular
      exact hNew hLess
        (ih (hCovers.first (.next hLeads.regular)))
  | startBlock _ ih => exact ih
  | @conditional token s condition t thenBranch u elseBranch
      v _ hCondition _ hThen hElse ihCondition ihThen ihElse =>
      intro hCovers hLess
      have hFirst :=
        (hCondition.leads hCovers.regular.next).andNext
      have hSecond := hThen.leads hFirst.regular
      have hThird := hElse.leads hSecond.regular
      have hAfter := hCovers.next.rest hFirst
      have hBefore :=
        hCovers.next.first (hSecond.trans hThird)
      exact hNew hLess
        ⟨ihCondition (hBefore.first (.next
            (hCondition.leads hCovers.regular.next).regular)),
          ihThen (hAfter.first hThird),
          ihElse (hAfter.rest hSecond)⟩
  | @functionLiteral token s parameters returnType t body u _
      hSignature hBody ihSignature ihBody =>
      intro hCovers hLess
      have hInside := hCovers.of_closed.opened
      have hFirst := hSignature.leads hInside.regular
      have hSecond := hBody.leads hFirst.regular
      exact hNew hLess
        ⟨hCovers.of_closed.newScope_lt (hFirst.trans hSecond),
          ihSignature (hInside.first hSecond),
          ihBody (hInside.rest hFirst)⟩
  | @lambda token s parameters t body u hItems hClose hBody
      ihItems ihBody =>
      intro hCovers hLess
      have hInside := hCovers.of_closed.opened
      have hFirst := hItems.leads hInside.regular
      have hSecond := hBody.leads hFirst.regular.next
      have hLast := (Leads.next hFirst.regular).trans hSecond
      exact hNew hLess
        ⟨hCovers.of_closed.newScope_lt (hFirst.trans hLast),
          ihItems (hInside.first hLast),
          ihBody (hInside.rest hFirst.andNext)⟩
  | retValue _ ih =>
      exact fun hCovers hLess => hNew hLess (ih hCovers)
  | retNothing _ => exact fun _ hLess => hNew hLess trivial
  | binary _ _ ih =>
      exact fun hCovers hLeft =>
        hBinary hLeft ⟨hLeft, ih hCovers⟩
  | assignment _ _ ih =>
      exact fun hCovers hLeft =>
        hBinary hLeft ⟨hLeft, ih hCovers⟩
  | member _ _ _ ih =>
      exact fun hCovers hLeft =>
        hBinary hLeft ⟨hLeft, ih hCovers⟩
  | @call left operator q s arguments t hItems hClose ih =>
      intro hCovers hLeft
      have hLeads := hItems.leads hCovers.regular
      have hOwn := ih (hCovers.first (.next hLeads.regular))
      exact hNew ((Expr.bounded_iff _).1 hLeft).1
        ⟨hLeft, hOwn⟩
  | present _ _ ih => exact fun hCovers => ih hCovers.next
  | absent _ => exact fun _ => trivial
  | named _ _ ih => exact fun hCovers => ih hCovers.next.next
  | positional _ _ ih => exact ih
  | @parameter s type t fallback u span id v _ _ hType
      hFallback _ hDeclares ih =>
      intro hCovers
      have hTyped := hType.leads hCovers.next.next.regular
      have hAfter := hCovers.next.next.rest hTyped
      have hOption := hFallback.leads hTyped.regular
      have hDeclared :=
        Leads.declares hOption.regular hDeclares rfl
      exact ⟨(hAfter.rest hOption).makes hDeclares,
        ih (hAfter.first hDeclared)⟩
  | @lambdaParameter s type t span id u _ hType _ hDeclares =>
      intro hCovers
      have hTyped := hType.leads hCovers.next.regular
      exact ⟨(hCovers.next.rest hTyped).makes hDeclares,
        trivial⟩
  | entry _ _ => exact fun _ => trivial
  | renamedEntry _ _ _ => exact fun _ => trivial
  | @noItems i _ _ => exact fun _ => i.allBounded_nil
  | @someItems i s x t xs u _ hFirst hMore ihFirst ihMore =>
      intro hCovers
      have hItem := hFirst.leads hCovers.regular
      have hRest := hMore.leads hItem.regular
      exact Item.allBounded_cons
        (ihFirst (hCovers.first hRest))
        (ihMore (hCovers.rest hItem))
  | @lastItem i _ _ => exact fun _ => i.allBounded_nil
  | @trailingComma i _ _ _ => exact fun _ => i.allBounded_nil
  | @nextItem i s x t xs u _ _ hFirst hMore ihFirst ihMore =>
      intro hCovers
      have hItem := hFirst.leads hCovers.next.regular
      have hRest := hMore.leads hItem.regular
      exact Item.allBounded_cons
        (ihFirst (hCovers.next.first hRest))
        (ihMore (hCovers.next.rest hItem))
  | @signature s ps t returnType u _ hItems _ hType ih =>
      intro hCovers
      have hOwn := hItems.leads hCovers.next.regular
      have hRest := hType.leads hOwn.regular.next
      exact ih (hCovers.next.first
        ((Leads.next hOwn.regular).trans hRest))
  | bodyValue _ _ ih => exact fun hCovers => ih hCovers.next
  | @bodyBlock s e t hOpen hBlock ih =>
      intro hCovers
      have hOwn := hBlock.leads hCovers.next.regular
      exact ih hCovers.next
        (hCovers.offset_lt (by rw [hOpen]; decide) hOwn)
  | @namedValue s e t _ hValue _ ih =>
      intro hCovers
      have hOwn := hValue.leads hCovers.next.regular
      exact ih (hCovers.next.first (.next hOwn.regular))
  | @namedBlock s e t hOpen hBlock ih =>
      intro hCovers
      have hOwn := hBlock.leads hCovers.next.regular
      exact ih hCovers.next
        (hCovers.offset_lt (by rw [hOpen]; decide) hOwn)
  | namedNone _ => exact fun _ => trivial
  | namedNothing _ => exact fun _ => trivial
  | noParts _ => exact fun _ => trivial
  | @textPart s parts t hText hMore ih =>
      intro hCovers
      have hRest := hMore.leads hCovers.next.regular
      have hLess :=
        hCovers.offset_lt (by rw [hText]; decide) hRest
      exact ⟨hNew hLess trivial, ih hCovers.next⟩
  | @escapePart s c parts t hEscape _ hMore ih =>
      intro hCovers
      have hRest := hMore.leads hCovers.next.regular
      have hLess :=
        hCovers.offset_lt (by rw [hEscape]; decide) hRest
      exact ⟨hNew hLess trivial, ih hCovers.next⟩
  | @embeddedPart s e t parts u _ hExpr _ hMore ihExpr
      ihMore =>
      intro hCovers
      have hFirst := hExpr.leads hCovers.next.regular
      have hRest := hMore.leads hFirst.regular.next
      have hLast := (Leads.next hFirst.regular).trans hRest
      exact ⟨ihExpr (hCovers.next.first hLast),
        ihMore (hCovers.next.rest hFirst.andNext)⟩
  | @block token s xs t hStatements hClose ih =>
      intro hCovers hLess
      have hInside := hCovers.of_closed.opened
      have hOwn := hStatements.leads hInside.regular
      exact hNew hLess
        ⟨hCovers.of_closed.newScope_lt hOwn.andNext,
          ih (hInside.first (.next hOwn.regular))⟩
  | noStatements _ => exact fun _ => trivial
  | @someStatements s x t xs u _ _ hFirst hMore ihFirst
      ihMore =>
      intro hCovers
      have hOwn := hFirst.leads hCovers.regular
      have hRest := hMore.leads hOwn.regular
      exact ⟨ihFirst (hCovers.first hRest),
        ihMore (hCovers.rest hOwn)⟩
  | variableStatement _ _ ih => exact ih
  | functionStatement _ _ ih => exact ih
  | @endedStatement s e t _ _ _ hExpr _ ih =>
      intro hCovers
      have hOwn := hExpr.leads hCovers.regular
      exact ih (hCovers.first (.next hOwn.regular))
  | openStatement _ _ _ _ _ _ ih => exact ih
  | @variableDecl kind s type t initializer u span id v _ _
      hType hInitializer _ _ hDeclares ih =>
      intro hCovers
      have hTyped := hType.leads hCovers.next.next.regular
      have hAfter := hCovers.next.next.rest hTyped
      have hValue := hInitializer.leads hTyped.regular
      have hDeclared :=
        Leads.declares hValue.regular.next hDeclares rfl
      exact ⟨(hAfter.rest hValue.andNext).makes hDeclares,
        ih (hAfter.first
          ((Leads.next hValue.regular).trans hDeclared))⟩
  | @functionDecl s ps returnType t body u span id v _ _
      hSignature hBody _ hDeclares ihSignature ihBody =>
      intro hCovers
      have hBehind := hCovers.next.next
      have hFirst :=
        hSignature.leads hBehind.regular.opened
      have hSecond := hBody.leads hFirst.regular
      have hScoped :=
        Leads.scoped hBehind.regular (hFirst.trans hSecond)
      have hDeclared :=
        Leads.declares hScoped.regular hDeclares rfl
      have hAround := (hBehind.first hDeclared).of_closed
      have hInside := hAround.opened
      exact ⟨⟨hAround.newScope_lt (hFirst.trans hSecond),
          (hBehind.rest hScoped).makes hDeclares⟩,
        ihSignature (hInside.first hSecond),
        ihBody (hInside.rest hFirst)⟩

------------------------------------------------------------
-- Declarations
------------------------------------------------------------

theorem DerivesDeclaration.bounded
    {d : Declaration}
    (hDerives : DerivesDeclaration s d t)
    (hCovers : b.Covers s t) :
    d.Bounded b := by
  cases hDerives with
  | function hFunction => exact hFunction.bounded hCovers
  | property _ hVariable => exact hVariable.bounded hCovers

theorem DerivesDeclarations.bounded
    {ds : List Declaration}
    (hDerives : DerivesDeclarations s ds t) :
    b.Covers s t → ∀ d ∈ ds, d.Bounded b := by
  induction hDerives with
  | stop _ => exact fun _ => nofun
  | more hFirst hMore ih =>
      intro hCovers
      have hOwn := hFirst.leads hCovers.regular
      have hRest := hMore.leads hOwn.regular
      exact List.forall_mem_cons.2
        ⟨hFirst.bounded (hCovers.first hRest),
          ih (hCovers.rest hOwn)⟩

end SourceCheck
