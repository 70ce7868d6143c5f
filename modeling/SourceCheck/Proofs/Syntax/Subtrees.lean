import SourceCheck.Proofs.Equivalence.Contexts
import SourceCheck.Proofs.Syntax.Standing

/-
  Rules for the nodes of subtrees.

  What is asked of all nodes of a tree is asked of those of
  each subtree, since the rules never look above a node.

  Key definitions include:
    * `NodeKind.ObeysInside`
    * `TypeExpr.IsIn`

  Key theorems include:
    * `Frame.obeysInside`
    * `Context.obeysInside`
    * `TypeExpr.IsIn.obeys`
-/

namespace SourceCheck

variable {R : NodeRules}

------------------------------------------------------------
-- Subtrees
------------------------------------------------------------

/-
  The nodes of a tree obey the rules.  Of an expression only
  those inside of it are meant, since the right side of an
  access is not asked for what other expressions are.
-/
def NodeKind.ObeysInside
    (R : NodeRules) :
    (k : NodeKind) → k.Tree → Prop
  | typeForm, f => f.Obeys R
  | typeExpr, t => t.Obeys R
  | form, f => f.Obeys R
  | expr, e => e.form.Obeys R
  | argument, x => x.value.form.Obeys R
  | parameter, p => p.Obeys R
  | statement, x => x.Obeys R
  | variableDecl, v => v.Obeys R
  | functionDecl, f => f.Obeys R
  | entry, _ => True
  | imported, _ => True
  | declaration, d => d.Obeys R
  | program, p => p.Obeys R

theorem Expr.Obeys.inside
    {e : Expr}
    (hObeys : e.Obeys R) :
    e.form.Obeys R := by
  rcases e with ⟨form, span, type⟩
  exact hObeys.2

theorem Expr.ObeysAside.inside
    {e : Expr}
    (hObeys : e.ObeysAside R) :
    e.form.Obeys R := by
  rcases e with ⟨form, span, type⟩
  exact hObeys.2

/- What a node obeys is obeyed by each of its parts. -/
theorem Frame.obeysInside
    {k l : NodeKind}
    (frame : Frame k l)
    {a : k.Tree} :
    l.ObeysInside R (frame.fill a) → k.ObeysInside R a := by
  have hMember {α : Type} {a : α} (before after : List α) :
      a ∈ before ++ a :: after :=
    List.mem_append_cons_self
  cases frame with
  -- Written types.
  | unionLeft | intersectionLeft => exact And.left
  | unionRight | intersectionRight | typeForm =>
      exact And.right
  -- Expressions in forms.
  | part =>
      exact fun hParts =>
        (exprs_obey hParts _ (hMember _ _)).inside
  | callCallee | accessLeft | binaryLeft
  | assignmentTarget | conditionalTest =>
      exact fun hBoth => hBoth.1.inside
  | accessRight | binaryRight | assignmentValue
  | lambdaBody =>
      exact fun hBoth => hBoth.2.inside
  | operand | parenthesized | returned =>
      exact fun hInner => hInner.inside
  | conditionalThen => exact fun hAll => hAll.2.1.inside
  | conditionalElse | literalBody =>
      exact fun hAll => hAll.2.2.inside
  -- Other parts of forms.
  | invocationArgument =>
      exact fun hAll =>
        (arguments_obey hAll _ (hMember _ _)).inside
  | callArgument =>
      exact fun hBoth =>
        (arguments_obey hBoth.2 _ (hMember _ _)).inside
  | blockStatement =>
      exact fun hAll => statements_obey hAll _ (hMember _ _)
  | literalParameter | lambdaParameter =>
      exact fun hBoth =>
        parameters_obey hBoth.1 _ (hMember _ _)
  | literalType => exact fun hAll => hAll.2.1
  | form => exact fun hForm => hForm
  -- Arguments and parameters.
  | argumentValue => exact fun hValue => hValue
  | parameterType => exact fun hAll => hAll.2.1
  | parameterFallback => exact fun hAll => hAll.2.2.inside
  -- Statements and declarations.
  | expressionStatement => exact fun hExpr => hExpr.inside
  | variableStatement | functionStatement
  | functionDeclaration | propertyDeclaration =>
      exact fun hInner => hInner
  | variableType => exact fun hAll => hAll.2.1
  | variableInitializer => exact fun hAll => hAll.2.2.inside
  | functionParameter =>
      exact fun hAll =>
        parameters_obey hAll.2.1 _ (hMember _ _)
  | functionType => exact fun hAll => hAll.2.2.1
  | functionBody => exact fun hAll => hAll.2.2.2.inside
  -- Programs.
  | importEntry | programImport => exact fun _ => trivial
  | programDeclaration =>
      exact fun hAll => hAll _ (hMember _ _)

/- What a tree obeys is obeyed by each of its subtrees. -/
theorem Context.obeysInside
    {k m : NodeKind}
    (c : Context k m)
    {a : k.Tree} :
    m.ObeysInside R (c.fill a) → k.ObeysInside R a := by
  induction c with
  | hole =>
      simp only [fill]
      exact fun hTree => hTree
  | within frame inner ih =>
      simp only [fill]
      exact fun hTree => ih (frame.obeysInside hTree)

------------------------------------------------------------
-- Written types of programs
------------------------------------------------------------

/- The written type is found somewhere in the program. -/
def TypeExpr.IsIn (x : TypeExpr) (p : Program) : Prop :=
  ∃ c : Context .typeExpr .program, c.fill x = p

/- So it obeys what the program does. -/
theorem TypeExpr.IsIn.obeys
    {x : TypeExpr}
    {p : Program}
    (hIn : x.IsIn p)
    (hObeys : p.Obeys R) :
    x.Obeys R := by
  rcases hIn with ⟨c, rfl⟩
  exact c.obeysInside (k := .typeExpr) hObeys

end SourceCheck
