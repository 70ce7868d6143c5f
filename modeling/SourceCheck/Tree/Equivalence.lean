import SourceCheck.Tree.Basic

/-
  When two trees mean the same.

  Equivalent trees have the same nodes with the same names,
  values and operators.  Places and slots do not matter.

  Key definitions include:
    * `Expr.equivalent`
    * `Statement.equivalent`
    * `Program.equivalent`
-/

namespace SourceCheck

------------------------------------------------------------
-- Expressions and statements
------------------------------------------------------------

mutual

/- Two forms of expressions mean the same. -/
def ExprForm.equivalent : ExprForm → ExprForm → Bool
  | .int a, .int b => a = b
  | .long a, .long b => a = b
  | .boolean a, .boolean b => a = b
  | .string a, .string b => a = b
  | .template as, .template bs => equivalentExprs as bs
  | .reference a _, .reference b _ => a = b
  | .invocation a as _, .invocation b bs _ =>
      a = b && equivalentArguments as bs
  | .call a as, .call b bs =>
      a.equivalent b && equivalentArguments as bs
  | .access a s b, .access c t d =>
      s = t && a.equivalent c && b.equivalent d
  | .binary a o b, .binary c p d =>
      o = p && a.equivalent c && b.equivalent d
  | .unary o a, .unary p b => o = p && a.equivalent b
  | .assignment a o b, .assignment c p d =>
      o = p && a.equivalent c && b.equivalent d
  | .parenthesized a, .parenthesized b => a.equivalent b
  | .block as _, .block bs _ => equivalentStatements as bs
  | .conditional a b c, .conditional d e f =>
      a.equivalent d && b.equivalent e &&
        equivalentOptions c f
  | .function as s a _, .function bs t b _ =>
      equivalentParameters as bs && s.equivalent t &&
        a.equivalent b
  | .lambda as a _, .lambda bs b _ =>
      equivalentParameters as bs && a.equivalent b
  | .ret a, .ret b => equivalentOptions a b
  | _, _ => false

/- Two expressions mean the same. -/
def Expr.equivalent : Expr → Expr → Bool
  | ⟨a, _, _⟩, ⟨b, _, _⟩ => a.equivalent b

/- Two arguments mean the same. -/
def Argument.equivalent : Argument → Argument → Bool
  | ⟨m, a, _⟩, ⟨n, b, _⟩ => m = n && a.equivalent b

/- Two parameters mean the same. -/
def Parameter.equivalent : Parameter → Parameter → Bool
  | ⟨m, s, a, _, _⟩, ⟨n, t, b, _, _⟩ =>
      m = n && s.equivalent t && equivalentOptions a b

/- Two statements mean the same. -/
def Statement.equivalent : Statement → Statement → Bool
  | .expression a, .expression b => a.equivalent b
  | .variable a, .variable b => a.equivalent b
  | .function a, .function b => a.equivalent b
  | _, _ => false

/- Two declarations of variables mean the same. -/
def VariableDecl.equivalent :
    VariableDecl → VariableDecl → Bool
  | ⟨x, m, s, a, _, _⟩, ⟨y, n, t, b, _, _⟩ =>
      x = y && m = n && s.equivalent t &&
        equivalentOptions a b

/- Two declarations of functions mean the same. -/
def FunctionDecl.equivalent :
    FunctionDecl → FunctionDecl → Bool
  | ⟨m, as, s, a, _, _, _⟩, ⟨n, bs, t, b, _, _, _⟩ =>
      m = n && equivalentParameters as bs &&
        s.equivalent t && equivalentOptions a b

/- Two expressions that may be left out mean the same. -/
def equivalentOptions : Option Expr → Option Expr → Bool
  | none, none => true
  | some a, some b => a.equivalent b
  | _, _ => false

/- Two lists of expressions mean the same. -/
def equivalentExprs : List Expr → List Expr → Bool
  | [], [] => true
  | a :: as, b :: bs =>
      a.equivalent b && equivalentExprs as bs
  | _, _ => false

/- Two lists of arguments mean the same. -/
def equivalentArguments :
    List Argument → List Argument → Bool
  | [], [] => true
  | a :: as, b :: bs =>
      a.equivalent b && equivalentArguments as bs
  | _, _ => false

/- Two lists of parameters mean the same. -/
def equivalentParameters :
    List Parameter → List Parameter → Bool
  | [], [] => true
  | a :: as, b :: bs =>
      a.equivalent b && equivalentParameters as bs
  | _, _ => false

/- Two lists of statements mean the same. -/
def equivalentStatements :
    List Statement → List Statement → Bool
  | [], [] => true
  | a :: as, b :: bs =>
      a.equivalent b && equivalentStatements as bs
  | _, _ => false

end

------------------------------------------------------------
-- Programs
------------------------------------------------------------

/- Two entries import the same. -/
def ImportEntry.equivalent (a b : ImportEntry) : Bool :=
  a.name = b.name && a.newName = b.newName

/- The lists are as long and agree one by one. -/
def agree
    {α : Type}
    (same : α → α → Bool) :
    List α → List α → Bool
  | [], [] => true
  | a :: as, b :: bs => same a b && agree same as bs
  | _, _ => false

/- Two imports import the same. -/
def Import.equivalent (a b : Import) : Bool :=
  a.path = b.path &&
    agree ImportEntry.equivalent a.entries b.entries

/- Two declarations mean the same. -/
def Declaration.equivalent : Declaration → Declaration → Bool
  | .function a, .function b => a.equivalent b
  | .property a, .property b => a.equivalent b
  | _, _ => false

/- Two programs mean the same. -/
def Program.equivalent (a b : Program) : Bool :=
  agree Import.equivalent a.imports b.imports &&
    agree Declaration.equivalent
      a.declarations b.declarations

end SourceCheck
