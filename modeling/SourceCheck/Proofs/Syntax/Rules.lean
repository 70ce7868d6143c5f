import SourceCheck.Tree.Basic

/-
  Rules for the nodes of trees.

  A rule is asked of each node of a tree: of expressions, of
  the right sides of accesses, of written types, and of what
  declares something.  Facts about all nodes are instances of
  one definition with different rules.

  Key definitions include:
    * `NodeRules`
    * `Expr.Obeys`
    * `Program.Obeys`

  Key theorems include:
    * `Expr.Obeys.imp`
    * `Program.Obeys.imp`
-/

namespace SourceCheck

------------------------------------------------------------
-- Rules
------------------------------------------------------------

/-
  What is asked of each kind of node.  The right side of an
  access has a rule of its own, since its name is not looked
  up in scopes.
-/
structure NodeRules where
  ofExpr : Expr → Prop
  ofMember : Expr → Prop
  ofTypeExpr : TypeExpr → Prop
  ofParameter : Parameter → Prop
  ofVariable : VariableDecl → Prop
  ofFunction : FunctionDecl → Prop

------------------------------------------------------------
-- Trees
------------------------------------------------------------

mutual

def TypeForm.Obeys (R : NodeRules) : TypeForm → Prop
  | .absent => True
  | .named _ => True
  | .union left right => left.Obeys R ∧ right.Obeys R
  | .intersection left right => left.Obeys R ∧ right.Obeys R

def TypeExpr.Obeys (R : NodeRules) : TypeExpr → Prop
  | ⟨form, span, type⟩ =>
      R.ofTypeExpr ⟨form, span, type⟩ ∧ form.Obeys R

end

mutual

def ExprForm.Obeys (R : NodeRules) : ExprForm → Prop
  | .int _ => True
  | .long _ => True
  | .boolean _ => True
  | .string _ => True
  | .template parts => exprsObey R parts
  | .reference _ _ => True
  | .invocation _ arguments _ => argumentsObey R arguments
  | .call callee arguments =>
      callee.Obeys R ∧ argumentsObey R arguments
  | .access left _ right => left.Obeys R ∧ right.ObeysAside R
  | .binary left _ right => left.Obeys R ∧ right.Obeys R
  | .unary _ operand => operand.Obeys R
  | .assignment target _ value =>
      target.Obeys R ∧ value.Obeys R
  | .parenthesized inner => inner.Obeys R
  | .block statements _ => statementsObey R statements
  | .conditional condition thenBranch elseBranch =>
      condition.Obeys R ∧ thenBranch.Obeys R ∧
        optionObeys R elseBranch
  | .function parameters returnType body _ =>
      parametersObey R parameters ∧ returnType.Obeys R ∧
        body.Obeys R
  | .lambda parameters body _ =>
      parametersObey R parameters ∧ body.Obeys R
  | .ret value => optionObeys R value

/- All nodes of an expression obey the rules. -/
def Expr.Obeys (R : NodeRules) : Expr → Prop
  | ⟨form, span, type⟩ =>
      R.ofExpr ⟨form, span, type⟩ ∧ form.Obeys R

/- All nodes of the right side of an access do. -/
def Expr.ObeysAside (R : NodeRules) : Expr → Prop
  | ⟨form, span, type⟩ =>
      R.ofMember ⟨form, span, type⟩ ∧ form.Obeys R

def optionObeys (R : NodeRules) : Option Expr → Prop
  | none => True
  | some e => e.Obeys R

def exprsObey (R : NodeRules) : List Expr → Prop
  | [] => True
  | e :: es => e.Obeys R ∧ exprsObey R es

def argumentsObey (R : NodeRules) : List Argument → Prop
  | [] => True
  | ⟨_, value, _⟩ :: others =>
      value.Obeys R ∧ argumentsObey R others

def parametersObey (R : NodeRules) : List Parameter → Prop
  | [] => True
  | ⟨name, typeExpr, fallback, definition, span⟩ :: others =>
      (R.ofParameter
          ⟨name, typeExpr, fallback, definition, span⟩ ∧
        typeExpr.Obeys R ∧ optionObeys R fallback) ∧
        parametersObey R others

def statementsObey (R : NodeRules) : List Statement → Prop
  | [] => True
  | x :: others => x.Obeys R ∧ statementsObey R others

def Statement.Obeys (R : NodeRules) : Statement → Prop
  | .expression e => e.Obeys R
  | .variable v => v.Obeys R
  | .function f => f.Obeys R

def VariableDecl.Obeys (R : NodeRules) : VariableDecl → Prop
  | ⟨isMutable, name, typeExpr, initializer, definition,
      span⟩ =>
      R.ofVariable
          ⟨isMutable, name, typeExpr, initializer,
            definition, span⟩ ∧
        typeExpr.Obeys R ∧ optionObeys R initializer

def FunctionDecl.Obeys (R : NodeRules) : FunctionDecl → Prop
  | ⟨name, parameters, returnType, body, scope, definition,
      span⟩ =>
      R.ofFunction
          ⟨name, parameters, returnType, body, scope,
            definition, span⟩ ∧
        parametersObey R parameters ∧ returnType.Obeys R ∧
          optionObeys R body

end

/- All nodes of a declaration obey the rules. -/
def Declaration.Obeys (R : NodeRules) : Declaration → Prop
  | .function f => f.Obeys R
  | .property v => v.Obeys R

/- All nodes of a program obey the rules. -/
def Program.Obeys (R : NodeRules) (p : Program) : Prop :=
  ∀ d ∈ p.declarations, d.Obeys R

/- The written types of parameters obey the rules. -/
theorem typeExprs_obey
    {R : NodeRules}
    {ps : List Parameter}
    (hObey : parametersObey R ps) :
    ∀ p ∈ ps, p.typeExpr.Obeys R := by
  induction ps with
  | nil => exact nofun
  | cons p ps ih =>
      rcases p with ⟨name, typeExpr, fallback, id, span⟩
      exact List.forall_mem_cons.2
        ⟨hObey.1.2.1, ih hObey.2⟩

------------------------------------------------------------
-- Weaker rules
------------------------------------------------------------

/- Each rule follows from the other one of its kind. -/
structure NodeRules.Imply (R S : NodeRules) : Prop where
  ofExpr : ∀ e, R.ofExpr e → S.ofExpr e
  ofMember : ∀ e, R.ofMember e → S.ofMember e
  ofTypeExpr : ∀ t, R.ofTypeExpr t → S.ofTypeExpr t
  ofParameter : ∀ p, R.ofParameter p → S.ofParameter p
  ofVariable : ∀ v, R.ofVariable v → S.ofVariable v
  ofFunction : ∀ f, R.ofFunction f → S.ofFunction f

section Weaker

variable {R S : NodeRules}

mutual

theorem TypeForm.Obeys.imp
    (hImply : R.Imply S) :
    ∀ form : TypeForm, form.Obeys R → form.Obeys S
  | .absent, _ => trivial
  | .named _, _ => trivial
  | .union left right, hBoth =>
      ⟨TypeExpr.Obeys.imp hImply left hBoth.1,
        TypeExpr.Obeys.imp hImply right hBoth.2⟩
  | .intersection left right, hBoth =>
      ⟨TypeExpr.Obeys.imp hImply left hBoth.1,
        TypeExpr.Obeys.imp hImply right hBoth.2⟩
termination_by structural form => form

theorem TypeExpr.Obeys.imp
    (hImply : R.Imply S) :
    ∀ t : TypeExpr, t.Obeys R → t.Obeys S
  | ⟨form, _, _⟩, hBoth =>
      ⟨hImply.ofTypeExpr _ hBoth.1,
        TypeForm.Obeys.imp hImply form hBoth.2⟩
termination_by structural t => t

end

mutual

theorem ExprForm.Obeys.imp
    (hImply : R.Imply S) :
    ∀ form : ExprForm, form.Obeys R → form.Obeys S
  | .int _, _ => trivial
  | .long _, _ => trivial
  | .boolean _, _ => trivial
  | .string _, _ => trivial
  | .template parts, hParts =>
      exprsObey_imp hImply parts hParts
  | .reference _ _, _ => trivial
  | .invocation _ arguments _, hArguments =>
      argumentsObey_imp hImply arguments hArguments
  | .call callee arguments, hBoth =>
      ⟨Expr.Obeys.imp hImply callee hBoth.1,
        argumentsObey_imp hImply arguments hBoth.2⟩
  | .access left _ right, hBoth =>
      ⟨Expr.Obeys.imp hImply left hBoth.1,
        Expr.ObeysAside.imp hImply right hBoth.2⟩
  | .binary left _ right, hBoth =>
      ⟨Expr.Obeys.imp hImply left hBoth.1,
        Expr.Obeys.imp hImply right hBoth.2⟩
  | .unary _ operand, hOperand =>
      Expr.Obeys.imp hImply operand hOperand
  | .assignment target _ value, hBoth =>
      ⟨Expr.Obeys.imp hImply target hBoth.1,
        Expr.Obeys.imp hImply value hBoth.2⟩
  | .parenthesized inner, hInner =>
      Expr.Obeys.imp hImply inner hInner
  | .block statements _, hStatements =>
      statementsObey_imp hImply statements hStatements
  | .conditional condition thenBranch elseBranch, hAll =>
      ⟨Expr.Obeys.imp hImply condition hAll.1,
        Expr.Obeys.imp hImply thenBranch hAll.2.1,
        optionObeys_imp hImply elseBranch hAll.2.2⟩
  | .function parameters returnType body _, hAll =>
      ⟨parametersObey_imp hImply parameters hAll.1,
        TypeExpr.Obeys.imp hImply returnType hAll.2.1,
        Expr.Obeys.imp hImply body hAll.2.2⟩
  | .lambda parameters body _, hBoth =>
      ⟨parametersObey_imp hImply parameters hBoth.1,
        Expr.Obeys.imp hImply body hBoth.2⟩
  | .ret value, hValue =>
      optionObeys_imp hImply value hValue
termination_by structural form => form

theorem Expr.Obeys.imp
    (hImply : R.Imply S) :
    ∀ e : Expr, e.Obeys R → e.Obeys S
  | ⟨form, _, _⟩, hBoth =>
      ⟨hImply.ofExpr _ hBoth.1,
        ExprForm.Obeys.imp hImply form hBoth.2⟩
termination_by structural e => e

theorem Expr.ObeysAside.imp
    (hImply : R.Imply S) :
    ∀ e : Expr, e.ObeysAside R → e.ObeysAside S
  | ⟨form, _, _⟩, hBoth =>
      ⟨hImply.ofMember _ hBoth.1,
        ExprForm.Obeys.imp hImply form hBoth.2⟩
termination_by structural e => e

theorem optionObeys_imp
    (hImply : R.Imply S) :
    ∀ o : Option Expr, optionObeys R o → optionObeys S o
  | none, _ => trivial
  | some e, hSome => Expr.Obeys.imp hImply e hSome
termination_by structural o => o

theorem exprsObey_imp
    (hImply : R.Imply S) :
    ∀ es : List Expr, exprsObey R es → exprsObey S es
  | [], _ => trivial
  | e :: es, hBoth =>
      ⟨Expr.Obeys.imp hImply e hBoth.1,
        exprsObey_imp hImply es hBoth.2⟩
termination_by structural es => es

theorem argumentsObey_imp
    (hImply : R.Imply S) :
    ∀ xs : List Argument,
      argumentsObey R xs → argumentsObey S xs
  | [], _ => trivial
  | ⟨_, value, _⟩ :: xs, hBoth =>
      ⟨Expr.Obeys.imp hImply value hBoth.1,
        argumentsObey_imp hImply xs hBoth.2⟩
termination_by structural xs => xs

theorem parametersObey_imp
    (hImply : R.Imply S) :
    ∀ ps : List Parameter,
      parametersObey R ps → parametersObey S ps
  | [], _ => trivial
  | ⟨_, typeExpr, fallback, _, _⟩ :: ps, hBoth =>
      ⟨⟨hImply.ofParameter _ hBoth.1.1,
          TypeExpr.Obeys.imp hImply typeExpr hBoth.1.2.1,
          optionObeys_imp hImply fallback hBoth.1.2.2⟩,
        parametersObey_imp hImply ps hBoth.2⟩
termination_by structural ps => ps

theorem statementsObey_imp
    (hImply : R.Imply S) :
    ∀ xs : List Statement,
      statementsObey R xs → statementsObey S xs
  | [], _ => trivial
  | x :: xs, hBoth =>
      ⟨Statement.Obeys.imp hImply x hBoth.1,
        statementsObey_imp hImply xs hBoth.2⟩
termination_by structural xs => xs

theorem Statement.Obeys.imp
    (hImply : R.Imply S) :
    ∀ x : Statement, x.Obeys R → x.Obeys S
  | .expression e, hExpr => Expr.Obeys.imp hImply e hExpr
  | .variable v, hVariable =>
      VariableDecl.Obeys.imp hImply v hVariable
  | .function f, hFunction =>
      FunctionDecl.Obeys.imp hImply f hFunction
termination_by structural x => x

theorem VariableDecl.Obeys.imp
    (hImply : R.Imply S) :
    ∀ v : VariableDecl, v.Obeys R → v.Obeys S
  | ⟨_, _, typeExpr, initializer, _, _⟩, hAll =>
      ⟨hImply.ofVariable _ hAll.1,
        TypeExpr.Obeys.imp hImply typeExpr hAll.2.1,
        optionObeys_imp hImply initializer hAll.2.2⟩
termination_by structural v => v

theorem FunctionDecl.Obeys.imp
    (hImply : R.Imply S) :
    ∀ f : FunctionDecl, f.Obeys R → f.Obeys S
  | ⟨_, parameters, returnType, body, _, _, _⟩, hAll =>
      ⟨hImply.ofFunction _ hAll.1,
        parametersObey_imp hImply parameters hAll.2.1,
        TypeExpr.Obeys.imp hImply returnType hAll.2.2.1,
        optionObeys_imp hImply body hAll.2.2.2⟩
termination_by structural f => f

end

theorem Program.Obeys.imp
    (hImply : R.Imply S)
    {p : Program}
    (hObeys : p.Obeys R) :
    p.Obeys S := by
  intro d hMember
  cases d with
  | function f =>
      exact FunctionDecl.Obeys.imp hImply f
        (hObeys _ hMember)
  | property v =>
      exact VariableDecl.Obeys.imp hImply v
        (hObeys _ hMember)

end Weaker

end SourceCheck
