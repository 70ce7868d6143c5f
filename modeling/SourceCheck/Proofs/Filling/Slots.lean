import Mathlib.Data.List.Forall2
import SourceCheck.Proofs.Layout.Erasure

/-
  Trees whose slots get filled.

  A tree fills to another one if both have the same nodes in
  the same places, with the same names, values and operators
  and the same numbers of scopes and definitions, and if each
  slot that is filled in the first tree has the same content
  in the second one.

  Key definitions include:
    * `Keeps`
    * `Expr.FillsTo`
    * `Symbols.FillsTo`
    * `Program.FillsTo`

  Key theorems include:
    * `Program.FillsTo.refl`
    * `Program.FillsTo.equivalent`
-/

namespace SourceCheck

------------------------------------------------------------
-- Slots
------------------------------------------------------------

/- What is in the first slot is in the second one. -/
def Keeps {α : Type} (before after : Option α) : Prop :=
  ∀ a, before = some a → after = some a

theorem Keeps.refl {α : Type} (slot : Option α) :
    Keeps slot slot :=
  fun _ => id

/- An empty slot may be filled with anything. -/
theorem Keeps.none {α : Type} (slot : Option α) :
    Keeps none slot :=
  nofun

/- All that is known of a name stays known. -/
structure Target.FillsTo (a b : Target) : Prop where
  kind : Keeps a.kind b.kind
  definition : Keeps a.definition b.definition
  member : Keeps a.member b.member

theorem Target.FillsTo.refl (a : Target) : a.FillsTo a :=
  ⟨.refl _, .refl _, .refl _⟩

theorem Target.FillsTo.unknown (a : Target) :
    Target.unknown.FillsTo a :=
  ⟨.none _, .none _, .none _⟩

------------------------------------------------------------
-- Written types
------------------------------------------------------------

mutual

/- The form of a written type fills to another one. -/
inductive TypeForm.FillsTo : TypeForm → TypeForm → Prop where
  | absent : TypeForm.FillsTo .absent .absent
  | named {name} :
      TypeForm.FillsTo (.named name) (.named name)
  | union {a b c d}
      (hLeft : TypeExpr.FillsTo a c)
      (hRight : TypeExpr.FillsTo b d) :
      TypeForm.FillsTo (.union a b) (.union c d)
  | intersection {a b c d}
      (hLeft : TypeExpr.FillsTo a c)
      (hRight : TypeExpr.FillsTo b d) :
      TypeForm.FillsTo (.intersection a b)
        (.intersection c d)

/- A written type fills to another one. -/
inductive TypeExpr.FillsTo : TypeExpr → TypeExpr → Prop where
  | intro {f g span s t}
      (hForm : TypeForm.FillsTo f g)
      (hType : Keeps s t) :
      TypeExpr.FillsTo ⟨f, span, s⟩ ⟨g, span, t⟩

end

/- What was written is not left out afterwards. -/
theorem TypeForm.FillsTo.ne_absent
    {f g : TypeForm}
    (hFills : f.FillsTo g)
    (hThere : f ≠ .absent) :
    g ≠ .absent := by
  cases hFills with
  | absent => exact hThere
  | _ => exact nofun

------------------------------------------------------------
-- Expressions and statements
------------------------------------------------------------

mutual

/- The form of an expression fills to another one. -/
inductive ExprForm.FillsTo : ExprForm → ExprForm → Prop where
  | int {n} : ExprForm.FillsTo (.int n) (.int n)
  | long {n} : ExprForm.FillsTo (.long n) (.long n)
  | boolean {b} :
      ExprForm.FillsTo (.boolean b) (.boolean b)
  | string {text} :
      ExprForm.FillsTo (.string text) (.string text)
  | template {ps qs}
      (hParts : List.Forall₂ Expr.FillsTo ps qs) :
      ExprForm.FillsTo (.template ps) (.template qs)
  | reference {name s t}
      (hTarget : s.FillsTo t) :
      ExprForm.FillsTo (.reference name s)
        (.reference name t)
  | invocation {name as bs s t}
      (hArguments : List.Forall₂ Argument.FillsTo as bs)
      (hTarget : s.FillsTo t) :
      ExprForm.FillsTo (.invocation name as s)
        (.invocation name bs t)
  | call {e f as bs}
      (hCallee : Expr.FillsTo e f)
      (hArguments : List.Forall₂ Argument.FillsTo as bs) :
      ExprForm.FillsTo (.call e as) (.call f bs)
  | access {a b c d safe}
      (hLeft : Expr.FillsTo a c)
      (hRight : Expr.FillsTo b d) :
      ExprForm.FillsTo (.access a safe b) (.access c safe d)
  | binary {a b c d o}
      (hLeft : Expr.FillsTo a c)
      (hRight : Expr.FillsTo b d) :
      ExprForm.FillsTo (.binary a o b) (.binary c o d)
  | unary {o a b}
      (hOperand : Expr.FillsTo a b) :
      ExprForm.FillsTo (.unary o a) (.unary o b)
  | assignment {a b c d o}
      (hTarget : Expr.FillsTo a c)
      (hValue : Expr.FillsTo b d) :
      ExprForm.FillsTo (.assignment a o b)
        (.assignment c o d)
  | parenthesized {a b}
      (hInner : Expr.FillsTo a b) :
      ExprForm.FillsTo (.parenthesized a) (.parenthesized b)
  | block {as bs scope}
      (hStatements : List.Forall₂ Statement.FillsTo as bs) :
      ExprForm.FillsTo (.block as scope) (.block bs scope)
  | conditional {a b c d e f}
      (hCondition : Expr.FillsTo a d)
      (hThen : Expr.FillsTo b e)
      (hElse : Option.Rel Expr.FillsTo c f) :
      ExprForm.FillsTo (.conditional a b c)
        (.conditional d e f)
  | function {ps qs r s a b scope}
      (hParameters : List.Forall₂ Parameter.FillsTo ps qs)
      (hType : r.FillsTo s)
      (hBody : Expr.FillsTo a b) :
      ExprForm.FillsTo (.function ps r a scope)
        (.function qs s b scope)
  | lambda {ps qs a b scope}
      (hParameters : List.Forall₂ Parameter.FillsTo ps qs)
      (hBody : Expr.FillsTo a b) :
      ExprForm.FillsTo (.lambda ps a scope)
        (.lambda qs b scope)
  | ret {a b}
      (hValue : Option.Rel Expr.FillsTo a b) :
      ExprForm.FillsTo (.ret a) (.ret b)

/- An expression fills to another one. -/
inductive Expr.FillsTo : Expr → Expr → Prop where
  | intro {f g span s t}
      (hForm : ExprForm.FillsTo f g)
      (hType : Keeps s t) :
      Expr.FillsTo ⟨f, span, s⟩ ⟨g, span, t⟩

/- An argument fills to another one. -/
inductive Argument.FillsTo : Argument → Argument → Prop where
  | intro {name a b span}
      (hValue : Expr.FillsTo a b) :
      Argument.FillsTo ⟨name, a, span⟩ ⟨name, b, span⟩

/- A parameter fills to another one. -/
inductive Parameter.FillsTo :
    Parameter → Parameter → Prop where
  | intro {name r s a b definition span}
      (hType : r.FillsTo s)
      (hFallback : Option.Rel Expr.FillsTo a b) :
      Parameter.FillsTo ⟨name, r, a, definition, span⟩
        ⟨name, s, b, definition, span⟩

/- A statement fills to another one. -/
inductive Statement.FillsTo :
    Statement → Statement → Prop where
  | expression {a b}
      (hExpr : Expr.FillsTo a b) :
      Statement.FillsTo (.expression a) (.expression b)
  | variable {v w}
      (hVariable : VariableDecl.FillsTo v w) :
      Statement.FillsTo (.variable v) (.variable w)
  | function {f g}
      (hFunction : FunctionDecl.FillsTo f g) :
      Statement.FillsTo (.function f) (.function g)

/- The declaration of a variable fills to another one. -/
inductive VariableDecl.FillsTo :
    VariableDecl → VariableDecl → Prop where
  | intro {isMutable name r s a b definition span}
      (hType : r.FillsTo s)
      (hInitializer : Option.Rel Expr.FillsTo a b) :
      VariableDecl.FillsTo
        ⟨isMutable, name, r, a, definition, span⟩
        ⟨isMutable, name, s, b, definition, span⟩

/- The declaration of a function fills to another one. -/
inductive FunctionDecl.FillsTo :
    FunctionDecl → FunctionDecl → Prop where
  | intro {name ps qs r s a b scope definition span}
      (hParameters : List.Forall₂ Parameter.FillsTo ps qs)
      (hType : r.FillsTo s)
      (hBody : Option.Rel Expr.FillsTo a b) :
      FunctionDecl.FillsTo
        ⟨name, ps, r, a, scope, definition, span⟩
        ⟨name, qs, s, b, scope, definition, span⟩

end

------------------------------------------------------------
-- Programs
------------------------------------------------------------

/- An import may get marked, and stays so. -/
structure Import.FillsTo (a b : Import) : Prop where
  path_eq : b.path = a.path
  entries_eq : b.entries = a.entries
  span_eq : b.span = a.span
  isResolved : a.isResolved → b.isResolved

/- A declaration fills to another one. -/
inductive Declaration.FillsTo :
    Declaration → Declaration → Prop where
  | function {f g}
      (hFunction : FunctionDecl.FillsTo f g) :
      Declaration.FillsTo (.function f) (.function g)
  | property {v w}
      (hVariable : VariableDecl.FillsTo v w) :
      Declaration.FillsTo (.property v) (.property w)

/-
  Definitions may get types.  All else is the same: the
  scopes with what is around them and their bindings, and
  the definitions but for their types.
-/
structure Symbols.FillsTo (y z : Symbols) : Prop where
  scopes_eq : z.scopes = y.scopes
  size_eq : z.definitions.size = y.definitions.size
  definitions :
    ∀ (id : DefinitionId) (d : Definition),
      y.definitions[id]? = some d →
        ∃ type,
          z.definitions[id]? = some { d with type := type } ∧
            Keeps d.type type

/- A program fills to another one. -/
structure Program.FillsTo (p q : Program) : Prop where
  imports : List.Forall₂ Import.FillsTo p.imports q.imports
  declarations :
    List.Forall₂ Declaration.FillsTo
      p.declarations q.declarations
  scope_eq : q.scope = p.scope
  symbols : p.symbols.FillsTo q.symbols
  span_eq : q.span = p.span

------------------------------------------------------------
-- Nothing is filled
------------------------------------------------------------

mutual

theorem TypeForm.FillsTo.refl :
    ∀ form : TypeForm, form.FillsTo form
  | .absent => .absent
  | .named _ => .named
  | .union left right =>
      .union (TypeExpr.FillsTo.refl left)
        (TypeExpr.FillsTo.refl right)
  | .intersection left right =>
      .intersection (TypeExpr.FillsTo.refl left)
        (TypeExpr.FillsTo.refl right)
termination_by structural form => form

theorem TypeExpr.FillsTo.refl :
    ∀ t : TypeExpr, t.FillsTo t
  | ⟨form, _, type⟩ =>
      .intro (TypeForm.FillsTo.refl form) (.refl type)
termination_by structural t => t

end

mutual

theorem ExprForm.FillsTo.refl :
    ∀ form : ExprForm, form.FillsTo form
  | .int _ => .int
  | .long _ => .long
  | .boolean _ => .boolean
  | .string _ => .string
  | .template parts => .template (fillsTo_exprs parts)
  | .reference _ target => .reference (.refl target)
  | .invocation _ arguments target =>
      .invocation (fillsTo_arguments arguments)
        (.refl target)
  | .call callee arguments =>
      .call (Expr.FillsTo.refl callee)
        (fillsTo_arguments arguments)
  | .access left _ right =>
      .access (Expr.FillsTo.refl left)
        (Expr.FillsTo.refl right)
  | .binary left _ right =>
      .binary (Expr.FillsTo.refl left)
        (Expr.FillsTo.refl right)
  | .unary _ operand => .unary (Expr.FillsTo.refl operand)
  | .assignment target _ value =>
      .assignment (Expr.FillsTo.refl target)
        (Expr.FillsTo.refl value)
  | .parenthesized inner =>
      .parenthesized (Expr.FillsTo.refl inner)
  | .block statements _ =>
      .block (fillsTo_statements statements)
  | .conditional condition thenBranch elseBranch =>
      .conditional (Expr.FillsTo.refl condition)
        (Expr.FillsTo.refl thenBranch)
        (fillsTo_option elseBranch)
  | .function parameters returnType body _ =>
      .function (fillsTo_parameters parameters)
        (.refl returnType) (Expr.FillsTo.refl body)
  | .lambda parameters body _ =>
      .lambda (fillsTo_parameters parameters)
        (Expr.FillsTo.refl body)
  | .ret value => .ret (fillsTo_option value)
termination_by structural form => form

theorem Expr.FillsTo.refl : ∀ e : Expr, e.FillsTo e
  | ⟨form, _, type⟩ =>
      .intro (ExprForm.FillsTo.refl form) (.refl type)
termination_by structural e => e

theorem fillsTo_option :
    ∀ o : Option Expr, Option.Rel Expr.FillsTo o o
  | none => .none
  | some e => .some (Expr.FillsTo.refl e)
termination_by structural o => o

theorem fillsTo_exprs :
    ∀ es : List Expr, List.Forall₂ Expr.FillsTo es es
  | [] => .nil
  | e :: es => .cons (Expr.FillsTo.refl e) (fillsTo_exprs es)
termination_by structural es => es

theorem fillsTo_arguments :
    ∀ xs : List Argument,
      List.Forall₂ Argument.FillsTo xs xs
  | [] => .nil
  | ⟨_, value, _⟩ :: xs =>
      .cons (.intro (Expr.FillsTo.refl value))
        (fillsTo_arguments xs)
termination_by structural xs => xs

theorem fillsTo_parameters :
    ∀ ps : List Parameter,
      List.Forall₂ Parameter.FillsTo ps ps
  | [] => .nil
  | ⟨_, typeExpr, fallback, _, _⟩ :: ps =>
      .cons (.intro (.refl typeExpr) (fillsTo_option fallback))
        (fillsTo_parameters ps)
termination_by structural ps => ps

theorem fillsTo_statements :
    ∀ xs : List Statement,
      List.Forall₂ Statement.FillsTo xs xs
  | [] => .nil
  | x :: xs =>
      .cons (Statement.FillsTo.refl x) (fillsTo_statements xs)
termination_by structural xs => xs

theorem Statement.FillsTo.refl :
    ∀ x : Statement, x.FillsTo x
  | .expression e => .expression (Expr.FillsTo.refl e)
  | .variable v => .variable (VariableDecl.FillsTo.refl v)
  | .function f => .function (FunctionDecl.FillsTo.refl f)
termination_by structural x => x

theorem VariableDecl.FillsTo.refl :
    ∀ v : VariableDecl, v.FillsTo v
  | ⟨_, _, typeExpr, initializer, _, _⟩ =>
      .intro (.refl typeExpr) (fillsTo_option initializer)
termination_by structural v => v

theorem FunctionDecl.FillsTo.refl :
    ∀ f : FunctionDecl, f.FillsTo f
  | ⟨_, parameters, returnType, body, _, _, _⟩ =>
      .intro (fillsTo_parameters parameters)
        (.refl returnType) (fillsTo_option body)
termination_by structural f => f

end

theorem Declaration.FillsTo.refl (d : Declaration) :
    d.FillsTo d := by
  cases d with
  | function f => exact .function (.refl f)
  | property v => exact .property (.refl v)

/- A program fills to itself. -/
theorem Program.FillsTo.refl (p : Program) : p.FillsTo p where
  imports :=
    List.forall₂_same.2 fun _ _ => ⟨rfl, rfl, rfl, id⟩
  declarations := List.forall₂_same.2 fun d _ => .refl d
  scope_eq := rfl
  symbols :=
    ⟨rfl, rfl, fun _ d hFound =>
      ⟨d.type, hFound, .refl _⟩⟩
  span_eq := rfl

------------------------------------------------------------
-- Equivalence
------------------------------------------------------------

mutual

theorem TypeForm.FillsTo.equivalent :
    ∀ {f g : TypeForm}, f.FillsTo g → g.equivalent f
  | .absent, _, .absent => by
      simp only [TypeForm.equivalent]
  | .named _, _, .named => by
      simp only [TypeForm.equivalent, decide_true]
  | .union _ _, _, .union hLeft hRight => by
      simp only [TypeForm.equivalent, hLeft.equivalent,
        hRight.equivalent, Bool.and_self]
  | .intersection _ _, _, .intersection hLeft hRight => by
      simp only [TypeForm.equivalent, hLeft.equivalent,
        hRight.equivalent, Bool.and_self]
termination_by structural f => f

theorem TypeExpr.FillsTo.equivalent :
    ∀ {s t : TypeExpr}, s.FillsTo t → t.equivalent s
  | ⟨_, _, _⟩, _, .intro hForm _ => by
      simp only [TypeExpr.equivalent, hForm.equivalent]
termination_by structural s => s

end

mutual

/- Slots do not matter for what a tree means. -/
theorem ExprForm.FillsTo.equivalent :
    ∀ {f g : ExprForm}, f.FillsTo g → g.equivalent f
  | .int _, _, .int => by
      simp only [ExprForm.equivalent, decide_true]
  | .long _, _, .long => by
      simp only [ExprForm.equivalent, decide_true]
  | .boolean _, _, .boolean => by
      simp only [ExprForm.equivalent, decide_true]
  | .string _, _, .string => by
      simp only [ExprForm.equivalent, decide_true]
  | .template _, _, .template hParts => by
      simp only [ExprForm.equivalent,
        equivalent_of_exprs hParts]
  | .reference _ _, _, .reference _ => by
      simp only [ExprForm.equivalent, decide_true]
  | .invocation _ _ _, _, .invocation hArguments _ => by
      simp only [ExprForm.equivalent, decide_true,
        equivalent_of_arguments hArguments, Bool.and_self]
  | .call _ _, _, .call hCallee hArguments => by
      simp only [ExprForm.equivalent, hCallee.equivalent,
        equivalent_of_arguments hArguments, Bool.and_self]
  | .access _ _ _, _, .access hLeft hRight => by
      simp only [ExprForm.equivalent, hLeft.equivalent,
        hRight.equivalent, decide_true, Bool.and_self]
  | .binary _ _ _, _, .binary hLeft hRight => by
      simp only [ExprForm.equivalent, hLeft.equivalent,
        hRight.equivalent, decide_true, Bool.and_self]
  | .unary _ _, _, .unary hOperand => by
      simp only [ExprForm.equivalent, hOperand.equivalent,
        decide_true, Bool.and_self]
  | .assignment _ _ _, _, .assignment hTarget hValue => by
      simp only [ExprForm.equivalent, hTarget.equivalent,
        hValue.equivalent, decide_true, Bool.and_self]
  | .parenthesized _, _, .parenthesized hInner => by
      simp only [ExprForm.equivalent, hInner.equivalent]
  | .block _ _, _, .block hStatements => by
      simp only [ExprForm.equivalent,
        equivalent_of_statements hStatements]
  | .conditional _ _ _, _,
      .conditional hCondition hThen hElse => by
      simp only [ExprForm.equivalent, hCondition.equivalent,
        hThen.equivalent, equivalent_of_option hElse,
        Bool.and_self]
  | .function _ _ _ _, _,
      .function hParameters hType hBody => by
      simp only [ExprForm.equivalent,
        equivalent_of_parameters hParameters,
        hType.equivalent, hBody.equivalent, Bool.and_self]
  | .lambda _ _ _, _, .lambda hParameters hBody => by
      simp only [ExprForm.equivalent,
        equivalent_of_parameters hParameters,
        hBody.equivalent, Bool.and_self]
  | .ret _, _, .ret hValue => by
      simp only [ExprForm.equivalent,
        equivalent_of_option hValue]
termination_by structural f => f

theorem Expr.FillsTo.equivalent :
    ∀ {a b : Expr}, a.FillsTo b → b.equivalent a
  | ⟨_, _, _⟩, _, .intro hForm _ => by
      simp only [Expr.equivalent, hForm.equivalent]
termination_by structural a => a

theorem equivalent_of_option :
    ∀ {o p : Option Expr},
      Option.Rel Expr.FillsTo o p → equivalentOptions p o
  | none, _, .none => by simp only [equivalentOptions]
  | some _, _, .some hExpr => by
      simp only [equivalentOptions, hExpr.equivalent]
termination_by structural o => o

theorem equivalent_of_exprs :
    ∀ {es fs : List Expr},
      List.Forall₂ Expr.FillsTo es fs →
        equivalentExprs fs es
  | [], _, .nil => by simp only [equivalentExprs]
  | _ :: _, _, .cons hFirst hRest => by
      simp only [equivalentExprs, hFirst.equivalent,
        equivalent_of_exprs hRest, Bool.and_self]
termination_by structural es => es

theorem equivalent_of_arguments :
    ∀ {xs ys : List Argument},
      List.Forall₂ Argument.FillsTo xs ys →
        equivalentArguments ys xs
  | [], _, .nil => by simp only [equivalentArguments]
  | ⟨_, _, _⟩ :: _, _, .cons (.intro hValue) hRest => by
      simp only [equivalentArguments, Argument.equivalent,
        hValue.equivalent, equivalent_of_arguments hRest,
        decide_true, Bool.and_self]
termination_by structural xs => xs

theorem equivalent_of_parameters :
    ∀ {ps qs : List Parameter},
      List.Forall₂ Parameter.FillsTo ps qs →
        equivalentParameters qs ps
  | [], _, .nil => by simp only [equivalentParameters]
  | ⟨_, _, _, _, _⟩ :: _, _,
      .cons (.intro hType hFallback) hRest => by
      simp only [equivalentParameters, Parameter.equivalent,
        hType.equivalent, equivalent_of_option hFallback,
        equivalent_of_parameters hRest, decide_true,
        Bool.and_self]
termination_by structural ps => ps

theorem equivalent_of_statements :
    ∀ {xs ys : List Statement},
      List.Forall₂ Statement.FillsTo xs ys →
        equivalentStatements ys xs
  | [], _, .nil => by simp only [equivalentStatements]
  | _ :: _, _, .cons hFirst hRest => by
      simp only [equivalentStatements, hFirst.equivalent,
        equivalent_of_statements hRest, Bool.and_self]
termination_by structural xs => xs

theorem Statement.FillsTo.equivalent :
    ∀ {x y : Statement}, x.FillsTo y → y.equivalent x
  | .expression _, _, .expression hExpr => by
      simp only [Statement.equivalent, hExpr.equivalent]
  | .variable _, _, .variable hVariable => by
      simp only [Statement.equivalent, hVariable.equivalent]
  | .function _, _, .function hFunction => by
      simp only [Statement.equivalent, hFunction.equivalent]
termination_by structural x => x

theorem VariableDecl.FillsTo.equivalent :
    ∀ {v w : VariableDecl}, v.FillsTo w → w.equivalent v
  | ⟨_, _, _, _, _, _⟩, _, .intro hType hInitializer => by
      simp only [VariableDecl.equivalent, hType.equivalent,
        equivalent_of_option hInitializer, decide_true,
        Bool.and_self]
termination_by structural v => v

theorem FunctionDecl.FillsTo.equivalent :
    ∀ {f g : FunctionDecl}, f.FillsTo g → g.equivalent f
  | ⟨_, _, _, _, _, _, _⟩, _,
      .intro hParameters hType hBody => by
      simp only [FunctionDecl.equivalent,
        equivalent_of_parameters hParameters,
        hType.equivalent, equivalent_of_option hBody,
        decide_true, Bool.and_self]
termination_by structural f => f

end

theorem Declaration.FillsTo.equivalent
    {c d : Declaration}
    (hFills : c.FillsTo d) :
    d.equivalent c := by
  cases hFills with
  | function hFunction => exact hFunction.equivalent
  | property hVariable => exact hVariable.equivalent

theorem Import.FillsTo.equivalent
    {i j : Import}
    (hFills : i.FillsTo j) :
    j.equivalent i := by
  have hEntries :
      agree ImportEntry.equivalent i.entries i.entries :=
    Alignment.agree_of_forall₂
      (List.forall₂_same.2 fun entry _ => Eq.refl entry)
      fun a b hSame => by
        simp only [ImportEntry.equivalent, hSame,
          decide_true, Bool.and_self]
  simp only [Import.equivalent, hFills.path_eq,
    hFills.entries_eq, hEntries, decide_true, Bool.and_self]

/- Filling the slots of a program keeps what it means. -/
theorem Program.FillsTo.equivalent
    {p q : Program}
    (hFills : p.FillsTo q) :
    q.equivalent p := by
  unfold Program.equivalent
  rw [Alignment.agree_of_forall₂ hFills.imports.flip
      fun _ _ hImport => hImport.equivalent,
    Alignment.agree_of_forall₂ hFills.declarations.flip
      fun _ _ hDeclaration => hDeclaration.equivalent,
    Bool.and_self]

end SourceCheck
