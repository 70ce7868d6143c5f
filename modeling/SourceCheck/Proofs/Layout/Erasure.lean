import SourceCheck.Proofs.Layout.Alignment
import SourceCheck.Tree.Equivalence

/-
  Trees without their places.

  What is left of a tree are its nodes with their names,
  values and operators, the numbers of scopes and of
  definitions, and all slots.  Aligned trees are the same
  but for their places.

  Key definitions include:
    * `Expr.withoutPlaces`
    * `Symbols.withoutPlaces`
    * `Program.withoutPlaces`

  Key theorems include:
    * `Alignment.Exprs.same`
    * `Alignment.Programs.same`
-/

namespace SourceCheck

------------------------------------------------------------
-- Erasing places
------------------------------------------------------------

mutual

def TypeForm.withoutPlaces : TypeForm → TypeForm
  | .absent => .absent
  | .named name => .named name
  | .union a b => .union a.withoutPlaces b.withoutPlaces
  | .intersection a b =>
      .intersection a.withoutPlaces b.withoutPlaces

/- A written type keeps the type that it stands for. -/
def TypeExpr.withoutPlaces : TypeExpr → TypeExpr
  | ⟨form, _, type⟩ => ⟨form.withoutPlaces, default, type⟩

end

mutual

/- A form keeps its names, numbers and targets. -/
def ExprForm.withoutPlaces : ExprForm → ExprForm
  | .int n => .int n
  | .long n => .long n
  | .boolean b => .boolean b
  | .string text => .string text
  | .template parts => .template (exprsWithoutPlaces parts)
  | .reference name target => .reference name target
  | .invocation name arguments target =>
      .invocation name (argumentsWithoutPlaces arguments)
        target
  | .call callee arguments =>
      .call callee.withoutPlaces
        (argumentsWithoutPlaces arguments)
  | .access a safe b =>
      .access a.withoutPlaces safe b.withoutPlaces
  | .binary a o b =>
      .binary a.withoutPlaces o b.withoutPlaces
  | .unary o a => .unary o a.withoutPlaces
  | .assignment a o b =>
      .assignment a.withoutPlaces o b.withoutPlaces
  | .parenthesized a => .parenthesized a.withoutPlaces
  | .block statements scope =>
      .block (statementsWithoutPlaces statements) scope
  | .conditional a b c =>
      .conditional a.withoutPlaces b.withoutPlaces
        (optionWithoutPlaces c)
  | .function parameters returnType body scope =>
      .function (parametersWithoutPlaces parameters)
        returnType.withoutPlaces body.withoutPlaces scope
  | .lambda parameters body scope =>
      .lambda (parametersWithoutPlaces parameters)
        body.withoutPlaces scope
  | .ret value => .ret (optionWithoutPlaces value)

/- An expression keeps its type. -/
def Expr.withoutPlaces : Expr → Expr
  | ⟨form, _, type⟩ => ⟨form.withoutPlaces, default, type⟩

def optionWithoutPlaces : Option Expr → Option Expr
  | none => none
  | some e => some e.withoutPlaces

def exprsWithoutPlaces : List Expr → List Expr
  | [] => []
  | e :: es => e.withoutPlaces :: exprsWithoutPlaces es

def argumentsWithoutPlaces :
    List Argument → List Argument
  | [] => []
  | ⟨name, value, _⟩ :: xs =>
      ⟨name, value.withoutPlaces, default⟩ ::
        argumentsWithoutPlaces xs

/- A parameter keeps its definition. -/
def parametersWithoutPlaces :
    List Parameter → List Parameter
  | [] => []
  | ⟨name, typeExpr, fallback, definition, _⟩ :: ps =>
      ⟨name, typeExpr.withoutPlaces,
          optionWithoutPlaces fallback, definition,
          default⟩ ::
        parametersWithoutPlaces ps

def statementsWithoutPlaces :
    List Statement → List Statement
  | [] => []
  | x :: xs => x.withoutPlaces :: statementsWithoutPlaces xs

def Statement.withoutPlaces : Statement → Statement
  | .expression e => .expression e.withoutPlaces
  | .variable v => .variable v.withoutPlaces
  | .function f => .function f.withoutPlaces

/- A variable keeps its definition. -/
def VariableDecl.withoutPlaces : VariableDecl → VariableDecl
  | ⟨isMutable, name, typeExpr, initializer, definition,
      _⟩ =>
      ⟨isMutable, name, typeExpr.withoutPlaces,
        optionWithoutPlaces initializer, definition,
        default⟩

/- A function keeps its scope and its definition. -/
def FunctionDecl.withoutPlaces : FunctionDecl → FunctionDecl
  | ⟨name, parameters, returnType, body, scope, definition,
      _⟩ =>
      ⟨name, parametersWithoutPlaces parameters,
        returnType.withoutPlaces, optionWithoutPlaces body,
        scope, definition, default⟩

end

/- A definition keeps its name, its kind and its type. -/
def Definition.withoutPlaces (d : Definition) : Definition :=
  { d with
    span := default
    visibleFrom := 0 }

/- Symbols keep all scopes, and their definitions. -/
def Symbols.withoutPlaces (y : Symbols) : Symbols :=
  { y with
    definitions :=
      y.definitions.map Definition.withoutPlaces }

def ImportEntry.withoutPlaces
    (entry : ImportEntry) :
    ImportEntry :=
  { entry with span := default }

def Import.withoutPlaces (i : Import) : Import :=
  { i with
    entries := i.entries.map ImportEntry.withoutPlaces
    span := default }

def Declaration.withoutPlaces : Declaration → Declaration
  | .function f => .function f.withoutPlaces
  | .property v => .property v.withoutPlaces

/- A program keeps its scope and its symbols. -/
def Program.withoutPlaces (p : Program) : Program where
  imports := p.imports.map Import.withoutPlaces
  declarations :=
    p.declarations.map Declaration.withoutPlaces
  scope := p.scope
  symbols := p.symbols.withoutPlaces
  span := default

------------------------------------------------------------
-- Aligned trees
------------------------------------------------------------

namespace Alignment

variable {A : Alignment}

mutual

theorem TypeForms.same :
    ∀ {f g : TypeForm},
      A.TypeForms f g →
        f.withoutPlaces = g.withoutPlaces ∧
          f.equivalent g = true
  | .absent, _, .absent => ⟨rfl, rfl⟩
  | .named name, _, .named => by
      simp only [TypeForm.equivalent, decide_true, and_self]
  | .union _ _, _, .union hLeft hRight => by
      have hFirst := hLeft.same
      have hSecond := hRight.same
      simp only [TypeForm.withoutPlaces,
        TypeForm.equivalent, hFirst, hSecond, Bool.and_self,
        and_self]
  | .intersection _ _, _, .intersection hLeft hRight => by
      have hFirst := hLeft.same
      have hSecond := hRight.same
      simp only [TypeForm.withoutPlaces,
        TypeForm.equivalent, hFirst, hSecond, Bool.and_self,
        and_self]

theorem TypeExprs.same :
    ∀ {a b : TypeExpr},
      A.TypeExprs a b →
        a.withoutPlaces = b.withoutPlaces ∧
          a.equivalent b = true
  | ⟨_, _, _⟩, _, .intro hForm _ => by
      have hSame := hForm.same
      simp only [TypeExpr.withoutPlaces,
        TypeExpr.equivalent, hSame, and_self]

end

mutual

/- Aligned forms are the same but for their places. -/
theorem Forms.same :
    ∀ {f g : ExprForm},
      A.Forms f g →
        f.withoutPlaces = g.withoutPlaces ∧
          f.equivalent g = true
  | .int _, _, .int => by
      simp only [ExprForm.equivalent, decide_true, and_self]
  | .long _, _, .long => by
      simp only [ExprForm.equivalent, decide_true, and_self]
  | .boolean _, _, .boolean => by
      simp only [ExprForm.equivalent, decide_true, and_self]
  | .string _, _, .string => by
      simp only [ExprForm.equivalent, decide_true, and_self]
  | .template _, _, .template hParts => by
      have hSame := exprs_same hParts
      simp only [ExprForm.withoutPlaces,
        ExprForm.equivalent, hSame, and_self]
  | .reference _ _, _, .reference => by
      simp only [ExprForm.equivalent, decide_true, and_self]
  | .invocation _ _ _, _, .invocation hArguments => by
      have hSame := arguments_same hArguments
      simp only [ExprForm.withoutPlaces,
        ExprForm.equivalent, hSame, decide_true,
        Bool.and_self, and_self]
  | .call _ _, _, .call hCallee hArguments => by
      have hFirst := hCallee.same
      have hSecond := arguments_same hArguments
      simp only [ExprForm.withoutPlaces,
        ExprForm.equivalent, hFirst, hSecond, Bool.and_self,
        and_self]
  | .access _ _ _, _, .access hLeft hRight => by
      have hFirst := hLeft.same
      have hSecond := hRight.same
      simp only [ExprForm.withoutPlaces,
        ExprForm.equivalent, hFirst, hSecond, decide_true,
        Bool.and_self, and_self]
  | .binary _ _ _, _, .binary hLeft hRight => by
      have hFirst := hLeft.same
      have hSecond := hRight.same
      simp only [ExprForm.withoutPlaces,
        ExprForm.equivalent, hFirst, hSecond, decide_true,
        Bool.and_self, and_self]
  | .unary _ _, _, .unary hOperand => by
      have hSame := hOperand.same
      simp only [ExprForm.withoutPlaces,
        ExprForm.equivalent, hSame, decide_true,
        Bool.and_self, and_self]
  | .assignment _ _ _, _, .assignment hTarget hValue => by
      have hFirst := hTarget.same
      have hSecond := hValue.same
      simp only [ExprForm.withoutPlaces,
        ExprForm.equivalent, hFirst, hSecond, decide_true,
        Bool.and_self, and_self]
  | .parenthesized _, _, .parenthesized hInner => by
      have hSame := hInner.same
      simp only [ExprForm.withoutPlaces,
        ExprForm.equivalent, hSame, and_self]
  | .block _ _, _, .block hStatements => by
      have hSame := statements_same hStatements
      simp only [ExprForm.withoutPlaces,
        ExprForm.equivalent, hSame, and_self]
  | .conditional _ _ _, _,
      .conditional hCondition hThen hElse => by
      have hFirst := hCondition.same
      have hSecond := hThen.same
      have hThird := option_same hElse
      simp only [ExprForm.withoutPlaces,
        ExprForm.equivalent, hFirst, hSecond, hThird,
        Bool.and_self, and_self]
  | .function _ _ _ _, _,
      .function hParameters hType hBody => by
      have hFirst := parameters_same hParameters
      have hSecond := hType.same
      have hThird := hBody.same
      simp only [ExprForm.withoutPlaces,
        ExprForm.equivalent, hFirst, hSecond, hThird,
        Bool.and_self, and_self]
  | .lambda _ _ _, _, .lambda hParameters hBody => by
      have hFirst := parameters_same hParameters
      have hSecond := hBody.same
      simp only [ExprForm.withoutPlaces,
        ExprForm.equivalent, hFirst, hSecond, Bool.and_self,
        and_self]
  | .ret _, _, .ret hValue => by
      have hSame := option_same hValue
      simp only [ExprForm.withoutPlaces,
        ExprForm.equivalent, hSame, and_self]
termination_by structural f => f

/- Aligned expressions are the same but for their places. -/
theorem Exprs.same :
    ∀ {a b : Expr},
      A.Exprs a b →
        a.withoutPlaces = b.withoutPlaces ∧
          a.equivalent b = true
  | ⟨_, _, _⟩, _, .intro hForm _ => by
      have hSame := hForm.same
      simp only [Expr.withoutPlaces, Expr.equivalent, hSame,
        and_self]
termination_by structural a => a

theorem option_same :
    ∀ {o o' : Option Expr},
      Option.Rel A.Exprs o o' →
        optionWithoutPlaces o = optionWithoutPlaces o' ∧
          equivalentOptions o o' = true
  | none, _, .none => ⟨rfl, by simp only [equivalentOptions]⟩
  | some _, _, .some hExprs => by
      have hSame := hExprs.same
      simp only [optionWithoutPlaces, equivalentOptions,
        hSame, and_self]
termination_by structural o => o

theorem exprs_same :
    ∀ {es fs : List Expr},
      List.Forall₂ A.Exprs es fs →
        exprsWithoutPlaces es = exprsWithoutPlaces fs ∧
          equivalentExprs es fs = true
  | [], _, .nil => ⟨rfl, by simp only [equivalentExprs]⟩
  | _ :: _, _, .cons hFirst hRest => by
      have hSame := hFirst.same
      have hOthers := exprs_same hRest
      simp only [exprsWithoutPlaces, equivalentExprs, hSame,
        hOthers, Bool.and_self, and_self]
termination_by structural es => es

theorem arguments_same :
    ∀ {xs ys : List Argument},
      List.Forall₂ A.Arguments xs ys →
        argumentsWithoutPlaces xs =
            argumentsWithoutPlaces ys ∧
          equivalentArguments xs ys = true
  | [], _, .nil => ⟨rfl, by simp only [equivalentArguments]⟩
  | ⟨_, _, _⟩ :: _, _, .cons (.intro hValue _) hRest => by
      have hSame := hValue.same
      have hOthers := arguments_same hRest
      simp only [argumentsWithoutPlaces,
        equivalentArguments, Argument.equivalent, hSame,
        hOthers, decide_true, Bool.and_self, and_self]
termination_by structural xs => xs

theorem parameters_same :
    ∀ {ps qs : List Parameter},
      List.Forall₂ A.Parameters ps qs →
        parametersWithoutPlaces ps =
            parametersWithoutPlaces qs ∧
          equivalentParameters ps qs = true
  | [], _, .nil => ⟨rfl, by simp only [equivalentParameters]⟩
  | ⟨_, _, _, _, _⟩ :: _, _,
      .cons (.intro hType hFallback _) hRest => by
      have hWritten := hType.same
      have hSame := option_same hFallback
      have hOthers := parameters_same hRest
      simp only [parametersWithoutPlaces,
        equivalentParameters, Parameter.equivalent,
        hWritten, hSame, hOthers, decide_true,
        Bool.and_self, and_self]
termination_by structural ps => ps

theorem statements_same :
    ∀ {xs ys : List Statement},
      List.Forall₂ A.Statements xs ys →
        statementsWithoutPlaces xs =
            statementsWithoutPlaces ys ∧
          equivalentStatements xs ys = true
  | [], _, .nil => ⟨rfl, by simp only [equivalentStatements]⟩
  | _ :: _, _, .cons hFirst hRest => by
      have hSame := hFirst.same
      have hOthers := statements_same hRest
      simp only [statementsWithoutPlaces,
        equivalentStatements, hSame, hOthers,
        Bool.and_self, and_self]
termination_by structural xs => xs

theorem Statements.same :
    ∀ {x y : Statement},
      A.Statements x y →
        x.withoutPlaces = y.withoutPlaces ∧
          x.equivalent y = true
  | .expression _, _, .expression hExpr => by
      have hSame := hExpr.same
      simp only [Statement.withoutPlaces,
        Statement.equivalent, hSame, and_self]
  | .variable _, _, .variable hVariable => by
      have hSame := hVariable.same
      simp only [Statement.withoutPlaces,
        Statement.equivalent, hSame, and_self]
  | .function _, _, .function hFunction => by
      have hSame := hFunction.same
      simp only [Statement.withoutPlaces,
        Statement.equivalent, hSame, and_self]
termination_by structural x => x

theorem Variables.same :
    ∀ {v w : VariableDecl},
      A.Variables v w →
        v.withoutPlaces = w.withoutPlaces ∧
          v.equivalent w = true
  | ⟨_, _, _, _, _, _⟩, _, .intro hType hInitializer _ => by
      have hWritten := hType.same
      have hSame := option_same hInitializer
      simp only [VariableDecl.withoutPlaces,
        VariableDecl.equivalent, hWritten, hSame,
        decide_true, Bool.and_self, and_self]
termination_by structural v => v

theorem Functions.same :
    ∀ {f g : FunctionDecl},
      A.Functions f g →
        f.withoutPlaces = g.withoutPlaces ∧
          f.equivalent g = true
  | ⟨_, _, _, _, _, _, _⟩, _,
      .intro hParameters hType hBody _ => by
      have hFirst := parameters_same hParameters
      have hSecond := hType.same
      have hThird := option_same hBody
      simp only [FunctionDecl.withoutPlaces,
        FunctionDecl.equivalent, hFirst, hSecond, hThird,
        decide_true, Bool.and_self, and_self]
termination_by structural f => f

end

theorem Declarations.same
    {c d : Declaration}
    (hDeclarations : A.Declarations c d) :
    c.withoutPlaces = d.withoutPlaces ∧
      c.equivalent d = true := by
  cases hDeclarations with
  | function hFunction =>
      have hSame := hFunction.same
      exact ⟨congrArg Declaration.function hSame.1, hSame.2⟩
  | property hVariable =>
      have hSame := hVariable.same
      exact ⟨congrArg Declaration.property hSame.1, hSame.2⟩

------------------------------------------------------------
-- Aligned programs
------------------------------------------------------------

theorem Definitions.withoutPlaces_eq
    {d e : Definition}
    (hDefinitions : A.Definitions d e) :
    d.withoutPlaces = e.withoutPlaces := by
  unfold Definition.withoutPlaces
  rw [hDefinitions.name, hDefinitions.kind,
    hDefinitions.isMutable, hDefinitions.type]

/- Lists of what is the same are the same. -/
theorem map_eq_of_forall₂
    {α β : Type}
    {R : α → α → Prop}
    {f : α → β}
    {as bs : List α}
    (hLists : List.Forall₂ R as bs)
    (hEach : ∀ a b, R a b → f a = f b) :
    as.map f = bs.map f := by
  induction hLists with
  | nil => rfl
  | cons hFirst _ ih =>
      rw [List.map_cons, List.map_cons, hEach _ _ hFirst, ih]

theorem agree_of_forall₂
    {α : Type}
    {R : α → α → Prop}
    {same : α → α → Bool}
    {as bs : List α}
    (hLists : List.Forall₂ R as bs)
    (hEach : ∀ a b, R a b → same a b = true) :
    agree same as bs = true := by
  induction hLists with
  | nil => rfl
  | cons hFirst _ ih =>
      rw [agree, hEach _ _ hFirst, ih, Bool.and_self]

theorem SameSymbols.withoutPlaces_eq
    {y z : Symbols}
    (hSame : A.SameSymbols y z) :
    y.withoutPlaces = z.withoutPlaces := by
  have hDefinitions :
      y.definitions.map Definition.withoutPlaces =
        z.definitions.map Definition.withoutPlaces := by
    apply Array.toList_inj.1
    rw [Array.toList_map, Array.toList_map]
    exact map_eq_of_forall₂ hSame.definitions
      fun _ _ hBoth => hBoth.withoutPlaces_eq
  unfold Symbols.withoutPlaces
  rw [hSame.scopes, hDefinitions]

theorem Entries.same
    {a b : ImportEntry}
    (hEntries : A.Entries a b) :
    a.withoutPlaces = b.withoutPlaces ∧
      a.equivalent b = true := by
  unfold ImportEntry.withoutPlaces ImportEntry.equivalent
  rw [hEntries.name, hEntries.newName]
  simp only [decide_true, Bool.and_self, and_self]

theorem Imports.same
    {a b : Import}
    (hImports : A.Imports a b) :
    a.withoutPlaces = b.withoutPlaces ∧
      a.equivalent b = true := by
  have hEntries :=
    map_eq_of_forall₂ hImports.entries
      fun _ _ hBoth => hBoth.same.1
  have hAgree :=
    agree_of_forall₂ hImports.entries
      fun _ _ hBoth => hBoth.same.2
  constructor
  · unfold Import.withoutPlaces
    rw [hEntries, hImports.path, hImports.isResolved]
  · unfold Import.equivalent
    rw [hAgree, decide_eq_true hImports.path, Bool.and_self]

/- Aligned programs are the same but for their places. -/
theorem Programs.same
    {a b : Program}
    (hPrograms : A.Programs a b) :
    a.withoutPlaces = b.withoutPlaces ∧
      a.equivalent b = true := by
  constructor
  · unfold Program.withoutPlaces
    rw [map_eq_of_forall₂ hPrograms.imports
        fun _ _ hBoth => hBoth.same.1,
      map_eq_of_forall₂ hPrograms.declarations
        fun _ _ hBoth => hBoth.same.1,
      hPrograms.scope, hPrograms.symbols.withoutPlaces_eq]
  · unfold Program.equivalent
    rw [agree_of_forall₂ hPrograms.imports
        fun _ _ hBoth => hBoth.same.2,
      agree_of_forall₂ hPrograms.declarations
        fun _ _ hBoth => hBoth.same.2, Bool.and_self]

end Alignment

end SourceCheck
