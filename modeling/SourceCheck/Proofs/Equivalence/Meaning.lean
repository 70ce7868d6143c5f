import SourceCheck.Tree.Equivalence

/-
  What trees mean.

  The meaning of a tree is the tree with all places and all
  slots emptied: what is left are its nodes with their names,
  values and operators.  Two trees are equivalent if and only
  if they mean the same.

  Key definitions include:
    * `TypeExpr.meaning`
    * `Expr.meaning`
    * `Statement.meaning`
    * `Program.meaning`

  Key theorems include:
    * `TypeExpr.equivalent_iff`
    * `Expr.equivalent_iff`
    * `Program.equivalent_iff`
-/

namespace SourceCheck

------------------------------------------------------------
-- Meanings of written types
------------------------------------------------------------

mutual

def TypeForm.meaning : TypeForm → TypeForm
  | .absent => .absent
  | .named name => .named name
  | .union left right => .union left.meaning right.meaning
  | .intersection left right =>
      .intersection left.meaning right.meaning

/- A written type without its place and its type. -/
def TypeExpr.meaning : TypeExpr → TypeExpr
  | ⟨form, _, _⟩ => .new form.meaning .null

end

------------------------------------------------------------
-- Meanings of expressions and statements
------------------------------------------------------------

mutual

/- A form without targets and numbers of scopes. -/
def ExprForm.meaning : ExprForm → ExprForm
  | .int value => .int value
  | .long value => .long value
  | .boolean value => .boolean value
  | .string value => .string value
  | .template parts => .template (exprMeanings parts)
  | .reference name _ => .reference name .unknown
  | .invocation name arguments _ =>
      .invocation name (argumentMeanings arguments) .unknown
  | .call callee arguments =>
      .call callee.meaning (argumentMeanings arguments)
  | .access left safe right =>
      .access left.meaning safe right.meaning
  | .binary left operator right =>
      .binary left.meaning operator right.meaning
  | .unary operator operand =>
      .unary operator operand.meaning
  | .assignment target operator value =>
      .assignment target.meaning operator value.meaning
  | .parenthesized inner => .parenthesized inner.meaning
  | .block statements _ =>
      .block (statementMeanings statements) 0
  | .conditional condition thenBranch elseBranch =>
      .conditional condition.meaning thenBranch.meaning
        (optionMeaning elseBranch)
  | .function parameters returnType body _ =>
      .function (parameterMeanings parameters)
        returnType.meaning body.meaning 0
  | .lambda parameters body _ =>
      .lambda (parameterMeanings parameters) body.meaning 0
  | .ret value => .ret (optionMeaning value)

/- An expression without its place and its type. -/
def Expr.meaning : Expr → Expr
  | ⟨form, _, _⟩ => .new form.meaning .null

def Argument.meaning : Argument → Argument
  | ⟨name, value, _⟩ => ⟨name, value.meaning, .null⟩

/- A parameter without its place and its definition. -/
def Parameter.meaning : Parameter → Parameter
  | ⟨name, typeExpr, fallback, _, _⟩ =>
      ⟨name, typeExpr.meaning, optionMeaning fallback, 0,
        .null⟩

def Statement.meaning : Statement → Statement
  | .expression e => .expression e.meaning
  | .variable v => .variable v.meaning
  | .function f => .function f.meaning

/- A variable without its place and its definition. -/
def VariableDecl.meaning : VariableDecl → VariableDecl
  | ⟨isMutable, name, typeExpr, initializer, _, _⟩ =>
      ⟨isMutable, name, typeExpr.meaning,
        optionMeaning initializer, 0, .null⟩

/-
  A function without its place, its scope and its definition.
-/
def FunctionDecl.meaning : FunctionDecl → FunctionDecl
  | ⟨name, parameters, returnType, body, _, _, _⟩ =>
      ⟨name, parameterMeanings parameters,
        returnType.meaning, optionMeaning body, 0, 0, .null⟩

def optionMeaning : Option Expr → Option Expr
  | none => none
  | some e => some e.meaning

def exprMeanings : List Expr → List Expr
  | [] => []
  | e :: es => e.meaning :: exprMeanings es

def argumentMeanings : List Argument → List Argument
  | [] => []
  | x :: xs => x.meaning :: argumentMeanings xs

def parameterMeanings : List Parameter → List Parameter
  | [] => []
  | p :: ps => p.meaning :: parameterMeanings ps

def statementMeanings : List Statement → List Statement
  | [] => []
  | x :: xs => x.meaning :: statementMeanings xs

end

------------------------------------------------------------
-- Meanings of programs
------------------------------------------------------------

def ImportEntry.meaning (entry : ImportEntry) : ImportEntry :=
  { entry with span := .null }

/- An import without its places and its mark. -/
def Import.meaning (i : Import) : Import where
  path := i.path
  entries := i.entries.map ImportEntry.meaning
  span := .null
  isResolved := false

def Declaration.meaning : Declaration → Declaration
  | .function f => .function f.meaning
  | .property v => .property v.meaning

/- A program without its places, scopes and definitions. -/
def Program.meaning (p : Program) : Program where
  imports := p.imports.map Import.meaning
  declarations := p.declarations.map Declaration.meaning
  scope := 0
  symbols := .empty
  span := .null

------------------------------------------------------------
-- Equivalence of written types
------------------------------------------------------------

mutual

/- The induction is on the first form. -/
theorem TypeForm.equivalent_iff :
    ∀ f g : TypeForm,
      f.equivalent g = true ↔ f.meaning = g.meaning
  | .absent, g => by
      cases g <;>
        simp [TypeForm.equivalent, TypeForm.meaning]
  | .named _, g => by
      cases g <;>
        simp [TypeForm.equivalent, TypeForm.meaning]
  | .union left right, g => by
      have hLeft := TypeExpr.equivalent_iff left
      have hRight := TypeExpr.equivalent_iff right
      cases g <;>
        simp [TypeForm.equivalent, TypeForm.meaning, hLeft,
          hRight]
  | .intersection left right, g => by
      have hLeft := TypeExpr.equivalent_iff left
      have hRight := TypeExpr.equivalent_iff right
      cases g <;>
        simp [TypeForm.equivalent, TypeForm.meaning, hLeft,
          hRight]
termination_by structural f => f

/- Written types are equivalent if they mean the same. -/
theorem TypeExpr.equivalent_iff :
    ∀ s t : TypeExpr,
      s.equivalent t = true ↔ s.meaning = t.meaning
  | ⟨form, _, _⟩, ⟨other, _, _⟩ => by
      have hForms := TypeForm.equivalent_iff form other
      simp [TypeExpr.equivalent, TypeExpr.meaning,
        TypeExpr.new, hForms]
termination_by structural s => s

end

------------------------------------------------------------
-- Equivalence of expressions and statements
------------------------------------------------------------

mutual

/-
  The induction is on the first form; the other one has to
  be made by the same constructor.
-/
theorem ExprForm.equivalent_iff :
    ∀ f g : ExprForm,
      f.equivalent g = true ↔ f.meaning = g.meaning
  | .int _, g => by
      cases g <;>
        simp [ExprForm.equivalent, ExprForm.meaning]
  | .long _, g => by
      cases g <;>
        simp [ExprForm.equivalent, ExprForm.meaning]
  | .boolean _, g => by
      cases g <;>
        simp [ExprForm.equivalent, ExprForm.meaning]
  | .string _, g => by
      cases g <;>
        simp [ExprForm.equivalent, ExprForm.meaning]
  | .template parts, g => by
      have hParts := equivalentExprs_iff parts
      cases g <;>
        simp [ExprForm.equivalent, ExprForm.meaning, hParts]
  | .reference _ _, g => by
      cases g <;>
        simp [ExprForm.equivalent, ExprForm.meaning]
  | .invocation _ arguments _, g => by
      have hArguments := equivalentArguments_iff arguments
      cases g <;>
        simp [ExprForm.equivalent, ExprForm.meaning,
          hArguments]
  | .call callee arguments, g => by
      have hCallee := Expr.equivalent_iff callee
      have hArguments := equivalentArguments_iff arguments
      cases g <;>
        simp [ExprForm.equivalent, ExprForm.meaning, hCallee,
          hArguments]
  | .access left _ right, g => by
      have hLeft := Expr.equivalent_iff left
      have hRight := Expr.equivalent_iff right
      cases g <;>
        simp [ExprForm.equivalent, ExprForm.meaning, hLeft,
          hRight, and_left_comm, and_assoc]
  | .binary left _ right, g => by
      have hLeft := Expr.equivalent_iff left
      have hRight := Expr.equivalent_iff right
      cases g <;>
        simp [ExprForm.equivalent, ExprForm.meaning, hLeft,
          hRight, and_left_comm, and_assoc]
  | .unary _ operand, g => by
      have hOperand := Expr.equivalent_iff operand
      cases g <;>
        simp [ExprForm.equivalent, ExprForm.meaning, hOperand]
  | .assignment target _ value, g => by
      have hTarget := Expr.equivalent_iff target
      have hValue := Expr.equivalent_iff value
      cases g <;>
        simp [ExprForm.equivalent, ExprForm.meaning, hTarget,
          hValue, and_left_comm, and_assoc]
  | .parenthesized inner, g => by
      have hInner := Expr.equivalent_iff inner
      cases g <;>
        simp [ExprForm.equivalent, ExprForm.meaning, hInner]
  | .block statements _, g => by
      have hStatements := equivalentStatements_iff statements
      cases g <;>
        simp [ExprForm.equivalent, ExprForm.meaning,
          hStatements]
  | .conditional condition thenBranch elseBranch, g => by
      have hCondition := Expr.equivalent_iff condition
      have hThen := Expr.equivalent_iff thenBranch
      have hElse := equivalentOptions_iff elseBranch
      cases g <;>
        simp [ExprForm.equivalent, ExprForm.meaning,
          hCondition, hThen, hElse, and_assoc]
  | .function parameters returnType body _, g => by
      have hParameters := equivalentParameters_iff parameters
      have hType := TypeExpr.equivalent_iff returnType
      have hBody := Expr.equivalent_iff body
      cases g <;>
        simp [ExprForm.equivalent, ExprForm.meaning,
          hParameters, hType, hBody, and_assoc]
  | .lambda parameters body _, g => by
      have hParameters := equivalentParameters_iff parameters
      have hBody := Expr.equivalent_iff body
      cases g <;>
        simp [ExprForm.equivalent, ExprForm.meaning,
          hParameters, hBody]
  | .ret value, g => by
      have hValue := equivalentOptions_iff value
      cases g <;>
        simp [ExprForm.equivalent, ExprForm.meaning, hValue]
termination_by structural f => f

/- Expressions are equivalent if they mean the same. -/
theorem Expr.equivalent_iff :
    ∀ a b : Expr,
      a.equivalent b = true ↔ a.meaning = b.meaning
  | ⟨form, _, _⟩, ⟨other, _, _⟩ => by
      have hForms := ExprForm.equivalent_iff form other
      simp [Expr.equivalent, Expr.meaning, Expr.new, hForms]
termination_by structural a => a

theorem Argument.equivalent_iff :
    ∀ x y : Argument,
      x.equivalent y = true ↔ x.meaning = y.meaning
  | ⟨_, value, _⟩, ⟨_, other, _⟩ => by
      have hValue := Expr.equivalent_iff value other
      simp [Argument.equivalent, Argument.meaning, hValue]
termination_by structural x => x

theorem Parameter.equivalent_iff :
    ∀ p q : Parameter,
      p.equivalent q = true ↔ p.meaning = q.meaning
  | ⟨_, typeExpr, fallback, _, _⟩,
      ⟨_, otherType, other, _, _⟩ => by
      have hType :=
        TypeExpr.equivalent_iff typeExpr otherType
      have hFallback := equivalentOptions_iff fallback other
      simp [Parameter.equivalent, Parameter.meaning, hType,
        hFallback, and_assoc]
termination_by structural p => p

theorem Statement.equivalent_iff :
    ∀ x y : Statement,
      x.equivalent y = true ↔ x.meaning = y.meaning
  | .expression e, y => by
      have hExpr := Expr.equivalent_iff e
      cases y <;>
        simp [Statement.equivalent, Statement.meaning, hExpr]
  | .variable v, y => by
      have hVariable := VariableDecl.equivalent_iff v
      cases y <;>
        simp [Statement.equivalent, Statement.meaning,
          hVariable]
  | .function f, y => by
      have hFunction := FunctionDecl.equivalent_iff f
      cases y <;>
        simp [Statement.equivalent, Statement.meaning,
          hFunction]
termination_by structural x => x

theorem VariableDecl.equivalent_iff :
    ∀ v w : VariableDecl,
      v.equivalent w = true ↔ v.meaning = w.meaning
  | ⟨_, _, typeExpr, initializer, _, _⟩,
      ⟨_, _, otherType, other, _, _⟩ => by
      have hType :=
        TypeExpr.equivalent_iff typeExpr otherType
      have hInitializer :=
        equivalentOptions_iff initializer other
      simp [VariableDecl.equivalent, VariableDecl.meaning,
        hType, hInitializer, and_assoc]
termination_by structural v => v

theorem FunctionDecl.equivalent_iff :
    ∀ f g : FunctionDecl,
      f.equivalent g = true ↔ f.meaning = g.meaning
  | ⟨_, parameters, returnType, body, _, _, _⟩,
      ⟨_, others, otherType, other, _, _, _⟩ => by
      have hParameters :=
        equivalentParameters_iff parameters others
      have hType :=
        TypeExpr.equivalent_iff returnType otherType
      have hBody := equivalentOptions_iff body other
      simp [FunctionDecl.equivalent, FunctionDecl.meaning,
        hParameters, hType, hBody, and_assoc]
termination_by structural f => f

theorem equivalentOptions_iff :
    ∀ o p : Option Expr,
      equivalentOptions o p = true ↔
        optionMeaning o = optionMeaning p
  | none, p => by
      cases p <;> simp [equivalentOptions, optionMeaning]
  | some e, p => by
      have hExpr := Expr.equivalent_iff e
      cases p <;>
        simp [equivalentOptions, optionMeaning, hExpr]
termination_by structural o => o

theorem equivalentExprs_iff :
    ∀ es fs : List Expr,
      equivalentExprs es fs = true ↔
        exprMeanings es = exprMeanings fs
  | [], fs => by
      cases fs <;> simp [equivalentExprs, exprMeanings]
  | e :: es, fs => by
      have hFirst := Expr.equivalent_iff e
      have hRest := equivalentExprs_iff es
      cases fs <;>
        simp [equivalentExprs, exprMeanings, hFirst, hRest]
termination_by structural es => es

theorem equivalentArguments_iff :
    ∀ xs ys : List Argument,
      equivalentArguments xs ys = true ↔
        argumentMeanings xs = argumentMeanings ys
  | [], ys => by
      cases ys <;>
        simp [equivalentArguments, argumentMeanings]
  | x :: xs, ys => by
      have hFirst := Argument.equivalent_iff x
      have hRest := equivalentArguments_iff xs
      cases ys <;>
        simp [equivalentArguments, argumentMeanings, hFirst,
          hRest]
termination_by structural xs => xs

theorem equivalentParameters_iff :
    ∀ ps qs : List Parameter,
      equivalentParameters ps qs = true ↔
        parameterMeanings ps = parameterMeanings qs
  | [], qs => by
      cases qs <;>
        simp [equivalentParameters, parameterMeanings]
  | p :: ps, qs => by
      have hFirst := Parameter.equivalent_iff p
      have hRest := equivalentParameters_iff ps
      cases qs <;>
        simp [equivalentParameters, parameterMeanings, hFirst,
          hRest]
termination_by structural ps => ps

theorem equivalentStatements_iff :
    ∀ xs ys : List Statement,
      equivalentStatements xs ys = true ↔
        statementMeanings xs = statementMeanings ys
  | [], ys => by
      cases ys <;>
        simp [equivalentStatements, statementMeanings]
  | x :: xs, ys => by
      have hFirst := Statement.equivalent_iff x
      have hRest := equivalentStatements_iff xs
      cases ys <;>
        simp [equivalentStatements, statementMeanings, hFirst,
          hRest]
termination_by structural xs => xs

end

------------------------------------------------------------
-- Equivalence of programs
------------------------------------------------------------

/- Lists agree if what is compared of them is the same. -/
theorem agree_iff_map_eq
    {α β : Type}
    {same : α → α → Bool}
    {view : α → β}
    (hSame : ∀ a b, same a b = true ↔ view a = view b) :
    ∀ as bs : List α,
      agree same as bs = true ↔ as.map view = bs.map view
  | [], [] => by simp [agree]
  | [], _ :: _ => by simp [agree]
  | _ :: _, [] => by simp [agree]
  | a :: as, b :: bs => by
      have hRest := agree_iff_map_eq hSame as bs
      simp [agree, hSame, hRest]

theorem ImportEntry.equivalent_iff (a b : ImportEntry) :
    a.equivalent b = true ↔ a.meaning = b.meaning := by
  simp [ImportEntry.equivalent, ImportEntry.meaning]

theorem Import.equivalent_iff (i j : Import) :
    i.equivalent j = true ↔ i.meaning = j.meaning := by
  have hEntries :=
    agree_iff_map_eq ImportEntry.equivalent_iff i.entries
      j.entries
  simp [Import.equivalent, Import.meaning, hEntries]

theorem Declaration.equivalent_iff (c d : Declaration) :
    c.equivalent d = true ↔ c.meaning = d.meaning := by
  cases c with
  | function f =>
      have hFunction := FunctionDecl.equivalent_iff f
      cases d <;>
        simp [Declaration.equivalent, Declaration.meaning,
          hFunction]
  | property v =>
      have hVariable := VariableDecl.equivalent_iff v
      cases d <;>
        simp [Declaration.equivalent, Declaration.meaning,
          hVariable]

/- Programs are equivalent if they mean the same. -/
theorem Program.equivalent_iff (p q : Program) :
    p.equivalent q = true ↔ p.meaning = q.meaning := by
  have hImports :=
    agree_iff_map_eq Import.equivalent_iff p.imports
      q.imports
  have hDeclarations :=
    agree_iff_map_eq Declaration.equivalent_iff
      p.declarations q.declarations
  simp [Program.equivalent, Program.meaning, hImports,
    hDeclarations]

end SourceCheck
