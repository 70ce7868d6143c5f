import SourceCheck.Proofs.Equivalence.Meaning

/-
  Trees with a hole.

  A frame is a node of which one part is missing, and a
  context is a tree of which one subtree is missing, however
  deeply it lies.  What a tree means depends on a subtree by
  nothing but what the subtree means.  So equivalent subtrees
  may stand for each other everywhere.

  Key definitions include:
    * `NodeKind`
    * `Frame`
    * `Context`

  Key theorems include:
    * `Frame.meaning_fill`
    * `Context.meaning_fill`
    * `equivalent_iff_same_meaning`
-/

namespace SourceCheck

------------------------------------------------------------
-- Kinds of nodes
------------------------------------------------------------

/- What a node of a program is. -/
inductive NodeKind where
  | typeForm
  | typeExpr
  | form
  | expr
  | argument
  | parameter
  | statement
  | variableDecl
  | functionDecl
  | entry
  | imported
  | declaration
  | program
deriving DecidableEq

namespace NodeKind

/- The trees below nodes of a kind. -/
abbrev Tree : NodeKind → Type
  | typeForm => TypeForm
  | typeExpr => TypeExpr
  | form => ExprForm
  | expr => Expr
  | argument => Argument
  | parameter => Parameter
  | statement => Statement
  | variableDecl => VariableDecl
  | functionDecl => FunctionDecl
  | entry => ImportEntry
  | imported => Import
  | declaration => Declaration
  | program => Program

/- Two trees are equivalent. -/
def equivalent : (k : NodeKind) → k.Tree → k.Tree → Bool
  | typeForm => TypeForm.equivalent
  | typeExpr => TypeExpr.equivalent
  | form => ExprForm.equivalent
  | expr => Expr.equivalent
  | argument => Argument.equivalent
  | parameter => Parameter.equivalent
  | statement => Statement.equivalent
  | variableDecl => VariableDecl.equivalent
  | functionDecl => FunctionDecl.equivalent
  | entry => ImportEntry.equivalent
  | imported => Import.equivalent
  | declaration => Declaration.equivalent
  | program => Program.equivalent

/- What a tree means. -/
def meaning : (k : NodeKind) → k.Tree → k.Tree
  | typeForm => TypeForm.meaning
  | typeExpr => TypeExpr.meaning
  | form => ExprForm.meaning
  | expr => Expr.meaning
  | argument => Argument.meaning
  | parameter => Parameter.meaning
  | statement => Statement.meaning
  | variableDecl => VariableDecl.meaning
  | functionDecl => FunctionDecl.meaning
  | entry => ImportEntry.meaning
  | imported => Import.meaning
  | declaration => Declaration.meaning
  | program => Program.meaning

/- Trees are equivalent if they mean the same. -/
theorem equivalent_iff :
    ∀ (k : NodeKind) (a b : k.Tree),
      k.equivalent a b = true ↔ k.meaning a = k.meaning b
  | typeForm => TypeForm.equivalent_iff
  | typeExpr => TypeExpr.equivalent_iff
  | form => ExprForm.equivalent_iff
  | expr => Expr.equivalent_iff
  | argument => Argument.equivalent_iff
  | parameter => Parameter.equivalent_iff
  | statement => Statement.equivalent_iff
  | variableDecl => VariableDecl.equivalent_iff
  | functionDecl => FunctionDecl.equivalent_iff
  | entry => ImportEntry.equivalent_iff
  | imported => Import.equivalent_iff
  | declaration => Declaration.equivalent_iff
  | program => Program.equivalent_iff

/- So equivalence is an equivalence relation. -/
theorem equivalence (k : NodeKind) :
    Equivalence fun a b : k.Tree =>
      k.equivalent a b = true where
  refl a := (k.equivalent_iff a a).2 rfl
  symm hSame := by
    rw [k.equivalent_iff] at hSame ⊢
    exact hSame.symm
  trans hFirst hSecond := by
    rw [k.equivalent_iff] at hFirst hSecond ⊢
    exact hFirst.trans hSecond

end NodeKind

------------------------------------------------------------
-- Frames
------------------------------------------------------------

/- A node of the second kind without a part of the first. -/
inductive Frame : NodeKind → NodeKind → Type where
  -- Written types.
  | unionLeft (right : TypeExpr) : Frame .typeExpr .typeForm
  | unionRight (left : TypeExpr) : Frame .typeExpr .typeForm
  | intersectionLeft (right : TypeExpr) :
      Frame .typeExpr .typeForm
  | intersectionRight (left : TypeExpr) :
      Frame .typeExpr .typeForm
  | typeForm (span : Span) (type : Option Ty) :
      Frame .typeForm .typeExpr
  -- Expressions.
  | part (before after : List Expr) : Frame .expr .form
  | invocationArgument
      (name : String)
      (before after : List Argument)
      (target : Target) :
      Frame .argument .form
  | callCallee (arguments : List Argument) : Frame .expr .form
  | callArgument
      (callee : Expr)
      (before after : List Argument) :
      Frame .argument .form
  | accessLeft (safe : Bool) (right : Expr) :
      Frame .expr .form
  | accessRight (left : Expr) (safe : Bool) :
      Frame .expr .form
  | binaryLeft (operator : BinaryOperator) (right : Expr) :
      Frame .expr .form
  | binaryRight (left : Expr) (operator : BinaryOperator) :
      Frame .expr .form
  | operand (operator : UnaryOperator) : Frame .expr .form
  | assignmentTarget
      (operator : AssignmentOperator)
      (value : Expr) :
      Frame .expr .form
  | assignmentValue
      (target : Expr)
      (operator : AssignmentOperator) :
      Frame .expr .form
  | parenthesized : Frame .expr .form
  | blockStatement
      (before after : List Statement)
      (scope : ScopeId) :
      Frame .statement .form
  | conditionalTest
      (thenBranch : Expr)
      (elseBranch : Option Expr) :
      Frame .expr .form
  | conditionalThen
      (condition : Expr)
      (elseBranch : Option Expr) :
      Frame .expr .form
  | conditionalElse (condition thenBranch : Expr) :
      Frame .expr .form
  | literalParameter
      (before after : List Parameter)
      (returnType : TypeExpr)
      (body : Expr)
      (scope : ScopeId) :
      Frame .parameter .form
  | literalType
      (parameters : List Parameter)
      (body : Expr)
      (scope : ScopeId) :
      Frame .typeExpr .form
  | literalBody
      (parameters : List Parameter)
      (returnType : TypeExpr)
      (scope : ScopeId) :
      Frame .expr .form
  | lambdaParameter
      (before after : List Parameter)
      (body : Expr)
      (scope : ScopeId) :
      Frame .parameter .form
  | lambdaBody
      (parameters : List Parameter)
      (scope : ScopeId) :
      Frame .expr .form
  | returned : Frame .expr .form
  | form (span : Span) (type : Option Ty) :
      Frame .form .expr
  -- Arguments and parameters.
  | argumentValue (name : Option String) (span : Span) :
      Frame .expr .argument
  | parameterType
      (name : String)
      (fallback : Option Expr)
      (definition : DefinitionId)
      (span : Span) :
      Frame .typeExpr .parameter
  | parameterFallback
      (name : String)
      (typeExpr : TypeExpr)
      (definition : DefinitionId)
      (span : Span) :
      Frame .expr .parameter
  -- Statements and declarations.
  | expressionStatement : Frame .expr .statement
  | variableStatement : Frame .variableDecl .statement
  | functionStatement : Frame .functionDecl .statement
  | variableType
      (isMutable : Bool)
      (name : String)
      (initializer : Option Expr)
      (definition : DefinitionId)
      (span : Span) :
      Frame .typeExpr .variableDecl
  | variableInitializer
      (isMutable : Bool)
      (name : String)
      (typeExpr : TypeExpr)
      (definition : DefinitionId)
      (span : Span) :
      Frame .expr .variableDecl
  | functionParameter
      (name : String)
      (before after : List Parameter)
      (returnType : TypeExpr)
      (body : Option Expr)
      (scope : ScopeId)
      (definition : DefinitionId)
      (span : Span) :
      Frame .parameter .functionDecl
  | functionType
      (name : String)
      (parameters : List Parameter)
      (body : Option Expr)
      (scope : ScopeId)
      (definition : DefinitionId)
      (span : Span) :
      Frame .typeExpr .functionDecl
  | functionBody
      (name : String)
      (parameters : List Parameter)
      (returnType : TypeExpr)
      (scope : ScopeId)
      (definition : DefinitionId)
      (span : Span) :
      Frame .expr .functionDecl
  -- Programs.
  | importEntry
      (path : String)
      (before after : List ImportEntry)
      (span : Span)
      (isResolved : Bool) :
      Frame .entry .imported
  | functionDeclaration : Frame .functionDecl .declaration
  | propertyDeclaration : Frame .variableDecl .declaration
  | programImport
      (before after : List Import)
      (declarations : List Declaration)
      (scope : ScopeId)
      (symbols : Symbols)
      (span : Span) :
      Frame .imported .program
  | programDeclaration
      (imports : List Import)
      (before after : List Declaration)
      (scope : ScopeId)
      (symbols : Symbols)
      (span : Span) :
      Frame .declaration .program

namespace Frame

/- The node with its missing part. -/
def fill :
    {k l : NodeKind} → Frame k l → k.Tree → l.Tree
  | _, _, unionLeft right, t => .union t right
  | _, _, unionRight left, t => .union left t
  | _, _, intersectionLeft right, t => .intersection t right
  | _, _, intersectionRight left, t => .intersection left t
  | _, _, typeForm span type, f => ⟨f, span, type⟩
  | _, _, part before after, e =>
      .template (before ++ e :: after)
  | _, _, invocationArgument name before after target, x =>
      .invocation name (before ++ x :: after) target
  | _, _, callCallee arguments, e => .call e arguments
  | _, _, callArgument callee before after, x =>
      .call callee (before ++ x :: after)
  | _, _, accessLeft safe right, e => .access e safe right
  | _, _, accessRight left safe, e => .access left safe e
  | _, _, binaryLeft operator right, e =>
      .binary e operator right
  | _, _, binaryRight left operator, e =>
      .binary left operator e
  | _, _, operand operator, e => .unary operator e
  | _, _, assignmentTarget operator value, e =>
      .assignment e operator value
  | _, _, assignmentValue target operator, e =>
      .assignment target operator e
  | _, _, parenthesized, e => .parenthesized e
  | _, _, blockStatement before after scope, x =>
      .block (before ++ x :: after) scope
  | _, _, conditionalTest thenBranch elseBranch, e =>
      .conditional e thenBranch elseBranch
  | _, _, conditionalThen condition elseBranch, e =>
      .conditional condition e elseBranch
  | _, _, conditionalElse condition thenBranch, e =>
      .conditional condition thenBranch (some e)
  | _, _, literalParameter before after type body scope, p =>
      .function (before ++ p :: after) type body scope
  | _, _, literalType parameters body scope, t =>
      .function parameters t body scope
  | _, _, literalBody parameters returnType scope, e =>
      .function parameters returnType e scope
  | _, _, lambdaParameter before after body scope, p =>
      .lambda (before ++ p :: after) body scope
  | _, _, lambdaBody parameters scope, e =>
      .lambda parameters e scope
  | _, _, returned, e => .ret (some e)
  | _, _, form span type, f => ⟨f, span, type⟩
  | _, _, argumentValue name span, e => ⟨name, e, span⟩
  | _, _, parameterType name fallback definition span, t =>
      ⟨name, t, fallback, definition, span⟩
  | _, _, parameterFallback name type definition span, e =>
      ⟨name, type, some e, definition, span⟩
  | _, _, expressionStatement, e => .expression e
  | _, _, variableStatement, v => .variable v
  | _, _, functionStatement, f => .function f
  | _, _,
      variableType isMutable name initializer definition span,
      t =>
      ⟨isMutable, name, t, initializer, definition, span⟩
  | _, _,
      variableInitializer isMutable name type definition span,
      e =>
      ⟨isMutable, name, type, some e, definition, span⟩
  | _, _,
      functionParameter name before after type body scope
        definition span,
      p =>
      ⟨name, before ++ p :: after, type, body, scope,
        definition, span⟩
  | _, _,
      functionType name parameters body scope definition span,
      t =>
      ⟨name, parameters, t, body, scope, definition, span⟩
  | _, _,
      functionBody name parameters type scope definition span,
      e =>
      ⟨name, parameters, type, some e, scope, definition,
        span⟩
  | _, _, importEntry path before after span isResolved, x =>
      ⟨path, before ++ x :: after, span, isResolved⟩
  | _, _, functionDeclaration, f => .function f
  | _, _, propertyDeclaration, v => .property v
  | _, _,
      programImport before after declarations scope symbols
        span,
      i =>
      ⟨before ++ i :: after, declarations, scope, symbols,
        span⟩
  | _, _,
      programDeclaration imports before after scope symbols
        span,
      d =>
      ⟨imports, before ++ d :: after, scope, symbols, span⟩

end Frame

section Lists

theorem exprMeanings_eq_map (es : List Expr) :
    exprMeanings es = es.map Expr.meaning := by
  induction es with
  | nil => rfl
  | cons e es ih => rw [exprMeanings, ih, List.map_cons]

theorem argumentMeanings_eq_map (xs : List Argument) :
    argumentMeanings xs = xs.map Argument.meaning := by
  induction xs with
  | nil => rfl
  | cons x xs ih => rw [argumentMeanings, ih, List.map_cons]

theorem parameterMeanings_eq_map (ps : List Parameter) :
    parameterMeanings ps = ps.map Parameter.meaning := by
  induction ps with
  | nil => rfl
  | cons p ps ih => rw [parameterMeanings, ih, List.map_cons]

theorem statementMeanings_eq_map (xs : List Statement) :
    statementMeanings xs = xs.map Statement.meaning := by
  induction xs with
  | nil => rfl
  | cons x xs ih => rw [statementMeanings, ih, List.map_cons]

end Lists

namespace Frame

/-
  What a node means depends on a part by nothing but what
  the part means.
-/
theorem meaning_fill
    {k l : NodeKind}
    (frame : Frame k l)
    {a b : k.Tree}
    (hSame : k.meaning a = k.meaning b) :
    l.meaning (frame.fill a) = l.meaning (frame.fill b) := by
  cases frame with
  -- What an import means is folded where an import is a part.
  | importEntry =>
      simp only [NodeKind.meaning] at hSame
      simp only [fill, NodeKind.meaning, Import.meaning,
        List.map_append, List.map_cons, hSame]
  | programImport | programDeclaration =>
      simp only [NodeKind.meaning] at hSame
      simp only [fill, NodeKind.meaning, Program.meaning,
        List.map_append, List.map_cons, hSame]
  | _ =>
      simp only [NodeKind.meaning] at hSame
      simp only [fill, NodeKind.meaning, TypeForm.meaning,
        TypeExpr.meaning, ExprForm.meaning, Expr.meaning,
        Argument.meaning, Parameter.meaning,
        Statement.meaning, VariableDecl.meaning,
        FunctionDecl.meaning, Declaration.meaning,
        optionMeaning, exprMeanings_eq_map,
        argumentMeanings_eq_map, parameterMeanings_eq_map,
        statementMeanings_eq_map, List.map_append,
        List.map_cons, hSame]

end Frame

------------------------------------------------------------
-- Contexts
------------------------------------------------------------

/- A tree of the second kind without a subtree of the first. -/
inductive Context : NodeKind → NodeKind → Type where
  | hole {k} : Context k k
  | within {k l m}
      (frame : Frame l m)
      (inner : Context k l) :
      Context k m

namespace Context

/- The tree with its missing subtree. -/
def fill :
    {k m : NodeKind} → Context k m → k.Tree → m.Tree
  | _, _, hole, a => a
  | _, _, within frame inner, a => frame.fill (inner.fill a)

/- Subtrees that mean the same may stand for each other. -/
theorem meaning_fill
    {k m : NodeKind}
    (c : Context k m)
    {a b : k.Tree}
    (hSame : k.meaning a = k.meaning b) :
    m.meaning (c.fill a) = m.meaning (c.fill b) := by
  induction c with
  | hole =>
      simp only [fill]
      exact hSame
  | within frame inner ih =>
      simp only [fill]
      exact frame.meaning_fill ih

end Context

------------------------------------------------------------
-- Equivalence
------------------------------------------------------------

/-
  Equivalence is sameness of meaning.

  Whatever their kind, two trees are equivalent if and only
  if they are the same once all places and slots are emptied.
  So equivalence is reflexive, symmetric and transitive, and
  in every tree a subtree may be replaced by an equivalent
  one.
-/
theorem equivalent_iff_same_meaning (k : NodeKind) :
    (∀ a b : k.Tree,
        k.equivalent a b = true ↔
          k.meaning a = k.meaning b) ∧
      (Equivalence fun a b : k.Tree =>
        k.equivalent a b = true) ∧
        ∀ (m : NodeKind) (c : Context k m) (a b : k.Tree),
          k.equivalent a b = true →
            m.equivalent (c.fill a) (c.fill b) = true := by
  refine ⟨k.equivalent_iff, k.equivalence, ?_⟩
  intro m c a b hSame
  rw [k.equivalent_iff] at hSame
  rw [m.equivalent_iff]
  exact c.meaning_fill hSame

/- A program whose only property starts as `-` of a hole. -/
def negatedProperty : Context .expr .program :=
  .within (.programDeclaration [] [] [] 0 .empty .null)
    (.within .propertyDeclaration
      (.within
        (.variableInitializer false "x"
          (.new .absent .null) 0 .null)
        (.within (.form .null none)
          (.within (.operand .negate) .hole))))

/- A number with a place and a type, and one without them. -/
theorem equivalent_iff_same_meaning_negated :
    let one : Expr :=
      ⟨.int 1, .point (Position.first "main"), some .int⟩
    let other : Expr := .new (.int 1) .null
    one.equivalent other = true ∧
      NodeKind.program.equivalent (negatedProperty.fill one)
        (negatedProperty.fill other) = true := by
  intro one other
  have hSame : one.equivalent other = true := by
    simp [one, other, Expr.new, Expr.equivalent,
      ExprForm.equivalent]
  exact ⟨hSame,
    (equivalent_iff_same_meaning .expr).2.2 .program
      negatedProperty one other hSame⟩

end SourceCheck
