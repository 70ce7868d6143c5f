import SourceCheck.Scope.Symbols
import SourceCheck.Tree.Operator
import SourceCheck.Tree.TypeExpr

/-
  Programs as trees.

  Nodes keep their places, and slots for what is only known
  once names and types are resolved: the type of an
  expression, and what a name refers to.

  Key definitions include:
    * `ReferenceKind`
    * `Target`
    * `Expr`
    * `ExprForm`
    * `Argument`
    * `Parameter`
    * `Statement`
    * `VariableDecl`
    * `FunctionDecl`
    * `Expr.endsWithBlock`
    * `Import`
    * `Declaration`
    * `Program`
-/

namespace SourceCheck

------------------------------------------------------------
-- References
------------------------------------------------------------

/- How a name reaches what it refers to. -/
inductive ReferenceKind where
  | inScope
  | static
  | object
  | topLevel
  | member
deriving DecidableEq, Inhabited

/- The name of a kind of reference. -/
def ReferenceKind.name : ReferenceKind → String
  | inScope => "Local"
  | static => "Static"
  | object => "Object"
  | topLevel => "TopLevel"
  | member => "Member"

/- What a name refers to, as far as it is known. -/
structure Target where
  kind : Option ReferenceKind
  definition : Option DefinitionId
  member : Option Member
deriving DecidableEq, Inhabited

/- Nothing is known yet. -/
def Target.unknown : Target :=
  ⟨none, none, none⟩

------------------------------------------------------------
-- Expressions and statements
------------------------------------------------------------

mutual

/- The forms of an expression. -/
inductive ExprForm where
  | int (value : Int)
  | long (value : Int)
  | boolean (value : Bool)
  | string (value : String)
  | template (parts : List Expr)
  | reference (name : String) (target : Target)
  | invocation
      (name : String)
      (arguments : List Argument)
      (target : Target)
  | call (callee : Expr) (arguments : List Argument)
  | access (left : Expr) (safe : Bool) (right : Expr)
  | binary
      (left : Expr)
      (operator : BinaryOperator)
      (right : Expr)
  | unary (operator : UnaryOperator) (operand : Expr)
  | assignment
      (target : Expr)
      (operator : AssignmentOperator)
      (value : Expr)
  | parenthesized (inner : Expr)
  | block (statements : List Statement) (scope : ScopeId)
  | conditional
      (condition thenBranch : Expr)
      (elseBranch : Option Expr)
  | function
      (parameters : List Parameter)
      (returnType : TypeExpr)
      (body : Expr)
      (scope : ScopeId)
  | lambda
      (parameters : List Parameter)
      (body : Expr)
      (scope : ScopeId)
  | ret (value : Option Expr)

/- An expression, its place and its type. -/
structure Expr where
  form : ExprForm
  span : Span
  type : Option Ty

/- A value that is passed, maybe under a name. -/
structure Argument where
  name : Option String
  value : Expr
  span : Span

/- A parameter of a function. -/
structure Parameter where
  name : String
  typeExpr : TypeExpr
  fallback : Option Expr
  definition : DefinitionId
  span : Span

/- A statement of a block. -/
inductive Statement where
  | expression (e : Expr)
  | variable (v : VariableDecl)
  | function (f : FunctionDecl)

/- The declaration of a variable. -/
structure VariableDecl where
  isMutable : Bool
  name : String
  typeExpr : TypeExpr
  initializer : Option Expr
  definition : DefinitionId
  span : Span

/- The declaration of a function, which may lack a body. -/
structure FunctionDecl where
  name : String
  parameters : List Parameter
  returnType : TypeExpr
  body : Option Expr
  scope : ScopeId
  definition : DefinitionId
  span : Span

end

instance : Inhabited ExprForm :=
  ⟨.boolean false⟩

instance : Inhabited Expr :=
  ⟨⟨default, default, none⟩⟩

namespace Expr

/- An expression whose type is not known yet. -/
def new (form : ExprForm) (span : Span) : Expr :=
  ⟨form, span, none⟩

/- A name that refers to nothing yet. -/
def reference (name : String) (span : Span) : Expr :=
  new (.reference name .unknown) span

/- A call of a name that refers to nothing yet. -/
def invocation
    (name : String)
    (arguments : List Argument)
    (span : Span) :
    Expr :=
  new (.invocation name arguments .unknown) span

/- The expression is a name or the call of a name. -/
def isReferenceOrInvocation (e : Expr) : Bool :=
  match e.form with
  | .reference _ _ => true
  | .invocation _ _ _ => true
  | _ => false

end Expr

mutual

/- The last token of the form is a closing brace. -/
def ExprForm.endsWithBlock : ExprForm → Bool
  | .block _ _ => true
  | .conditional _ _ (some e) => e.endsWithBlock
  | .conditional _ e none => e.endsWithBlock
  | .function _ _ body _ => body.endsWithBlock
  | .lambda _ body _ => body.endsWithBlock
  | _ => false

/- The last token of the expression is a closing brace. -/
def Expr.endsWithBlock : Expr → Bool
  | ⟨form, _, _⟩ => form.endsWithBlock

end

/- The place of a statement. -/
def Statement.span : Statement → Span
  | .expression e => e.span
  | .variable v => v.span
  | .function f => f.span

------------------------------------------------------------
-- Programs
------------------------------------------------------------

/- A name to import, and the name it gets. -/
structure ImportEntry where
  name : String
  newName : Option String
  span : Span
deriving DecidableEq, Inhabited

/- The name that an entry is known by. -/
def ImportEntry.localName (e : ImportEntry) : String :=
  e.newName.getD e.name

/-
  An import of names from a path.  It is marked once its
  names are known.
-/
structure Import where
  path : String
  entries : List ImportEntry
  span : Span
  isResolved : Bool
deriving DecidableEq, Inhabited

/- A declaration outside of all functions. -/
inductive Declaration where
  | function (f : FunctionDecl)
  | property (v : VariableDecl)

namespace Declaration

/- The name that is declared. -/
def name : Declaration → String
  | function f => f.name
  | property v => v.name

/- The place of a declaration. -/
def span : Declaration → Span
  | function f => f.span
  | property v => v.span

end Declaration

/- A whole program, with its scopes and definitions. -/
structure Program where
  imports : List Import
  declarations : List Declaration
  scope : ScopeId
  symbols : Symbols
  span : Span

end SourceCheck
