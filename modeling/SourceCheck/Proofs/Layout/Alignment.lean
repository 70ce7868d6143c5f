import Mathlib.Data.List.Forall2
import SourceCheck.Tree.Basic

/-
  Trees of two texts that differ in their layout only.

  An `Alignment` says which offsets of two texts correspond,
  for the places where tokens start and for those where they
  stop.  Two tokens, symbols or trees are aligned if they
  are the same but for places, and their places correspond.

  Key definitions include:
    * `Alignment`
    * `Alignment.IsMonotone`
    * `Alignment.Tokens`
    * `Alignment.SameSymbols`
    * `Alignment.Exprs`
    * `Alignment.Programs`
-/

namespace SourceCheck

------------------------------------------------------------
-- Places
------------------------------------------------------------

/-
  Which offsets of two texts correspond as the starts of
  tokens, and which as their stops.
-/
structure Alignment where
  starts : Nat → Nat → Prop
  stops : Nat → Nat → Prop

namespace Alignment

/- Every offset corresponds to itself. -/
def identity : Alignment :=
  ⟨Eq, Eq⟩

/-
  Whether a place lies behind a start or a stop can be seen
  on either side, as long as the place is a start.
-/
structure IsMonotone (A : Alignment) : Prop where
  starts_le :
    ∀ {a b c d},
      A.starts a b → A.starts c d → (a ≤ c ↔ b ≤ d)
  stops_le :
    ∀ {a b c d},
      A.stops a b → A.starts c d → (a ≤ c ↔ b ≤ d)

/- Two ranges start and stop at corresponding places. -/
structure Spans (A : Alignment) (a b : Span) : Prop where
  start : A.starts a.start.offset b.start.offset
  stop : A.stops a.stop.offset b.stop.offset

/- Ranges between corresponding ranges correspond. -/
theorem Spans.between
    {A : Alignment}
    {a b c d : Span}
    (hFirst : A.Spans a b)
    (hLast : A.Spans c d) :
    A.Spans (a.between c) (b.between d) :=
  ⟨hFirst.start, hLast.stop⟩

/- Two tokens are the same but for their places. -/
structure Tokens (A : Alignment) (a b : Token) : Prop where
  kind : a.kind = b.kind
  value : a.value = b.value
  span : A.Spans a.span b.span

/- Corresponding tokens stand for the same name. -/
theorem Tokens.name_eq
    {A : Alignment}
    {a b : Token}
    (hTokens : A.Tokens a b) :
    a.name = b.name := by
  simp only [Token.name, hTokens.kind, hTokens.value]

------------------------------------------------------------
-- Symbols
------------------------------------------------------------

/- Two definitions are the same but for their places. -/
structure Definitions
    (A : Alignment)
    (d e : Definition) :
    Prop where
  name : d.name = e.name
  kind : d.kind = e.kind
  isMutable : d.isMutable = e.isMutable
  type : d.type = e.type
  visibleFrom :
    A.starts d.visibleFrom e.visibleFrom ∨
      A.stops d.visibleFrom e.visibleFrom

/-
  Two sets of symbols are the same but for the places of the
  definitions.
-/
structure SameSymbols
    (A : Alignment)
    (y z : Symbols) :
    Prop where
  scopes : y.scopes = z.scopes
  definitions :
    List.Forall₂ A.Definitions
      y.definitions.toList z.definitions.toList

theorem SameSymbols.size_eq
    {A : Alignment}
    {y z : Symbols}
    (hSame : A.SameSymbols y z) :
    y.definitions.size = z.definitions.size := by
  simpa using hSame.definitions.length_eq

------------------------------------------------------------
-- Written types
------------------------------------------------------------

variable (A : Alignment)

mutual

/- Two forms of written types are aligned. -/
inductive TypeForms : TypeForm → TypeForm → Prop where
  | absent : TypeForms .absent .absent
  | named {name} :
      TypeForms (.named name) (.named name)
  | union {a b c d}
      (hLeft : TypeExprs a c)
      (hRight : TypeExprs b d) :
      TypeForms (.union a b) (.union c d)
  | intersection {a b c d}
      (hLeft : TypeExprs a c)
      (hRight : TypeExprs b d) :
      TypeForms (.intersection a b) (.intersection c d)

/- Two written types are aligned. -/
inductive TypeExprs : TypeExpr → TypeExpr → Prop where
  | intro {f g s t type}
      (hForm : TypeForms f g)
      (hSpan : A.Spans s t) :
      TypeExprs ⟨f, s, type⟩ ⟨g, t, type⟩

end

------------------------------------------------------------
-- Expressions and statements
------------------------------------------------------------

mutual

/- Two forms of expressions are aligned. -/
inductive Forms : ExprForm → ExprForm → Prop where
  | int {n} : Forms (.int n) (.int n)
  | long {n} : Forms (.long n) (.long n)
  | boolean {b} : Forms (.boolean b) (.boolean b)
  | string {text} : Forms (.string text) (.string text)
  | template {ps qs}
      (hParts : List.Forall₂ Exprs ps qs) :
      Forms (.template ps) (.template qs)
  | reference {name target} :
      Forms (.reference name target)
        (.reference name target)
  | invocation {name as bs target}
      (hArguments : List.Forall₂ Arguments as bs) :
      Forms (.invocation name as target)
        (.invocation name bs target)
  | call {e f as bs}
      (hCallee : Exprs e f)
      (hArguments : List.Forall₂ Arguments as bs) :
      Forms (.call e as) (.call f bs)
  | access {a b c d safe}
      (hLeft : Exprs a c)
      (hRight : Exprs b d) :
      Forms (.access a safe b) (.access c safe d)
  | binary {a b c d o}
      (hLeft : Exprs a c)
      (hRight : Exprs b d) :
      Forms (.binary a o b) (.binary c o d)
  | unary {o a b}
      (hOperand : Exprs a b) :
      Forms (.unary o a) (.unary o b)
  | assignment {a b c d o}
      (hTarget : Exprs a c)
      (hValue : Exprs b d) :
      Forms (.assignment a o b) (.assignment c o d)
  | parenthesized {a b}
      (hInner : Exprs a b) :
      Forms (.parenthesized a) (.parenthesized b)
  | block {as bs scope}
      (hStatements : List.Forall₂ Statements as bs) :
      Forms (.block as scope) (.block bs scope)
  | conditional {a b c d e f}
      (hCondition : Exprs a d)
      (hThen : Exprs b e)
      (hElse : Option.Rel Exprs c f) :
      Forms (.conditional a b c) (.conditional d e f)
  | function {ps qs r s a b scope}
      (hParameters : List.Forall₂ Parameters ps qs)
      (hType : A.TypeExprs r s)
      (hBody : Exprs a b) :
      Forms (.function ps r a scope)
        (.function qs s b scope)
  | lambda {ps qs a b scope}
      (hParameters : List.Forall₂ Parameters ps qs)
      (hBody : Exprs a b) :
      Forms (.lambda ps a scope) (.lambda qs b scope)
  | ret {a b}
      (hValue : Option.Rel Exprs a b) :
      Forms (.ret a) (.ret b)

/- Two expressions are aligned. -/
inductive Exprs : Expr → Expr → Prop where
  | intro {f g s t type}
      (hForm : Forms f g)
      (hSpan : A.Spans s t) :
      Exprs ⟨f, s, type⟩ ⟨g, t, type⟩

/- Two arguments are aligned. -/
inductive Arguments : Argument → Argument → Prop where
  | intro {name a b s t}
      (hValue : Exprs a b)
      (hSpan : A.Spans s t) :
      Arguments ⟨name, a, s⟩ ⟨name, b, t⟩

/- Two parameters are aligned. -/
inductive Parameters : Parameter → Parameter → Prop where
  | intro {name r s a b definition u v}
      (hType : A.TypeExprs r s)
      (hFallback : Option.Rel Exprs a b)
      (hSpan : A.Spans u v) :
      Parameters ⟨name, r, a, definition, u⟩
        ⟨name, s, b, definition, v⟩

/- Two statements are aligned. -/
inductive Statements : Statement → Statement → Prop where
  | expression {a b}
      (hExpr : Exprs a b) :
      Statements (.expression a) (.expression b)
  | variable {v w}
      (hVariable : Variables v w) :
      Statements (.variable v) (.variable w)
  | function {f g}
      (hFunction : Functions f g) :
      Statements (.function f) (.function g)

/- Two declarations of variables are aligned. -/
inductive Variables : VariableDecl → VariableDecl → Prop where
  | intro {isMutable name r s a b definition u v}
      (hType : A.TypeExprs r s)
      (hInitializer : Option.Rel Exprs a b)
      (hSpan : A.Spans u v) :
      Variables ⟨isMutable, name, r, a, definition, u⟩
        ⟨isMutable, name, s, b, definition, v⟩

/- Two declarations of functions are aligned. -/
inductive Functions : FunctionDecl → FunctionDecl → Prop where
  | intro {name ps qs r s a b scope definition u v}
      (hParameters : List.Forall₂ Parameters ps qs)
      (hType : A.TypeExprs r s)
      (hBody : Option.Rel Exprs a b)
      (hSpan : A.Spans u v) :
      Functions ⟨name, ps, r, a, scope, definition, u⟩
        ⟨name, qs, s, b, scope, definition, v⟩

end

variable {A}

theorem TypeExprs.span
    {a b : TypeExpr}
    (hTypes : A.TypeExprs a b) :
    A.Spans a.span b.span := by
  cases hTypes with
  | intro _ hSpan => exact hSpan

theorem TypeExprs.new
    {f g : TypeForm}
    {s t : Span}
    (hForm : A.TypeForms f g)
    (hSpan : A.Spans s t) :
    A.TypeExprs (.new f s) (.new g t) :=
  .intro hForm hSpan

theorem Exprs.span
    {a b : Expr}
    (hExprs : A.Exprs a b) :
    A.Spans a.span b.span := by
  cases hExprs with
  | intro _ hSpan => exact hSpan

theorem Exprs.new
    {f g : ExprForm}
    {s t : Span}
    (hForm : A.Forms f g)
    (hSpan : A.Spans s t) :
    A.Exprs (.new f s) (.new g t) :=
  .intro hForm hSpan

/- A place that may be missing has a place to fall back on. -/
theorem spans_getD
    {a b : Option Expr}
    {s t : Span}
    (hOption : Option.Rel A.Exprs a b)
    (hSpan : A.Spans s t) :
    A.Spans ((a.map (·.span)).getD s)
      ((b.map (·.span)).getD t) := by
  cases hOption with
  | none => exact hSpan
  | some hExprs => exact hExprs.span

/- Aligned expressions are names or calls together. -/
theorem Exprs.isReferenceOrInvocation_eq
    {a b : Expr}
    (hExprs : A.Exprs a b) :
    a.isReferenceOrInvocation =
      b.isReferenceOrInvocation := by
  cases hExprs with
  | intro hForm _ => cases hForm <;> rfl

/- Aligned types are left out together. -/
theorem TypeExprs.isAbsent_eq
    {a b : TypeExpr}
    (hTypes : A.TypeExprs a b) :
    a.isAbsent = b.isAbsent := by
  cases hTypes with
  | intro hForm _ => cases hForm <;> rfl

mutual

/- Aligned expressions end with a block together. -/
theorem Forms.endsWithBlock_eq :
    ∀ {f g : ExprForm},
      A.Forms f g → f.endsWithBlock = g.endsWithBlock
  | .block .., _, .block .. => by
      simp only [ExprForm.endsWithBlock]
  | .conditional _ _ (some e), _, hForms => by
      cases hForms with
      | conditional _ _ hElse =>
          cases hElse with
          | some hExprs =>
              simp only [ExprForm.endsWithBlock]
              exact hExprs.endsWithBlock_eq
  | .conditional _ e none, _, hForms => by
      cases hForms with
      | conditional _ hThen hElse =>
          cases hElse with
          | none =>
              simp only [ExprForm.endsWithBlock]
              exact hThen.endsWithBlock_eq
  | .function _ _ body _, _, .function _ _ hBody => by
      simp only [ExprForm.endsWithBlock]
      exact hBody.endsWithBlock_eq
  | .lambda _ body _, _, .lambda _ hBody => by
      simp only [ExprForm.endsWithBlock]
      exact hBody.endsWithBlock_eq
  | .int .., _, .int => rfl
  | .long .., _, .long => rfl
  | .boolean .., _, .boolean => rfl
  | .string .., _, .string => rfl
  | .template .., _, .template .. => rfl
  | .reference .., _, .reference => rfl
  | .invocation .., _, .invocation .. => rfl
  | .call .., _, .call .. => rfl
  | .access .., _, .access .. => rfl
  | .binary .., _, .binary .. => rfl
  | .unary .., _, .unary .. => rfl
  | .assignment .., _, .assignment .. => rfl
  | .parenthesized .., _, .parenthesized .. => rfl
  | .ret .., _, .ret .. => rfl

/- Aligned expressions end with a block together. -/
theorem Exprs.endsWithBlock_eq :
    ∀ {a b : Expr},
      A.Exprs a b → a.endsWithBlock = b.endsWithBlock
  | ⟨_, _, _⟩, _, .intro hForm _ => by
      simp only [Expr.endsWithBlock]
      exact hForm.endsWithBlock_eq

end

------------------------------------------------------------
-- Programs
------------------------------------------------------------

/- Two entries of imports are aligned. -/
structure Entries (A : Alignment) (a b : ImportEntry) :
    Prop where
  name : a.name = b.name
  newName : a.newName = b.newName
  span : A.Spans a.span b.span

/- Two imports are aligned. -/
structure Imports (A : Alignment) (a b : Import) :
    Prop where
  path : a.path = b.path
  entries : List.Forall₂ A.Entries a.entries b.entries
  isResolved : a.isResolved = b.isResolved
  span : A.Spans a.span b.span

/- Two declarations are aligned. -/
inductive Declarations (A : Alignment) :
    Declaration → Declaration → Prop where
  | function {f g}
      (hFunction : A.Functions f g) :
      Declarations A (.function f) (.function g)
  | property {v w}
      (hVariable : A.Variables v w) :
      Declarations A (.property v) (.property w)

/- Two programs are aligned. -/
structure Programs (A : Alignment) (a b : Program) :
    Prop where
  imports : List.Forall₂ A.Imports a.imports b.imports
  declarations :
    List.Forall₂ A.Declarations
      a.declarations b.declarations
  scope : a.scope = b.scope
  symbols : A.SameSymbols a.symbols b.symbols

end Alignment

end SourceCheck
