import SourceCheck.Tree.Basic

/-
  Lexical scoping.

  An environment holds the names that are in force at one
  place of a program, frame by frame.  It is passed along a
  walk over the program; no offset and no scope is looked at
  on this walk.

  Key definitions include:
    * `Environment`
    * `Environment.lookup`
    * `Use`
    * `Expr.uses`
    * `Program.uses`
-/

namespace SourceCheck

------------------------------------------------------------
-- Environments
------------------------------------------------------------

/- A name and what it is bound to. -/
abbrev Binding :=
  String × DefinitionId

/- Frames of bindings, the innermost and the latest first. -/
abbrev Environment :=
  List (List Binding)

namespace Environment

/- What the innermost frame that knows the name binds. -/
def lookup
    (env : Environment)
    (name : String) :
    Option DefinitionId :=
  env.findSome? fun frame => frame.lookup name

/- The environment within a new frame. -/
def push (env : Environment) : Environment :=
  [] :: env

/- Bind a name in the innermost frame. -/
def bind
    (env : Environment)
    (name : String)
    (id : DefinitionId) :
    Environment :=
  match env with
  | [] => [[(name, id)]]
  | frame :: frames => ((name, id) :: frame) :: frames

/- Bind the names of parameters, one after the other. -/
def bindParameters
    (env : Environment)
    (parameters : List Parameter) :
    Environment :=
  parameters.foldl (fun e p => e.bind p.name p.definition)
    env

/- The environment behind a statement. -/
def afterStatement (env : Environment) :
    Statement → Environment
  | .expression _ => env
  | .variable v => env.bind v.name v.definition
  | .function f => env.bind f.name f.definition

/- The environment behind a declaration. -/
def afterDeclaration (env : Environment) :
    Declaration → Environment
  | .function f => env.bind f.name f.definition
  | .property v => env.bind v.name v.definition

end Environment

------------------------------------------------------------
-- Uses of names
------------------------------------------------------------

/-
  A name in a program that is used by itself or called: what
  is recorded for it, and what the environment binds it to.
-/
structure Use where
  name : String
  span : Span
  recorded : Option DefinitionId
  lexical : Option DefinitionId
deriving DecidableEq

/- Recorded is what the environment says. -/
def Use.settled (u : Use) : Use :=
  { u with recorded := u.lexical }

theorem Use.settled_append
    {us us' vs vs' : List Use}
    (hFirst : us = us'.map Use.settled)
    (hSecond : vs = vs'.map Use.settled) :
    us ++ vs = (us' ++ vs').map Use.settled := by
  rw [hFirst, hSecond, List.map_append]

mutual

/- The uses of names in a form that stands at a place. -/
def ExprForm.uses
    (env : Environment)
    (span : Span) :
    ExprForm → List Use
  | .int _ => []
  | .long _ => []
  | .boolean _ => []
  | .string _ => []
  | .template parts => usesInExprs env parts
  | .reference name target =>
      [⟨name, span, target.definition, env.lookup name⟩]
  | .invocation name arguments target =>
      ⟨name, span, target.definition, env.lookup name⟩ ::
        usesInArguments env arguments
  | .call callee arguments =>
      callee.uses env ++ usesInArguments env arguments
  | .access left _ right =>
      left.uses env ++ right.usesOfMember env
  | .binary left _ right => left.uses env ++ right.uses env
  | .unary _ operand => operand.uses env
  | .assignment target _ value =>
      target.uses env ++ value.uses env
  | .parenthesized inner => inner.uses env
  | .block statements _ =>
      usesInStatements env.push statements
  | .conditional condition thenBranch elseBranch =>
      condition.uses env ++ thenBranch.uses env ++
        usesInOption env elseBranch
  | .function parameters _ body _ =>
      usesInParameters env.push parameters ++
        body.uses (env.push.bindParameters parameters)
  | .lambda parameters body _ =>
      usesInParameters env.push parameters ++
        body.uses (env.push.bindParameters parameters)
  | .ret value => usesInOption env value

/- The uses of names in an expression. -/
def Expr.uses (env : Environment) : Expr → List Use
  | ⟨form, span, _⟩ => form.uses env span

/-
  The uses of names on the right side of an access.  The
  name of the member itself is none.
-/
def Expr.usesOfMember (env : Environment) : Expr → List Use
  | ⟨.invocation _ arguments _, _, _⟩ =>
      usesInArguments env arguments
  | _ => []

/- The uses of names in what may be left out. -/
def usesInOption (env : Environment) :
    Option Expr → List Use
  | none => []
  | some e => e.uses env

/- The uses of names in expressions. -/
def usesInExprs (env : Environment) : List Expr → List Use
  | [] => []
  | e :: es => e.uses env ++ usesInExprs env es

/- The uses of names in arguments. -/
def usesInArguments (env : Environment) :
    List Argument → List Use
  | [] => []
  | ⟨_, value, _⟩ :: others =>
      value.uses env ++ usesInArguments env others

/-
  The uses of names in the defaults of parameters.  Each
  default sees the parameters before its own.
-/
def usesInParameters (env : Environment) :
    List Parameter → List Use
  | [] => []
  | ⟨name, _, fallback, definition, _⟩ :: others =>
      usesInOption env fallback ++
        usesInParameters (env.bind name definition) others

/-
  The uses of names in statements.  Each statement sees the
  variables and functions declared before it.
-/
def usesInStatements (env : Environment) :
    List Statement → List Use
  | [] => []
  | s :: others =>
      s.uses env ++
        usesInStatements (env.afterStatement s) others

/- The uses of names in a statement. -/
def Statement.uses (env : Environment) :
    Statement → List Use
  | .expression e => e.uses env
  | .variable v => v.uses env
  | .function f => f.uses env

/- A variable is not in force in its own declaration. -/
def VariableDecl.uses (env : Environment) :
    VariableDecl → List Use
  | ⟨_, _, _, initializer, _, _⟩ =>
      usesInOption env initializer

/- A function is in force within itself. -/
def FunctionDecl.uses (env : Environment) :
    FunctionDecl → List Use
  | ⟨name, parameters, _, body, _, definition, _⟩ =>
      let inside := (env.bind name definition).push
      usesInParameters inside parameters ++
        usesInOption (inside.bindParameters parameters) body

end

/- The uses of names in a declaration. -/
def Declaration.uses (env : Environment) :
    Declaration → List Use
  | .function f => f.uses env
  | .property v => v.uses env

/- The uses of names in declarations, in their order. -/
def usesInDeclarations (env : Environment) :
    List Declaration → List Use
  | [] => []
  | d :: others =>
      d.uses env ++
        usesInDeclarations (env.afterDeclaration d) others

/- The uses of names in a program. -/
def Program.uses (p : Program) : List Use :=
  usesInDeclarations (Environment.push []) p.declarations

------------------------------------------------------------
-- Environments of many bindings
------------------------------------------------------------

/- What a statement declares. -/
def Statement.bindings : Statement → List Binding
  | .expression _ => []
  | .variable v => [(v.name, v.definition)]
  | .function f => [(f.name, f.definition)]

/- What a parameter declares. -/
def Parameter.binding (p : Parameter) : Binding :=
  (p.name, p.definition)

/- What a declaration declares. -/
def Declaration.bindings : Declaration → List Binding
  | .function f => [(f.name, f.definition)]
  | .property v => [(v.name, v.definition)]

theorem Environment.bindParameters_cons
    (env : Environment)
    (p : Parameter)
    (ps : List Parameter) :
    env.bindParameters (p :: ps) =
      (env.bind p.name p.definition).bindParameters ps :=
  rfl

end SourceCheck
