import SourceCheck.Proofs.Syntax.Rules
import SourceCheck.Proofs.Typing.ErrorFree

/-
  The typing rules of the language.

  The rules read the slots of a resolved tree: each one
  relates the type of a node to the types of its parts, to
  the types of definitions, and to what the program knows.
  They say nothing about how the slots were filled.

  Key definitions include:
    * `ExprForm.Gives`
    * `Parameter.IsTyped`
    * `VariableDecl.IsTyped`
    * `FunctionDecl.IsTyped`
    * `TypeExpr.IsFilled`
    * `NodeRules.typing`
    * `Program.IsWellTyped`
    * `NodeRules.honest`
    * `Program.IsErrorFree`
-/

namespace SourceCheck

------------------------------------------------------------
-- Returned values
------------------------------------------------------------

mutual

def ExprForm.returns : ExprForm → List (Option Expr)
  | .int _ => []
  | .long _ => []
  | .boolean _ => []
  | .string _ => []
  | .template parts => exprsReturns parts
  | .reference _ _ => []
  | .invocation _ arguments _ => argumentsReturns arguments
  | .call callee arguments =>
      callee.returns ++ argumentsReturns arguments
  | .access left _ right => left.returns ++ right.returns
  | .binary left _ right => left.returns ++ right.returns
  | .unary _ operand => operand.returns
  | .assignment target _ value =>
      target.returns ++ value.returns
  | .parenthesized inner => inner.returns
  | .block statements _ => statementsReturns statements
  | .conditional condition thenBranch elseBranch =>
      condition.returns ++
        (thenBranch.returns ++ optionReturns elseBranch)
  | .function parameters _ _ _ => defaultsReturns parameters
  | .lambda parameters _ _ => defaultsReturns parameters
  | .ret none => [none]
  | .ret (some value) => some value :: value.returns

/-
  The values that the returns in an expression give, if they
  have one.  The bodies of functions in the expression are
  left out, since their returns are their own; the defaults
  of the parameters of such functions are not.
-/
def Expr.returns : Expr → List (Option Expr)
  | ⟨form, _, _⟩ => form.returns

def optionReturns : Option Expr → List (Option Expr)
  | none => []
  | some e => e.returns

def exprsReturns : List Expr → List (Option Expr)
  | [] => []
  | e :: es => e.returns ++ exprsReturns es

def argumentsReturns : List Argument → List (Option Expr)
  | [] => []
  | ⟨_, value, _⟩ :: others =>
      value.returns ++ argumentsReturns others

def defaultsReturns : List Parameter → List (Option Expr)
  | [] => []
  | ⟨_, _, fallback, _, _⟩ :: others =>
      optionReturns fallback ++ defaultsReturns others

def statementsReturns : List Statement → List (Option Expr)
  | [] => []
  | x :: others => x.returns ++ statementsReturns others

def Statement.returns : Statement → List (Option Expr)
  | .expression e => e.returns
  | .variable v => v.returns
  | .function f => f.returns

def VariableDecl.returns : VariableDecl → List (Option Expr)
  | ⟨_, _, _, initializer, _, _⟩ => optionReturns initializer

def FunctionDecl.returns : FunctionDecl → List (Option Expr)
  | ⟨_, parameters, _, _, _, _, _⟩ =>
      defaultsReturns parameters

end

/- The type of what a return gives. -/
def returnedType : Option Expr → Option Ty
  | none => some .unit
  | some value => value.type

/- The type accepts what is returned. -/
def ReturnsFit
    (expected : Ty)
    (values : List (Option Expr)) :
    Prop :=
  ∀ v ∈ values,
    ∃ t, returnedType v = some t ∧ expected.accepts t

------------------------------------------------------------
-- Parts of rules
------------------------------------------------------------

/- The arguments have the types, in this order. -/
def HaveTypes (xs : List Argument) (types : List Ty) : Prop :=
  xs.map (·.value.type) = types.map some

/- So have the definitions of the parameters. -/
def Symbols.Gives
    (y : Symbols)
    (ps : List Parameter)
    (types : List Ty) :
    Prop :=
  ps.map (fun p => y.type? p.definition) = types.map some

/-
  A body has to fit the declared type, unless that is `unit`,
  and so have the values that are returned in it.
-/
def BodyFits (declared : Option Ty) (body : Expr) : Prop :=
  ∀ expected,
    declared = some expected →
      (expected ≠ .unit →
        ∃ t, body.type = some t ∧ expected.accepts t) ∧
        ReturnsFit expected body.returns

/- The type of a statement that is an expression. -/
def Statement.type : Statement → Option Ty
  | .expression e => e.type
  | _ => some .unit

/- The type of the last statement, or else the given one. -/
def lastType (given : Option Ty) :
    List Statement → Option Ty
  | [] => given
  | x :: others => lastType x.type others

/-
  The expression names a public member of the container, and
  the member gives the type.
-/
def Expr.IsMember
    (e : Expr)
    (c : Container)
    (t : Ty) :
    Prop :=
  e.type = some t ∧
    ∃ m ∈ c.members,
      m.isPublic ∧ m.resultType = t ∧
        match e.form with
        | .invocation name arguments target =>
            target.member = some m ∧
              ∃ types,
                HaveTypes arguments types ∧
                  m.hasSignature name types
        | .reference name target =>
            target.kind = some .member ∧
              target.member = some m ∧
                m.isProperty ∧ m.name = name
        | _ => False

/-
  The expression is a mutable definition that is no function,
  an imported property, or a property of a container.
-/
def Expr.IsAssignable (e : Expr) (y : Symbols) : Prop :=
  match e.form with
  | .reference _ target =>
      target.kind = some .topLevel ∨
        target.kind = some .inScope ∧
          ∃ id d,
            target.definition = some id ∧
              y.definitions[id]? = some d ∧
                d.kind ≠ .function ∧ d.isMutable
  | .access _ _ right =>
      ∃ name target m,
        right.form = .reference name target ∧
          target.member = some m ∧ m.isProperty
  | _ => False

/- The type of what an assignment stores. -/
def AssignmentOperator.stored?
    (o : AssignmentOperator)
    (target value : Ty) :
    Option Ty :=
  match o.binary? with
  | none => some value
  | some b => b.type? target value

/-
  What a name stands for: a definition, a type that is known,
  or the only imported property of the name.
-/
def Target.Names
    (target : Target)
    (y : Symbols)
    (k : Known)
    (name : String)
    (t : Ty) :
    Prop :=
  (target.kind = some .inScope ∧
      ∃ id,
        target.definition = some id ∧
          y.type? id = some t) ∨
    (target.kind = some (Resolver.typeReferenceKind t) ∧
      (name, t) ∈ k.types) ∨
    (target.kind = some .topLevel ∧
      ∃ m,
        target.member = some m ∧
          k.members.properties name = [m] ∧
            m.resultType = t)

/-
  What the call of a name gives: the result of a definition
  that accepts the arguments, or of an imported function with
  exactly these parameters.
-/
def Target.Calls
    (target : Target)
    (y : Symbols)
    (k : Known)
    (name : String)
    (types : List Ty)
    (t : Ty) :
    Prop :=
  (∃ id parameters,
      target.definition = some id ∧
        y.type? id = some (.function parameters t) ∧
          Resolver.acceptsAll parameters types) ∨
    (target.definition = none ∧
      ∃ m,
        target.member = some m ∧
          m ∈ k.members.functions name types ∧
            m.resultType = t)

------------------------------------------------------------
-- Expressions
------------------------------------------------------------

/-
  A literal of a function has the types of its parameters
  and its declared result, or else that of its body.
-/
def IsFunctionType
    (y : Symbols)
    (ps : List Parameter)
    (declared : Option Ty)
    (body : Expr)
    (t : Ty) :
    Prop :=
  ∃ types received,
    y.Gives ps types ∧ body.type = some received ∧
      t = .function types (declared.getD received) ∧
        BodyFits declared body

/- The form gives a value of the type. -/
def ExprForm.Gives
    (y : Symbols)
    (k : Known) :
    ExprForm → Ty → Prop
  | .int _, t => t = .int
  | .long _, t => t = .long
  | .boolean _, t => t = .boolean
  | .string _, t => t = .string
  | .template _, t => t = .string
  | .reference name target, t => target.Names y k name t
  | .invocation name arguments target, t =>
      ∃ types,
        HaveTypes arguments types ∧
          target.Calls y k name types t
  | .call callee arguments, t =>
      ∃ parameters types,
        callee.type = some (.function parameters t) ∧
          HaveTypes arguments types ∧
            Resolver.acceptsAll parameters types
  | .access left _ right, t =>
      ∃ c : Container,
        left.type = some c.type ∧ right.IsMember c t
  | .binary left operator right, t =>
      ∃ a b,
        left.type = some a ∧ right.type = some b ∧
          operator.type? a b = some t
  | .unary operator operand, t =>
      operand.type = some t ∧ operator.takes t
  | .assignment target operator value, t =>
      t = .unit ∧
        ∃ a b stored,
          target.type = some a ∧ value.type = some b ∧
            target.IsAssignable y ∧
              operator.stored? a b = some stored ∧
                a.accepts stored
  | .parenthesized inner, t => inner.type = some t
  | .block statements _, t =>
      lastType (some .unit) statements = some t
  | .conditional condition thenBranch elseBranch, t =>
      ∃ c a,
        condition.type = some c ∧ Ty.boolean.accepts c ∧
          thenBranch.type = some a ∧
            t =
              if elseBranch.bind (·.type) = some a then
                a
              else
                .unit
  | .function parameters returnType body _, t =>
      IsFunctionType y parameters returnType.type body t
  | .lambda parameters body _, t =>
      IsFunctionType y parameters none body t
  | .ret _, t => t = .nothing

------------------------------------------------------------
-- Declarations
------------------------------------------------------------

/-
  A parameter has its written type, which accepts its
  default.
-/
def Parameter.IsTyped (p : Parameter) (y : Symbols) : Prop :=
  ∃ t,
    p.typeExpr.type = some t ∧
      y.type? p.definition = some t ∧
        ∀ e,
          p.fallback = some e →
            ∃ s, e.type = some s ∧ t.accepts s

/-
  A variable has its written type, which accepts its initial
  value, or else the type of that value.
-/
def VariableDecl.IsTyped
    (v : VariableDecl)
    (y : Symbols) :
    Prop :=
  ∃ t,
    y.type? v.definition = some t ∧
      match v.typeExpr.type with
      | some declared =>
          t = declared ∧
            ∀ e,
              v.initializer = some e →
                ∃ s, e.type = some s ∧ declared.accepts s
      | none =>
          v.typeExpr.isAbsent ∧
            ∃ e, v.initializer = some e ∧ e.type = some t

/-
  A function has the types of its parameters and its declared
  result, or else `unit`.
-/
def FunctionDecl.IsTyped
    (f : FunctionDecl)
    (y : Symbols) :
    Prop :=
  ∃ types,
    y.Gives f.parameters types ∧
      y.type? f.definition =
          some
            (.function types
              (f.returnType.type.getD .unit)) ∧
        ∀ body,
          f.body = some body →
            BodyFits f.returnType.type body

------------------------------------------------------------
-- Programs
------------------------------------------------------------

/- What was written has a type, and nothing else has one. -/
def TypeExpr.IsFilled (x : TypeExpr) : Prop :=
  x.type = none ↔ x.isAbsent

/- Each node has a type, and obeys the rule of its form. -/
def NodeRules.typing (y : Symbols) (k : Known) :
    NodeRules where
  ofExpr e := ∃ t, e.type = some t ∧ e.form.Gives y k t
  ofMember e := ∃ t, e.type = some t
  ofTypeExpr x := x.IsFilled
  ofParameter p := p.IsTyped y
  ofVariable v := v.IsTyped y
  ofFunction f := f.IsTyped y

/- All nodes of the program obey the typing rules. -/
def Program.IsWellTyped
    (p : Program)
    (library : Library) :
    Prop :=
  p.Obeys (.typing p.symbols (library.known p.imports))

/- The type of a literal of a function says what it is. -/
def ExprForm.IsHonest
    (y : Symbols) :
    ExprForm → Ty → Prop
  | .function parameters returnType body _, t =>
      IsFunctionType y parameters returnType.type body t
  | .lambda parameters body _, t =>
      IsFunctionType y parameters none body t
  | _, _ => True

/-
  The types of functions, with and without a name, say what
  they are.
-/
def NodeRules.honest (y : Symbols) : NodeRules where
  ofExpr e := ∃ t, e.type = some t ∧ e.form.IsHonest y t
  ofMember _ := True
  ofTypeExpr x := x.IsFilled
  ofParameter _ := True
  ofVariable _ := True
  ofFunction f := f.IsTyped y

/- A type in a slot has no error in it. -/
def SlotErrorFree (slot : Option Ty) : Prop :=
  ∀ t, slot = some t → t.isErrorFree

/- No slot of a node holds a type with an error in it. -/
def NodeRules.errorFree : NodeRules where
  ofExpr e := SlotErrorFree e.type
  ofMember e := SlotErrorFree e.type
  ofTypeExpr x := SlotErrorFree x.type
  ofParameter _ := True
  ofVariable _ := True
  ofFunction _ := True

/- Neither does a slot of a definition. -/
def Symbols.IsErrorFree (y : Symbols) : Prop :=
  ∀ id, SlotErrorFree (y.type? id)

/- No slot of the program has an error in it. -/
def Program.IsErrorFree (p : Program) : Prop :=
  p.Obeys .errorFree ∧ p.symbols.IsErrorFree

end SourceCheck
