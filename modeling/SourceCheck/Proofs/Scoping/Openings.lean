import SourceCheck.Proofs.Syntax.Declared

/-
  The nodes that open scopes.

  Programs, functions, lambdas and blocks open scopes.  These
  nodes lie within each other, and each of them has what is
  declared in it: functions their parameters, blocks and
  programs their variables and functions.

  Along a derivation the scopes and the definitions are given
  out one by one, and each of them belongs to one of these
  nodes.

  Key definitions include:
    * `Introduction`
    * `Opening`
    * `Expr.openings`
    * `Program.openings`
    * `Program.introductions`

  Key theorems include:
    * `Derives.count_scopes`
    * `Derives.count_introduced`
-/

namespace SourceCheck

open SourceCheck.Parser
open SourceCheck.ParserState

------------------------------------------------------------
-- Introductions
------------------------------------------------------------

/- What a node of a tree says of what it defines. -/
structure Introduction where
  id : DefinitionId
  name : String
  kind : DefinitionKind
  isMutable : Bool
  span : Span

/- What is bound for it. -/
def Introduction.binding (i : Introduction) : Binding :=
  (i.name, i.id)

def Parameter.introduction (p : Parameter) : Introduction :=
  ⟨p.definition, p.name, .argument, false, p.span⟩

/- Variables within and outside of functions differ. -/
def VariableDecl.introduction
    (kind : DefinitionKind)
    (v : VariableDecl) :
    Introduction :=
  ⟨v.definition, v.name, kind, v.isMutable, v.span⟩

def FunctionDecl.introduction
    (f : FunctionDecl) :
    Introduction :=
  ⟨f.definition, f.name, .function, false, f.span⟩

/- What a statement defines in the scope that it lies in. -/
def Statement.introductions :
    Statement → List Introduction
  | .expression _ => []
  | .variable v => [v.introduction .localVariable]
  | .function f => [f.introduction]

def Declaration.introduction : Declaration → Introduction
  | .function f => f.introduction
  | .property v => v.introduction .property

------------------------------------------------------------
-- Openings
------------------------------------------------------------

/-
  A node that opens a scope, with all that is defined in the
  scope, and the nodes that open scopes directly within.
-/
inductive Opening where
  | mk
      (scope : ScopeId)
      (introductions : List Introduction)
      (inner : List Opening)

namespace Opening

def scope : Opening → ScopeId
  | mk scope _ _ => scope

def introductions : Opening → List Introduction
  | mk _ introductions _ => introductions

def inner : Opening → List Opening
  | mk _ _ inner => inner

end Opening

mutual

/- An opening and all those within it, at any depth. -/
def Opening.all : Opening → List Opening
  | .mk scope introductions inner =>
      .mk scope introductions inner :: allOpenings inner

def allOpenings : List Opening → List Opening
  | [] => []
  | o :: os => o.all ++ allOpenings os

end

theorem allOpenings_eq (os : List Opening) :
    allOpenings os = os.flatMap Opening.all := by
  induction os with
  | nil => rfl
  | cons o os ih => rw [allOpenings, ih, List.flatMap_cons]

mutual

def ExprForm.openings : ExprForm → List Opening
  | .int _ => []
  | .long _ => []
  | .boolean _ => []
  | .string _ => []
  | .template parts => exprsOpenings parts
  | .reference _ _ => []
  | .invocation _ arguments _ => argumentsOpenings arguments
  | .call callee arguments =>
      callee.openings ++ argumentsOpenings arguments
  | .access left _ right => left.openings ++ right.openings
  | .binary left _ right => left.openings ++ right.openings
  | .unary _ operand => operand.openings
  | .assignment target _ value =>
      target.openings ++ value.openings
  | .parenthesized inner => inner.openings
  | .block statements scope =>
      [.mk scope
        (statements.flatMap Statement.introductions)
        (statementsOpenings statements)]
  | .conditional condition thenBranch elseBranch =>
      condition.openings ++
        (thenBranch.openings ++ optionOpenings elseBranch)
  | .function parameters _ body scope =>
      [.mk scope (parameters.map Parameter.introduction)
        (defaultsOpenings parameters ++ body.openings)]
  | .lambda parameters body scope =>
      [.mk scope (parameters.map Parameter.introduction)
        (defaultsOpenings parameters ++ body.openings)]
  | .ret value => optionOpenings value

/- The outermost nodes that open scopes in an expression. -/
def Expr.openings : Expr → List Opening
  | ⟨form, _, _⟩ => form.openings

def optionOpenings : Option Expr → List Opening
  | none => []
  | some e => e.openings

def exprsOpenings : List Expr → List Opening
  | [] => []
  | e :: es => e.openings ++ exprsOpenings es

def argumentsOpenings : List Argument → List Opening
  | [] => []
  | ⟨_, value, _⟩ :: others =>
      value.openings ++ argumentsOpenings others

/- Those in the defaults of parameters. -/
def defaultsOpenings : List Parameter → List Opening
  | [] => []
  | ⟨_, _, fallback, _, _⟩ :: others =>
      optionOpenings fallback ++ defaultsOpenings others

def statementsOpenings : List Statement → List Opening
  | [] => []
  | x :: others => x.openings ++ statementsOpenings others

def Statement.openings : Statement → List Opening
  | .expression e => e.openings
  | .variable v => v.openings
  | .function f => f.openings

def VariableDecl.openings : VariableDecl → List Opening
  | ⟨_, _, _, initializer, _, _⟩ => optionOpenings initializer

def FunctionDecl.openings : FunctionDecl → List Opening
  | ⟨_, parameters, _, body, scope, _, _⟩ =>
      [.mk scope (parameters.map Parameter.introduction)
        (defaultsOpenings parameters ++ optionOpenings body)]

end

def Declaration.openings : Declaration → List Opening
  | .function f => f.openings
  | .property v => v.openings

namespace Program

/- A program opens the scope that all others lie in. -/
def opening (p : Program) : Opening :=
  .mk p.scope (p.declarations.map Declaration.introduction)
    (p.declarations.flatMap Declaration.openings)

/- All nodes of a program that open scopes. -/
def openings (p : Program) : List Opening :=
  p.opening.all

/- All that is defined in a program. -/
def introductions (p : Program) : List Introduction :=
  p.openings.flatMap Opening.introductions

end Program

------------------------------------------------------------
-- Strings
------------------------------------------------------------

theorem openings_of_string
    {e : Expr}
    {value : String}
    (hForm : e.form = .string value) :
    e.openings = [] := by
  rcases e with ⟨form, span, type⟩
  dsimp only at hForm
  subst hForm
  rfl

theorem exprsOpenings_eq (es : List Expr) :
    exprsOpenings es = es.flatMap Expr.openings := by
  induction es with
  | nil => rfl
  | cons e es ih =>
      rw [exprsOpenings, ih, List.flatMap_cons]

theorem openings_stringForm (parts : List StringPart) :
    (stringForm parts).openings =
      exprsOpenings (parts.map (·.expression)) := by
  have hText (e : Expr) (value : String) :
      e.form = .string value → e.openings = [] :=
    openings_of_string
  unfold stringForm
  rw [exprsOpenings_eq]
  split
  · rw [ExprForm.openings, exprsOpenings_eq,
      flatMap_mergeTexts hText fun _ _ => rfl]
  · rename_i hNone
    rw [flatMap_texts hText hNone, ExprForm.openings]

theorem openings_intForm
    {text : String}
    {form : ExprForm}
    (hForm : intForm? text = some form) :
    form.openings = [] := by
  rcases exists_of_intForm? hForm with ⟨n, rfl⟩ | ⟨n, rfl⟩
  · rfl
  · rfl

------------------------------------------------------------
-- Phrases
------------------------------------------------------------

/- What an item defines in the scope that it lies in. -/
def Item.introductions :
    (i : Item) → i.Result → List Introduction
  | .argument, _ => []
  | .parameter, p => [p.introduction]
  | .lambdaParameter, p => [p.introduction]
  | .entry, _ => []

/- What items define in the scope that they lie in. -/
def Item.allIntroductions :
    (i : Item) → List i.Result → List Introduction
  | .argument, _ => []
  | .parameter, ps => ps.map Parameter.introduction
  | .lambdaParameter, ps => ps.map Parameter.introduction
  | .entry, _ => []

def Item.openings : (i : Item) → i.Result → List Opening
  | .argument, x => x.value.openings
  | .parameter, p => optionOpenings p.fallback
  | .lambdaParameter, p => optionOpenings p.fallback
  | .entry, _ => []

def Item.allOpenings :
    (i : Item) → List i.Result → List Opening
  | .argument, xs => argumentsOpenings xs
  | .parameter, ps => defaultsOpenings ps
  | .lambdaParameter, ps => defaultsOpenings ps
  | .entry, _ => []

/- What a phrase defines in the scope that it lies in. -/
def Phrase.introductions :
    (phrase : Phrase) → phrase.Result → List Introduction
  | .item i, x => i.introductions x
  | .items i, xs => i.allIntroductions xs
  | .moreItems i, xs => i.allIntroductions xs
  | .signature, r => r.1.map Parameter.introduction
  | .statements, xs => xs.flatMap Statement.introductions
  | .statement, x => x.introductions
  | .variableDecl kind, v => [v.introduction kind]
  | .functionDecl, f => [f.introduction]
  | _, _ => []

/- The outermost openings in the tree of a phrase. -/
def Phrase.openings :
    (phrase : Phrase) → phrase.Result → List Opening
  | .expression _, e => e.openings
  | .extensions _ _, e => e.openings
  | .start _ _, e => e.openings
  | .extension _ _ _ _, e => e.openings
  | .behind _, o => optionOpenings o
  | .item i, x => i.openings x
  | .items i, xs => i.allOpenings xs
  | .moreItems i, xs => i.allOpenings xs
  | .signature, r => defaultsOpenings r.1
  | .body, e => e.openings
  | .namedBody, o => optionOpenings o
  | .parts, xs => exprsOpenings (xs.map (·.expression))
  | .block _, e => e.openings
  | .statements, xs => statementsOpenings xs
  | .statement, x => x.openings
  | .variableDecl _, v => v.openings
  | .functionDecl, f => f.openings

/- Those of what stands before the phrase. -/
def Phrase.openingsBefore : Phrase → List Opening
  | .extensions _ left => left.openings
  | .extension _ left _ _ => left.openings
  | _ => []

theorem Item.allOpenings_nil (i : Item) :
    i.allOpenings [] = [] := by
  cases i with
  | _ => rfl

theorem Item.allOpenings_cons
    {i : Item}
    (x : i.Result)
    (xs : List i.Result) :
    i.allOpenings (x :: xs) =
      i.openings x ++ i.allOpenings xs := by
  cases i with
  | argument =>
      rcases x with ⟨name, value, span⟩
      rfl
  | parameter =>
      rcases x with ⟨name, type, fallback, definition, span⟩
      rfl
  | lambdaParameter =>
      rcases x with ⟨name, type, fallback, definition, span⟩
      rfl
  | entry => rfl

theorem Item.allIntroductions_nil (i : Item) :
    i.allIntroductions [] = [] := by
  cases i with
  | _ => rfl

theorem Item.allIntroductions_cons
    {i : Item}
    (x : i.Result)
    (xs : List i.Result) :
    i.allIntroductions (x :: xs) =
      i.introductions x ++ i.allIntroductions xs := by
  cases i with
  | _ => rfl

------------------------------------------------------------
-- Numbers
------------------------------------------------------------

/- The scopes of openings, at any depth. -/
def scopesWithin (os : List Opening) : List ScopeId :=
  (allOpenings os).map Opening.scope

/- What is defined in them. -/
def definedWithin (os : List Opening) : List DefinitionId :=
  (allOpenings os).flatMap fun o =>
    o.introductions.map (·.id)

section Within

variable (os rest : List Opening)
variable (scope : ScopeId)
variable (introductions : List Introduction)

theorem scopesWithin_nil : scopesWithin [] = [] :=
  rfl

theorem scopesWithin_append :
    scopesWithin (os ++ rest) =
      scopesWithin os ++ scopesWithin rest := by
  simp only [scopesWithin, allOpenings_eq,
    List.flatMap_append, List.map_append]

theorem scopesWithin_mk :
    scopesWithin [.mk scope introductions os] =
      scope :: scopesWithin os := by
  simp only [scopesWithin, allOpenings, Opening.all,
    List.append_nil, List.map_cons, Opening.scope]

theorem definedWithin_nil : definedWithin [] = [] :=
  rfl

theorem definedWithin_append :
    definedWithin (os ++ rest) =
      definedWithin os ++ definedWithin rest := by
  simp only [definedWithin, allOpenings_eq,
    List.flatMap_append]

theorem definedWithin_mk :
    definedWithin [.mk scope introductions os] =
      introductions.map (·.id) ++ definedWithin os := by
  simp only [definedWithin, allOpenings, Opening.all,
    List.append_nil, List.flatMap_cons,
    Opening.introductions]

end Within

variable {s t u : ParserState}

/- Whether the scope was given out up to a state. -/
def ParserState.begun (s : ParserState) (id : Nat) : Nat :=
  if id < s.newScope then 1 else 0

theorem ParserState.begun_opened
    (s : ParserState)
    (id : Nat) :
    s.opened.begun id = s.begun id + [s.newScope].count id := by
  have hSize : s.opened.newScope = s.newScope + 1 :=
    Array.size_push _
  unfold begun
  rw [hSize]
  exact given_succ s.newScope id

/- Declarations open no scopes. -/
theorem ParserState.Declares.begun_eq
    {d : Definition}
    {id : DefinitionId}
    (hDeclares : s.Declares d id t)
    (other : Nat) :
    t.begun other = s.begun other := by
  rcases hDeclares with ⟨rfl, scope, -, -, rfl⟩
  unfold begun newScope bound withSymbols
  simp

/- Written types open no scopes. -/
theorem DerivesType.begun_eq
    {phrase : TypePhrase}
    {x : TypeExpr}
    (hDerives : DerivesType phrase s x t)
    (id : Nat) :
    t.begun id = s.begun id := by
  have hNext (s : ParserState) : s.next.begun id = s.begun id :=
    rfl
  induction hDerives with
  | _ => grind

/-
  The tree of a phrase has each scope and each definition
  once that was given out between its states, besides those
  of what stands before the phrase.
-/
theorem Derives.count_openings
    {phrase : Phrase}
    {r : phrase.Result}
    (hDerives : Derives phrase s r t)
    (id : Nat) :
    (scopesWithin (phrase.openings r)).count id +
          s.begun id =
        (scopesWithin phrase.openingsBefore).count id +
          t.begun id ∧
      (definedWithin (phrase.openings r)).count id +
            ((phrase.introductions r).map (·.id)).count id +
          s.given id =
        (definedWithin phrase.openingsBefore).count id +
          t.given id := by
  have hNext (s : ParserState) :
      s.next.begun id = s.begun id ∧
        s.next.given id = s.given id :=
    ⟨rfl, rfl⟩
  have hOpened (s : ParserState) :
      s.opened.begun id =
          s.begun id + [s.newScope].count id ∧
        s.opened.given id = s.given id :=
    ⟨s.begun_opened id, rfl⟩
  have hClosed (s : ParserState) :
      s.closed.begun id = s.begun id ∧
        s.closed.given id = s.given id :=
    ⟨rfl, rfl⟩
  have hArguments (xs : List Argument) :
      Item.allOpenings .argument xs = argumentsOpenings xs ∧
        Item.allIntroductions .argument xs = [] :=
    ⟨rfl, rfl⟩
  have hParameters (ps : List Parameter) :
      Item.allOpenings .parameter ps = defaultsOpenings ps ∧
        Item.allIntroductions .parameter ps =
          ps.map Parameter.introduction :=
    ⟨rfl, rfl⟩
  have hLambda (ps : List Parameter) :
      Item.allOpenings .lambdaParameter ps =
          defaultsOpenings ps ∧
        Item.allIntroductions .lambdaParameter ps =
          ps.map Parameter.introduction :=
    ⟨rfl, rfl⟩
  induction hDerives with
  | int hForm =>
      have hNone := openings_intForm hForm
      simp only [Phrase.openings, Phrase.introductions,
        Phrase.openingsBefore, Expr.new, Expr.openings, hNone,
        List.map_nil, List.count_nil, Nat.add_zero, and_self]
  | parameter _ _ hType _ _ hDeclares ih =>
      have hSame := hType.given_eq id
      have hSame' := hType.begun_eq id
      have hAdded := hDeclares.given_eq id
      have hAdded' := hDeclares.begun_eq id
      simp only [Phrase.openings, Phrase.introductions,
        Phrase.openingsBefore, Item.openings,
        Item.introductions, Parameter.introduction,
        List.map_nil, List.map_cons, scopesWithin_nil,
        definedWithin_nil, List.count_nil, hNext] at *
      omega
  | lambdaParameter _ hType _ hDeclares =>
      have hSame := hType.given_eq id
      have hSame' := hType.begun_eq id
      have hAdded := hDeclares.given_eq id
      have hAdded' := hDeclares.begun_eq id
      simp only [Phrase.openings, Phrase.introductions,
        Phrase.openingsBefore, Item.openings,
        Item.introductions, Parameter.introduction,
        optionOpenings, List.map_nil, List.map_cons,
        scopesWithin_nil, definedWithin_nil, List.count_nil,
        hNext] at *
      omega
  | signature _ _ _ hType ih =>
      have hSame := hType.given_eq id
      have hSame' := hType.begun_eq id
      simp only [Phrase.openings, Phrase.introductions,
        Phrase.openingsBefore, hParameters, scopesWithin_nil,
        definedWithin_nil, List.count_nil, hNext] at *
      omega
  | entry _ _ => exact ⟨rfl, rfl⟩
  | renamedEntry _ _ _ => exact ⟨rfl, rfl⟩
  | variableDecl _ _ hType _ _ _ hDeclares ih =>
      have hSame := hType.given_eq id
      have hSame' := hType.begun_eq id
      have hAdded := hDeclares.given_eq id
      have hAdded' := hDeclares.begun_eq id
      simp only [Phrase.openings, Phrase.introductions,
        Phrase.openingsBefore, VariableDecl.openings,
        VariableDecl.introduction, List.map_nil,
        List.map_cons, scopesWithin_nil, definedWithin_nil,
        List.count_nil, hNext] at *
      omega
  | functionDecl _ _ _ _ _ hDeclares ihSignature ihBody =>
      have hAdded := hDeclares.given_eq id
      have hAdded' := hDeclares.begun_eq id
      simp only [Phrase.openings, Phrase.introductions,
        Phrase.openingsBefore, FunctionDecl.openings,
        FunctionDecl.introduction,
        scopesWithin_mk, definedWithin_mk,
        scopesWithin_append, definedWithin_append,
        scopesWithin_nil, definedWithin_nil,
        List.map_nil, List.map_cons, List.count_append,
        List.count_cons, List.count_nil, hNext, hOpened,
        hClosed] at *
      omega
  | _ =>
      simp only [Phrase.openings, Phrase.introductions,
        Phrase.openingsBefore, Expr.new, Expr.reference,
        Expr.invocation, Expr.openings, ExprForm.openings,
        optionOpenings, exprsOpenings, statementsOpenings,
        Statement.openings, Statement.introductions,
        openings_stringForm, StringPart.expression,
        Item.allOpenings_nil, Item.allOpenings_cons,
        Item.allIntroductions_nil, Item.allIntroductions_cons,
        hArguments, hLambda, Item.openings,
        Item.introductions, scopesWithin_mk,
        definedWithin_mk, scopesWithin_append,
        definedWithin_append, scopesWithin_nil,
        definedWithin_nil, List.flatMap_nil,
        List.flatMap_cons, List.map_nil, List.map_cons,
        List.map_append, List.count_append, List.count_cons,
        List.count_nil, Nat.add_zero, and_self, hNext,
        hOpened, hClosed] at * <;>
        omega

------------------------------------------------------------
-- Programs
------------------------------------------------------------

theorem DerivesDeclaration.count_openings
    {d : Declaration}
    (hDerives : DerivesDeclaration s d t)
    (id : Nat) :
    (scopesWithin d.openings).count id + s.begun id =
        t.begun id ∧
      (definedWithin d.openings).count id +
            [d.introduction.id].count id +
          s.given id =
        t.given id := by
  cases hDerives with
  | function hFunction =>
      have hOwn := hFunction.count_openings id
      simp only [Phrase.openings, Phrase.introductions,
        Phrase.openingsBefore, scopesWithin_nil,
        definedWithin_nil, List.map_cons, List.map_nil,
        List.count_nil, Nat.zero_add] at hOwn
      exact hOwn
  | property _ hVariable =>
      have hOwn := hVariable.count_openings id
      simp only [Phrase.openings, Phrase.introductions,
        Phrase.openingsBefore, scopesWithin_nil,
        definedWithin_nil, List.map_cons, List.map_nil,
        List.count_nil, Nat.zero_add] at hOwn
      exact hOwn

theorem DerivesDeclarations.count_openings
    {ds : List Declaration}
    (hDerives : DerivesDeclarations s ds t)
    (id : Nat) :
    (scopesWithin (ds.flatMap Declaration.openings)).count
            id +
          s.begun id =
        t.begun id ∧
      (definedWithin
              (ds.flatMap Declaration.openings)).count id +
            (ds.map (·.introduction.id)).count id +
          s.given id =
        t.given id := by
  induction hDerives with
  | stop _ =>
      simp only [List.flatMap_nil, List.map_nil,
        scopesWithin_nil, definedWithin_nil, List.count_nil,
        Nat.zero_add, and_self]
  | more hFirst _ ih =>
      have hOwn := hFirst.count_openings id
      simp only [List.flatMap_cons, List.map_cons,
        scopesWithin_append, definedWithin_append,
        List.count_append, List.count_cons, List.count_nil]
        at hOwn ⊢
      omega

/- Imports open no scopes. -/
theorem DerivesImports.begun_eq
    {imports : List Import}
    (hDerives : DerivesImports s imports t)
    (id : Nat) :
    t.begun id = s.begun id := by
  induction hDerives with
  | stop _ => rfl
  | more hImport _ ih =>
      rw [ih]
      cases hImport with
      | intro _ _ hPath _ hEntries _ hValue =>
          have hFirst := (hPath.count_openings id).1
          have hSecond := (hEntries.count_openings id).1
          have hNext (s : ParserState) :
              s.next.begun id = s.begun id :=
            rfl
          have hEntry (xs : List ImportEntry) :
              Item.allOpenings .entry xs = [] :=
            rfl
          have hNone := openings_of_string hValue
          simp only [Phrase.openings, Phrase.openingsBefore,
            hEntry, hNone, scopesWithin_nil, List.count_nil,
            hNext] at *
          omega

/- A program has each scope and each definition once. -/
theorem DerivesProgram.count_openings
    {source file : String}
    {p : Program}
    (hDerives : DerivesProgram (.initial source file) p)
    (id : Nat) :
    (scopesWithin [p.opening]).count id =
        (if id < p.symbols.scopes.size then 1 else 0) ∧
      (definedWithin [p.opening]).count id =
        if id < p.symbols.definitions.size then 1 else 0 := by
  cases hDerives with
  | @intro imports t ds u hImports hDeclarations =>
      have hScopes := hImports.begun_eq id
      have hGiven := hImports.given_eq id
      have hAll := hDeclarations.count_openings id
      have hBegun :=
        (ParserState.initial source file).begun_opened id
      have hNone :
          (ParserState.initial source file).begun id = 0 :=
        if_neg (Nat.not_lt_zero id)
      have hNothing :
          (ParserState.initial source file).opened.given id =
            0 :=
        if_neg (Nat.not_lt_zero id)
      have hIds :
          (ds.map Declaration.introduction).map (·.id) =
            ds.map (·.introduction.id) :=
        List.map_map
      unfold Program.opening
      dsimp only
      rw [scopesWithin_mk, definedWithin_mk, hIds,
        List.count_append, List.count_cons]
      rw [List.count_cons, List.count_nil] at hBegun
      constructor
      · change _ = u.begun id
        omega
      · change _ = u.given id
        omega

/- The scopes are those of the nodes that open scopes. -/
theorem DerivesProgram.scopes_perm
    {source file : String}
    {p : Program}
    (hDerives : DerivesProgram (.initial source file) p) :
    (p.openings.map Opening.scope).Perm
      (List.range p.symbols.scopes.size) := by
  have hSame :
      p.openings.map Opening.scope =
        scopesWithin [p.opening] := by
    rw [scopesWithin, allOpenings, allOpenings,
      List.append_nil]
    rfl
  refine List.perm_iff_count.2 fun id => ?_
  rw [hSame, (hDerives.count_openings id).1,
    List.nodup_range.count]
  simp only [List.mem_range]

/- The definitions are those that the nodes introduce. -/
theorem DerivesProgram.introductions_perm
    {source file : String}
    {p : Program}
    (hDerives : DerivesProgram (.initial source file) p) :
    (p.introductions.map (·.id)).Perm
      (List.range p.symbols.definitions.size) := by
  have hSame :
      p.introductions.map (·.id) =
        definedWithin [p.opening] := by
    rw [definedWithin, allOpenings, allOpenings,
      List.append_nil, Program.introductions,
      List.map_flatMap]
    rfl
  refine List.perm_iff_count.2 fun id => ?_
  rw [hSame, (hDerives.count_openings id).2,
    List.nodup_range.count]
  simp only [List.mem_range]

end SourceCheck
