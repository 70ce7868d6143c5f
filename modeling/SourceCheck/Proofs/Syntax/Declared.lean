import SourceCheck.Proofs.Resolution.Scoping
import SourceCheck.Proofs.Syntax.Equivalence

/-
  The definitions that a tree makes.

  Each definition of a program belongs to one place in its
  tree: a run of the parser gives out the numbers of
  definitions one by one, and the tree that is read has each
  of them once.

  Key definitions include:
    * `Expr.declared`
    * `Program.declared`

  Key theorems include:
    * `Derives.count_declared`
    * `DerivesProgram.count_declared`
-/

namespace SourceCheck

open SourceCheck.Parser
open SourceCheck.ParserState

------------------------------------------------------------
-- Definitions of trees
------------------------------------------------------------

mutual

def ExprForm.declared : ExprForm → List DefinitionId
  | .int _ => []
  | .long _ => []
  | .boolean _ => []
  | .string _ => []
  | .template parts => exprsDeclared parts
  | .reference _ _ => []
  | .invocation _ arguments _ => argumentsDeclared arguments
  | .call callee arguments =>
      callee.declared ++ argumentsDeclared arguments
  | .access left _ right => left.declared ++ right.declared
  | .binary left _ right => left.declared ++ right.declared
  | .unary _ operand => operand.declared
  | .assignment target _ value =>
      target.declared ++ value.declared
  | .parenthesized inner => inner.declared
  | .block statements _ => statementsDeclared statements
  | .conditional condition thenBranch elseBranch =>
      condition.declared ++
        (thenBranch.declared ++ optionDeclared elseBranch)
  | .function parameters _ body _ =>
      parameters.map (·.definition) ++
        (defaultsDeclared parameters ++ body.declared)
  | .lambda parameters body _ =>
      parameters.map (·.definition) ++
        (defaultsDeclared parameters ++ body.declared)
  | .ret value => optionDeclared value

/-
  The definitions that an expression makes, in the order in
  which they get their types.
-/
def Expr.declared : Expr → List DefinitionId
  | ⟨form, _, _⟩ => form.declared

def optionDeclared : Option Expr → List DefinitionId
  | none => []
  | some e => e.declared

def exprsDeclared : List Expr → List DefinitionId
  | [] => []
  | e :: es => e.declared ++ exprsDeclared es

def argumentsDeclared : List Argument → List DefinitionId
  | [] => []
  | ⟨_, value, _⟩ :: others =>
      value.declared ++ argumentsDeclared others

/- The definitions in the defaults of parameters. -/
def defaultsDeclared : List Parameter → List DefinitionId
  | [] => []
  | ⟨_, _, fallback, _, _⟩ :: others =>
      optionDeclared fallback ++ defaultsDeclared others

def statementsDeclared : List Statement → List DefinitionId
  | [] => []
  | x :: others => x.declared ++ statementsDeclared others

def Statement.declared : Statement → List DefinitionId
  | .expression e => e.declared
  | .variable v => v.declared
  | .function f => f.declared

def VariableDecl.declared : VariableDecl → List DefinitionId
  | ⟨_, _, _, initializer, definition, _⟩ =>
      optionDeclared initializer ++ [definition]

def FunctionDecl.declared : FunctionDecl → List DefinitionId
  | ⟨_, parameters, _, body, _, definition, _⟩ =>
      parameters.map (·.definition) ++
        ([definition] ++
          (defaultsDeclared parameters ++
            optionDeclared body))

end

/- The definitions that a declaration makes. -/
def Declaration.declared : Declaration → List DefinitionId
  | .function f => f.declared
  | .property v => v.declared

/- The definitions that a program makes. -/
def Program.declared (p : Program) : List DefinitionId :=
  p.declarations.flatMap Declaration.declared

------------------------------------------------------------
-- Strings
------------------------------------------------------------

theorem declared_of_string
    {e : Expr}
    {value : String}
    (hForm : e.form = .string value) :
    e.declared = [] := by
  rcases e with ⟨form, span, type⟩
  dsimp only at hForm
  subst hForm
  rfl

theorem exprsDeclared_eq (es : List Expr) :
    exprsDeclared es = es.flatMap Expr.declared := by
  induction es with
  | nil => rfl
  | cons e es ih =>
      rw [exprsDeclared, ih, List.flatMap_cons]

section Texts

variable {α : Type}
variable {f : Expr → List α}
variable {g : String → List α}

/-
  What is gathered from parts stays if texts are joined, when
  the same is gathered from joined texts as from both.
-/
theorem flatMap_consMerged
    (hText :
      ∀ e value, e.form = .string value → f e = g value)
    (hJoin : ∀ a b, g (a ++ b) = g a ++ g b)
    (e : Expr)
    (es : List Expr) :
    (consMerged e es).flatMap f = f e ++ es.flatMap f := by
  unfold consMerged
  split
  · rename_i value other span type others hForm
    have hNew (span : Span) :
        f (.new (.string (value ++ other)) span) =
          g value ++ g other :=
      (hText _ _ rfl).trans (hJoin value other)
    have hOld : f ⟨.string other, span, type⟩ = g other :=
      hText _ _ rfl
    rw [List.flatMap_cons, List.flatMap_cons, hNew, hOld,
      hText e value hForm, List.append_assoc]
  · rw [List.flatMap_cons]

theorem flatMap_mergeTexts
    (hText :
      ∀ e value, e.form = .string value → f e = g value)
    (hJoin : ∀ a b, g (a ++ b) = g a ++ g b)
    (es : List Expr) :
    (mergeTexts es).flatMap f = es.flatMap f := by
  induction es with
  | nil => rfl
  | cons e es ih =>
      rw [mergeTexts_cons, flatMap_consMerged hText hJoin,
        ih, List.flatMap_cons]

/- Nothing is gathered from a text without expressions. -/
theorem flatMap_texts
    (hText : ∀ e value, e.form = .string value → f e = [])
    {parts : List StringPart}
    (hNone : ¬ parts.any (·.isEmbedded)) :
    (parts.map (·.expression)).flatMap f = [] := by
  rw [List.flatMap_map, List.flatMap_eq_nil_iff]
  intro p hMember
  cases p with
  | text value span => exact hText _ value rfl
  | embedded e =>
      exact absurd (List.any_eq_true.2 ⟨_, hMember, rfl⟩)
        hNone

end Texts

theorem declared_stringForm (parts : List StringPart) :
    (stringForm parts).declared =
      exprsDeclared (parts.map (·.expression)) := by
  have hText (e : Expr) (value : String) :
      e.form = .string value → e.declared = [] :=
    declared_of_string
  unfold stringForm
  rw [exprsDeclared_eq]
  split
  · rw [ExprForm.declared, exprsDeclared_eq,
      flatMap_mergeTexts hText fun _ _ => rfl]
  · rename_i hNone
    rw [flatMap_texts hText hNone, ExprForm.declared]

theorem declared_intForm
    {text : String}
    {form : ExprForm}
    (hForm : intForm? text = some form) :
    form.declared = [] := by
  rcases exists_of_intForm? hForm with ⟨n, rfl⟩ | ⟨n, rfl⟩
  · rfl
  · rfl

------------------------------------------------------------
-- Phrases
------------------------------------------------------------

/- The definitions of an item. -/
def Item.declared : (i : Item) → i.Result → List DefinitionId
  | .argument, x => x.value.declared
  | .parameter, p =>
      p.definition :: optionDeclared p.fallback
  | .lambdaParameter, p =>
      p.definition :: optionDeclared p.fallback
  | .entry, _ => []

/- The definitions of items. -/
def Item.allDeclared :
    (i : Item) → List i.Result → List DefinitionId
  | .argument, xs => argumentsDeclared xs
  | .parameter, ps =>
      ps.map (·.definition) ++ defaultsDeclared ps
  | .lambdaParameter, ps =>
      ps.map (·.definition) ++ defaultsDeclared ps
  | .entry, _ => []

/- The definitions of the tree that a phrase stands for. -/
def Phrase.declared :
    (phrase : Phrase) → phrase.Result → List DefinitionId
  | .expression _, e => e.declared
  | .extensions _ _, e => e.declared
  | .start _ _, e => e.declared
  | .extension _ _ _ _, e => e.declared
  | .behind _, o => optionDeclared o
  | .item i, x => i.declared x
  | .items i, xs => i.allDeclared xs
  | .moreItems i, xs => i.allDeclared xs
  | .signature, r =>
      r.1.map (·.definition) ++ defaultsDeclared r.1
  | .body, e => e.declared
  | .namedBody, o => optionDeclared o
  | .parts, xs => exprsDeclared (xs.map (·.expression))
  | .block _, e => e.declared
  | .statements, xs => statementsDeclared xs
  | .statement, x => x.declared
  | .variableDecl _, v => v.declared
  | .functionDecl, f => f.declared

/- The definitions of what stands before the phrase. -/
def Phrase.declaredBefore : Phrase → List DefinitionId
  | .extensions _ left => left.declared
  | .extension _ left _ _ => left.declared
  | _ => []

/- Whether a number was given out up to a state. -/
def ParserState.given (s : ParserState) (id : Nat) : Nat :=
  if id < s.defined then 1 else 0

variable {s t u : ParserState}

/- One number more is given out. -/
theorem given_succ (n id : Nat) :
    (if id < n + 1 then 1 else 0) =
      (if id < n then 1 else 0) + [n].count id := by
  rw [List.count_singleton]
  by_cases hSame : n = id
  · subst hSame
    simp
  · have hCount : (if n == id then 1 else 0) = 0 :=
      if_neg fun hEq => hSame (beq_iff_eq.1 hEq)
    rw [hCount]
    split <;> split <;> omega

/- A definition takes the next number. -/
theorem ParserState.Declares.given_eq
    {d : Definition}
    {id : DefinitionId}
    (hDeclares : s.Declares d id t)
    (other : Nat) :
    t.given other = s.given other + [id].count other := by
  rcases hDeclares.defined_eq with ⟨rfl, hDefined⟩
  unfold given
  rw [hDefined]
  exact given_succ s.defined other

theorem DerivesType.given_eq
    {phrase : TypePhrase}
    {y : TypeExpr}
    (hDerives : DerivesType phrase s y t)
    (id : Nat) :
    t.given id = s.given id := by
  have hNext (s : ParserState) : s.next.given id = s.given id :=
    rfl
  induction hDerives with
  | _ => grind

theorem Item.allDeclared_nil (i : Item) :
    i.allDeclared [] = [] := by
  cases i with
  | _ => rfl

theorem Item.count_allDeclared_cons
    {i : Item}
    (x : i.Result)
    (xs : List i.Result)
    (id : Nat) :
    (i.allDeclared (x :: xs)).count id =
      (i.declared x).count id + (i.allDeclared xs).count id := by
  cases i with
  | argument =>
      rcases x with ⟨name, value, span⟩
      rw [Item.allDeclared, argumentsDeclared,
        List.count_append]
      rfl
  | parameter =>
      rcases x with ⟨name, type, fallback, definition, span⟩
      rw [Item.allDeclared, Item.declared, Item.allDeclared,
        defaultsDeclared]
      simp only [List.map_cons, List.count_append,
        List.count_cons]
      omega
  | lambdaParameter =>
      rcases x with ⟨name, type, fallback, definition, span⟩
      rw [Item.allDeclared, Item.declared, Item.allDeclared,
        defaultsDeclared]
      simp only [List.map_cons, List.count_append,
        List.count_cons]
      omega
  | entry => rfl

/-
  The tree of a phrase has each number that was given out
  between its states once, besides those of what stands
  before the phrase.
-/
theorem Derives.count_declared
    {phrase : Phrase}
    {r : phrase.Result}
    (hDerives : Derives phrase s r t)
    (id : Nat) :
    (phrase.declared r).count id + s.given id =
      phrase.declaredBefore.count id + t.given id := by
  have hNext (s : ParserState) : s.next.given id = s.given id :=
    rfl
  have hOpened (s : ParserState) :
      s.opened.given id = s.given id :=
    rfl
  have hClosed (s : ParserState) :
      s.closed.given id = s.given id :=
    rfl
  have hArgument (x : Argument) :
      Item.declared .argument x = x.value.declared :=
    rfl
  have hArguments (xs : List Argument) :
      Item.allDeclared .argument xs = argumentsDeclared xs :=
    rfl
  have hParameters (ps : List Parameter) :
      Item.allDeclared .parameter ps =
        ps.map (·.definition) ++ defaultsDeclared ps :=
    rfl
  have hLambda (ps : List Parameter) :
      Item.allDeclared .lambdaParameter ps =
        ps.map (·.definition) ++ defaultsDeclared ps :=
    rfl
  induction hDerives with
  | int hForm =>
      have hNone := declared_intForm hForm
      simp only [Phrase.declared, Phrase.declaredBefore,
        Expr.new, Expr.declared, hNone]
  | parameter _ _ hType _ _ hDeclares ih =>
      have hSame := hType.given_eq id
      have hAdded := hDeclares.given_eq id
      simp only [Phrase.declared, Phrase.declaredBefore,
        Item.declared, List.count_cons, List.count_nil,
        hNext] at *
      omega
  | lambdaParameter _ hType _ hDeclares =>
      have hSame := hType.given_eq id
      have hAdded := hDeclares.given_eq id
      simp only [Phrase.declared, Phrase.declaredBefore,
        Item.declared, optionDeclared, List.count_cons,
        List.count_nil, hNext] at *
      omega
  | signature _ _ _ hType ih =>
      have hSame := hType.given_eq id
      simp only [Phrase.declared, Phrase.declaredBefore,
        hParameters, List.count_append, List.count_nil,
        hNext] at *
      omega
  | entry _ _ => rfl
  | renamedEntry _ _ _ => rfl
  | variableDecl _ _ hType _ _ _ hDeclares ih =>
      have hSame := hType.given_eq id
      have hAdded := hDeclares.given_eq id
      simp only [Phrase.declared, Phrase.declaredBefore,
        VariableDecl.declared, List.count_append,
        List.count_nil, hNext] at *
      omega
  | functionDecl _ _ _ _ _ hDeclares ihSignature ihBody =>
      have hAdded := hDeclares.given_eq id
      simp only [Phrase.declared, Phrase.declaredBefore,
        FunctionDecl.declared, List.count_append,
        List.count_nil, hNext, hOpened, hClosed] at *
      omega
  | _ =>
      simp only [Phrase.declared, Phrase.declaredBefore,
        Expr.new, Expr.reference, Expr.invocation,
        Expr.declared, ExprForm.declared, optionDeclared,
        Item.allDeclared_nil, Item.count_allDeclared_cons,
        hArgument, hArguments, hLambda,
        declared_stringForm, StringPart.expression,
        exprsDeclared, statementsDeclared,
        Statement.declared, List.map_nil, List.map_cons,
        List.count_append, List.count_nil, hNext, hOpened,
        hClosed] at * <;> omega

------------------------------------------------------------
-- Programs
------------------------------------------------------------

theorem DerivesDeclaration.count_declared
    {d : Declaration}
    (hDerives : DerivesDeclaration s d t)
    (id : Nat) :
    d.declared.count id + s.given id = t.given id := by
  cases hDerives with
  | function hFunction =>
      have hOwn := hFunction.count_declared id
      simp only [Phrase.declared, Phrase.declaredBefore,
        List.count_nil] at hOwn
      rw [Declaration.declared]
      omega
  | property _ hVariable =>
      have hOwn := hVariable.count_declared id
      simp only [Phrase.declared, Phrase.declaredBefore,
        List.count_nil] at hOwn
      rw [Declaration.declared]
      omega

theorem DerivesDeclarations.count_declared
    {ds : List Declaration}
    (hDerives : DerivesDeclarations s ds t)
    (id : Nat) :
    (ds.flatMap Declaration.declared).count id + s.given id =
      t.given id := by
  induction hDerives with
  | stop _ => simp
  | more hFirst _ ih =>
      have hOwn := hFirst.count_declared id
      rw [List.flatMap_cons, List.count_append]
      omega

theorem DerivesImports.given_eq
    {imports : List Import}
    (hDerives : DerivesImports s imports t)
    (id : Nat) :
    t.given id = s.given id := by
  induction hDerives with
  | stop _ => rfl
  | more hImport _ ih =>
      rw [ih]
      cases hImport with
      | intro _ _ hPath _ hEntries _ hValue =>
          have hFirst := hPath.count_declared id
          have hSecond := hEntries.count_declared id
          have hNext (s : ParserState) :
              s.next.given id = s.given id :=
            rfl
          have hEntry (xs : List ImportEntry) :
              Item.allDeclared .entry xs = [] :=
            rfl
          have hNone := declared_of_string hValue
          simp only [Phrase.declared, Phrase.declaredBefore,
            hEntry, hNone, List.count_nil, hNext] at *
          omega

/- A program makes each of its definitions in one place. -/
theorem DerivesProgram.count_declared
    {source file : String}
    {program : Program}
    (hDerives :
      DerivesProgram (.initial source file) program)
    (id : Nat) :
    program.declared.count id =
      if id < program.symbols.definitions.size then
        1
      else
        0 := by
  cases hDerives with
  | @intro imports t ds u hImports hDeclarations =>
      have hFirst := hImports.given_eq id
      have hSecond := hDeclarations.count_declared id
      have hStart :
          (ParserState.initial source file).opened.given id =
            0 :=
        rfl
      rw [hFirst, hStart, Nat.add_zero] at hSecond
      exact hSecond

end SourceCheck
