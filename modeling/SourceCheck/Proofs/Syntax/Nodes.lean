import SourceCheck.Proofs.Lexing.Nesting
import SourceCheck.Proofs.Syntax.Equivalence
import SourceCheck.Proofs.Syntax.Extent
import SourceCheck.Proofs.Syntax.Program

/-
  Where the nodes of a tree are read.

  Every expression of a tree is read between two states of
  the run over the whole text.  On the way it is started, and
  extended by operators, and what was read before an operator
  is an expression of the tree too.

  The texts of a template are expressions that no phrase
  stands for.  Neighbours are joined into one, and among them
  are the string literals that are embedded.

  Key definitions include:
    * `Expr.nodes`
    * `Program.nodes`
    * `ParserState.Stands`
    * `Node.Found`

  Key theorems include:
    * `Derives.finds`
    * `DerivesProgram.finds`
-/

namespace SourceCheck

open SourceCheck.Parser
open SourceCheck.ParserState

------------------------------------------------------------
-- Nodes
------------------------------------------------------------

/- An expression in a tree.  It may be text of a template. -/
structure Node where
  expr : Expr
  isText : Bool

/- The form of a text. -/
def ExprForm.isString : ExprForm → Bool
  | .string _ => true
  | _ => false

theorem ExprForm.exists_of_isString
    {form : ExprForm}
    (hString : form.isString) :
    ∃ value, form = .string value := by
  cases form with
  | string value => exact ⟨value, rfl⟩
  | _ => exact nomatch hString

mutual

/- The expressions in a form. -/
def ExprForm.inner : ExprForm → List Node
  | .int _ => []
  | .long _ => []
  | .boolean _ => []
  | .string _ => []
  | .template parts => partNodes parts
  | .reference _ _ => []
  | .invocation _ arguments _ => argumentNodes arguments
  | .call callee arguments =>
      callee.nodes ++ argumentNodes arguments
  | .access left _ right => left.nodes ++ right.nodes
  | .binary left _ right => left.nodes ++ right.nodes
  | .unary _ operand => operand.nodes
  | .assignment target _ value =>
      target.nodes ++ value.nodes
  | .parenthesized inner => inner.nodes
  | .block statements _ => statementNodes statements
  | .conditional condition thenBranch elseBranch =>
      condition.nodes ++ thenBranch.nodes ++
        optionNodes elseBranch
  | .function parameters _ body _ =>
      parameterNodes parameters ++ body.nodes
  | .lambda parameters body _ =>
      parameterNodes parameters ++ body.nodes
  | .ret value => optionNodes value

/- An expression and the expressions in it. -/
def Expr.nodes : Expr → List Node
  | ⟨form, span, type⟩ =>
      ⟨⟨form, span, type⟩, false⟩ :: form.inner

/- The expressions in what may be left out. -/
def optionNodes : Option Expr → List Node
  | none => []
  | some e => e.nodes

/- The expressions in a template.  Strings are its texts. -/
def partNodes : List Expr → List Node
  | [] => []
  | ⟨form, span, type⟩ :: parts =>
      ⟨⟨form, span, type⟩, form.isString⟩ ::
        (form.inner ++ partNodes parts)

/- The expressions in arguments. -/
def argumentNodes : List Argument → List Node
  | [] => []
  | ⟨_, value, _⟩ :: others =>
      value.nodes ++ argumentNodes others

/- The expressions in parameters. -/
def parameterNodes : List Parameter → List Node
  | [] => []
  | ⟨_, _, fallback, _, _⟩ :: others =>
      optionNodes fallback ++ parameterNodes others

/- The expressions in statements. -/
def statementNodes : List Statement → List Node
  | [] => []
  | x :: others => x.nodes ++ statementNodes others

/- The expressions in a statement. -/
def Statement.nodes : Statement → List Node
  | .expression e => e.nodes
  | .variable v => v.nodes
  | .function f => f.nodes

/- The expressions in the declaration of a variable. -/
def VariableDecl.nodes : VariableDecl → List Node
  | ⟨_, _, _, initializer, _, _⟩ => optionNodes initializer

/- The expressions in the declaration of a function. -/
def FunctionDecl.nodes : FunctionDecl → List Node
  | ⟨_, parameters, _, body, _, _, _⟩ =>
      parameterNodes parameters ++ optionNodes body

end

/- The expressions in a declaration. -/
def Declaration.nodes : Declaration → List Node
  | .function f => f.nodes
  | .property v => v.nodes

/- The expressions in a program. -/
def Program.nodes (p : Program) : List Node :=
  p.declarations.flatMap Declaration.nodes

------------------------------------------------------------
-- Standing
------------------------------------------------------------

variable {s t u : ParserState}
variable {e f left : Expr}

/-
  The expression is read from one state to the other.  It may
  be extended there.
-/
inductive ParserState.Stands :
    ParserState → Expr → ParserState → Prop where
  | start {s starter e t}
      (hStart : s.token.kind.starter? = some starter)
      (hFirst :
        Derives (.start starter s.token) s.next e t) :
      Stands s e t
  | extension {s left t extender q e u}
      (hLeft : Stands s left t)
      (hOperator :
        t.token.kind.extender? = some (extender, q))
      (hExtension :
        Derives (.extension extender left t.token q)
          t.next e u) :
      Stands s e u

/- A block stands from its opening brace on. -/
theorem stands_block
    (hOpen : s.token.kind = .openCurly)
    (hBlock : Derives (.block s.token) s.next e t) :
    s.Stands e t :=
  .start (by rw [hOpen]; rfl) (.startBlock hBlock)

/- What is read is read from the same tokens. -/
theorem DerivesType.tokens_eq
    {phrase : TypePhrase}
    {y : TypeExpr}
    (hDerives : DerivesType phrase s y t) :
    t.stream.tokens = s.stream.tokens := by
  have hNext (s : ParserState) :
      s.next.stream.tokens = s.stream.tokens :=
    TokenStream.tokens_consume s.stream
  induction hDerives with
  | _ => grind

theorem Derives.tokens_eq
    {phrase : Phrase}
    {r : phrase.Result}
    (hDerives : Derives phrase s r t) :
    t.stream.tokens = s.stream.tokens := by
  have hType := @DerivesType.tokens_eq
  have hNext (s : ParserState) :
      s.next.stream.tokens = s.stream.tokens :=
    TokenStream.tokens_consume s.stream
  have hOpened (s : ParserState) :
      s.opened.stream.tokens = s.stream.tokens :=
    rfl
  have hClosed (s : ParserState) :
      s.closed.stream.tokens = s.stream.tokens :=
    rfl
  have hDeclared
      {s t : ParserState}
      {d : Definition}
      {id : DefinitionId}
      (hDeclares : s.Declares d id t) :
      t.stream.tokens = s.stream.tokens := by
    rcases hDeclares.exists_scope with ⟨scope, -, -, rfl⟩
    rfl
  induction hDerives with
  | _ => grind

------------------------------------------------------------
-- Found nodes
------------------------------------------------------------

/-
  The text of a template starts with a token of its own, or
  with a string literal that is embedded.  Such a literal is
  all of it, or more tokens belong to it.
-/
def Expr.TextFound (T : List Token) (e : Expr) : Prop :=
  (∃ s : ParserState,
      s.stream.tokens = T ∧
        s.token.kind.isText ∧
          e.span.start = s.token.span.start) ∨
    ∃ (s : ParserState) (f : Expr) (t : ParserState),
      s.stream.tokens = T ∧ s.Stands f t ∧
        t.token.kind = .stringTemplateEnd ∧
          e.span.start = f.span.start ∧
            (e = f ∨
              ∃ u : ParserState,
                u.stream.tokens = T ∧ u.left < t.left ∧
                  u.EndsAt e.span)

/- The node is read somewhere in the tokens. -/
def Node.Found (T : List Token) : Node → Prop
  | ⟨e, true⟩ => e.TextFound T
  | ⟨e, false⟩ =>
      ∃ s t : ParserState,
        s.stream.tokens = T ∧ s.Stands e t

/- All of the nodes are. -/
def AllFound (T : List Token) (xs : List Node) : Prop :=
  ∀ x ∈ xs, x.Found T

section AllFound

variable {T : List Token}
variable {xs ys : List Node}

theorem AllFound.nil : AllFound T [] :=
  List.forall_mem_nil _

theorem allFound_append :
    AllFound T (xs ++ ys) ↔ AllFound T xs ∧ AllFound T ys :=
  List.forall_mem_append

theorem allFound_cons {x : Node} :
    AllFound T (x :: xs) ↔ x.Found T ∧ AllFound T xs :=
  List.forall_mem_cons

end AllFound

theorem Expr.nodes_eq (e : Expr) :
    e.nodes = ⟨e, false⟩ :: e.form.inner := by
  rcases e with ⟨form, span, type⟩
  simp only [Expr.nodes]

theorem partNodes_string
    {value : String}
    (hForm : e.form = .string value)
    (parts : List Expr) :
    partNodes (e :: parts) = ⟨e, true⟩ :: partNodes parts := by
  rcases e with ⟨form, span, type⟩
  dsimp only at hForm
  subst hForm
  simp only [partNodes, ExprForm.isString, ExprForm.inner,
    List.nil_append]

theorem partNodes_other
    (hForm : e.form.isString = false)
    (parts : List Expr) :
    partNodes (e :: parts) = e.nodes ++ partNodes parts := by
  rcases e with ⟨form, span, type⟩
  dsimp only at hForm
  simp only [partNodes, Expr.nodes, hForm, List.cons_append]

------------------------------------------------------------
-- Texts
------------------------------------------------------------

/- The parts of a template that start at a state. -/
structure PartsFound
    (T : List Token)
    (s : ParserState)
    (parts : List Expr) :
    Prop where
  found : AllFound T (partNodes parts)
  ends :
    ∀ e others value,
      parts = e :: others →
        e.form = .string value →
          ∃ u : ParserState,
            u.stream.tokens = T ∧ u.left < s.left ∧
              u.EndsAt e.span

/- One part before others, and what it is if it is text. -/
theorem PartsFound.cons
    {T : List Token}
    {parts : List Expr}
    (hOthers : PartsFound T t parts)
    (hLeft : t.left ≤ u.left)
    (hLess : u.left < s.left)
    (hSame : u.stream.tokens = T)
    (hEnds : u.EndsAt e.span)
    (hNodes : e.form.isString = false → AllFound T e.nodes)
    (hText :
      ∀ f : Expr,
        f.span.start = e.span.start →
          (f = e ∨
            ∃ v : ParserState,
              v.stream.tokens = T ∧ v.left < u.left ∧
                v.EndsAt f.span) →
            f.TextFound T) :
    PartsFound T s (consMerged e parts) := by
  cases hString : e.form.isString with
  | true =>
      rcases e.form.exists_of_isString hString with
        ⟨value, hForm⟩
      by_cases hNext :
          ∃ b others span type,
            parts = ⟨.string b, span, type⟩ :: others
      · rcases hNext with ⟨b, others, span, type, rfl⟩
        rcases hOthers.ends _ _ b rfl rfl with
          ⟨v, hTokens, hBehind, hStop⟩
        have hBefore := Nat.lt_of_lt_of_le hBehind hLeft
        have hRest := hOthers.found
        rw [partNodes_string rfl, allFound_cons] at hRest
        have hFound :=
          hText
            (.new (.string (value ++ b))
              (e.span.between span))
            rfl (.inr ⟨v, hTokens, hBefore, hStop⟩)
        unfold consMerged
        rw [hForm]
        dsimp only
        constructor
        · rw [partNodes_string rfl, allFound_cons]
          exact ⟨hFound, hRest.2⟩
        · intro f fs c hParts _
          cases hParts
          exact ⟨v, hTokens, Nat.lt_trans hBefore hLess,
            hStop⟩
      · rw [consMerged_eq_cons
          fun a b others span type _ h =>
            hNext ⟨b, others, span, type, h⟩]
        constructor
        · rw [partNodes_string hForm, allFound_cons]
          exact ⟨hText e rfl (.inl rfl), hOthers.found⟩
        · intro f fs c hParts _
          cases hParts
          exact ⟨u, hSame, hLess, hEnds⟩
  | false =>
      have hOther (value : String) :
          e.form ≠ .string value := by
        intro hForm
        rw [hForm] at hString
        exact nomatch hString
      rw [consMerged_eq_cons fun a b others span type hForm _ =>
        hOther a hForm]
      constructor
      · rw [partNodes_other hString, allFound_append]
        exact ⟨hNodes hString, hOthers.found⟩
      · intro f fs c hParts hForm
        cases hParts
        exact absurd hForm (hOther c)

theorem PartsFound.nil
    {T : List Token} :
    PartsFound T s [] where
  found := by simp only [partNodes, AllFound.nil]
  ends := nofun

/- A token of text before other parts. -/
theorem PartsFound.consText
    {T : List Token}
    {parts : List Expr}
    (hOthers : PartsFound T s.next parts)
    (hTokens : s.stream.tokens = T)
    (hText : s.token.kind.isText)
    (value : String) :
    PartsFound T s
      (consMerged (.new (.string value) s.token.span)
        parts) := by
  have hMore : s.token.kind ≠ .eof := by
    intro hEof
    rw [hEof] at hText
    exact nomatch hText
  exact hOthers.cons (Nat.le_refl _)
    (by have := left_next hMore; omega)
    ((TokenStream.tokens_consume s.stream).trans hTokens)
    (endsAt_next hMore) nofun
    (fun _ hStart _ => .inl ⟨s, hTokens, hText, hStart⟩)

------------------------------------------------------------
-- Finding
------------------------------------------------------------

/- The expressions in items of a list. -/
def Item.nodes : (i : Item) → List i.Result → List Node
  | .argument, xs => argumentNodes xs
  | .parameter, xs => parameterNodes xs
  | .lambdaParameter, xs => parameterNodes xs
  | .entry, _ => []

theorem Item.allFound_nil
    {T : List Token}
    (i : Item) :
    AllFound T (i.nodes []) := by
  cases i with
  | entry => exact .nil
  | _ =>
      simp only [Item.nodes, argumentNodes, parameterNodes,
        AllFound.nil]

theorem Item.nodes_cons
    (i : Item)
    (x : i.Result)
    (xs : List i.Result) :
    i.nodes (x :: xs) = i.nodes [x] ++ i.nodes xs := by
  cases i with
  | argument =>
      rcases x with ⟨name, value, span⟩
      simp only [Item.nodes, argumentNodes, List.append_nil]
  | parameter =>
      rcases x with ⟨name, type, fallback, id, span⟩
      simp only [Item.nodes, parameterNodes, List.append_nil]
  | lambdaParameter =>
      rcases x with ⟨name, type, fallback, id, span⟩
      simp only [Item.nodes, parameterNodes, List.append_nil]
  | entry => rfl

/-
  The nodes of a phrase are found.  What starts or extends
  an expression leaves the expression itself to the phrase
  around it.
-/
def Phrase.Finds
    (T : List Token) :
    (phrase : Phrase) →
      ParserState → phrase.Result → ParserState → Prop
  | .expression _, s, e, t =>
      s.Stands e t ∧ AllFound T e.nodes
  | .extensions _ left, s, e, t =>
      ∀ r : ParserState,
        r.stream.tokens = T →
          r.Stands left s → AllFound T left.nodes →
            r.Stands e t ∧ AllFound T e.nodes
  | .start _ _, _, e, _ => AllFound T e.form.inner
  | .extension _ left _ _, _, e, _ =>
      AllFound T left.nodes → AllFound T e.form.inner
  | .behind _, _, o, _ => AllFound T (optionNodes o)
  | .item i, _, x, _ => AllFound T (i.nodes [x])
  | .items i, _, xs, _ => AllFound T (i.nodes xs)
  | .moreItems i, _, xs, _ => AllFound T (i.nodes xs)
  | .signature, _, r, _ => AllFound T (parameterNodes r.1)
  | .body, _, e, _ => AllFound T e.nodes
  | .namedBody, _, o, _ => AllFound T (optionNodes o)
  | .parts, s, xs, _ =>
      PartsFound T s (mergeTexts (xs.map (·.expression)))
  | .block _, _, e, _ => AllFound T e.form.inner
  | .statements, _, xs, _ => AllFound T (statementNodes xs)
  | .statement, _, x, _ => AllFound T x.nodes
  | .variableDecl _, _, v, _ => AllFound T v.nodes
  | .functionDecl, _, f, _ => AllFound T f.nodes

theorem allFound_nodes
    {T : List Token}
    (hTokens : s.stream.tokens = T)
    (hStands : s.Stands e t)
    (hInner : AllFound T e.form.inner) :
    AllFound T e.nodes := by
  rw [Expr.nodes_eq, allFound_cons]
  exact ⟨⟨s, t, hTokens, hStands⟩, hInner⟩

/- A part is joined to what is found behind it. -/
theorem Phrase.finds_cons
    {T : List Token}
    {part : StringPart}
    {parts : List StringPart}
    (hFound :
      PartsFound T s
        (consMerged part.expression
          (mergeTexts (parts.map (·.expression))))) :
    Phrase.Finds T .parts s (part :: parts) t := by
  rw [← mergeTexts_cons] at hFound
  exact hFound

theorem optionNodes_some (e : Expr) :
    optionNodes (some e) = e.nodes :=
  optionNodes.eq_2 e

/- Every node of a phrase is found in what it is read from. -/
theorem Derives.finds
    {T : List Token}
    {phrase : Phrase}
    {r : phrase.Result}
    (hDerives : Derives phrase s r t) :
    s.stream.tokens = T → phrase.Finds T s r t := by
  have hNext (s : ParserState) :
      s.next.stream.tokens = s.stream.tokens :=
    TokenStream.tokens_consume s.stream
  have hOpened (s : ParserState) :
      s.opened.stream.tokens = s.stream.tokens :=
    rfl
  induction hDerives with
  | @expression power starter s first t e u hStart hFirst
      hMore ihFirst ihMore =>
      intro hTokens
      have hStands := Stands.start hStart hFirst
      have hThere :=
        hFirst.tokens_eq.trans ((hNext s).trans hTokens)
      exact ihMore hThere s hTokens hStands
        (allFound_nodes hTokens hStands
          (ihFirst ((hNext s).trans hTokens)))
  | stop _ => exact fun _ r _ hStands hFound =>
      ⟨hStands, hFound⟩
  | @more power left extender q s e t f u hOperator hTight
      hExtension hMore ihExtension ihMore =>
      intro hTokens r hSame hLeft hFound
      have hThere := (hNext s).trans hTokens
      have hStands := Stands.extension hLeft hOperator hExtension
      exact ihMore (hExtension.tokens_eq.trans hThere) r hSame
        hStands
        (allFound_nodes hSame hStands
          (ihExtension hThere hFound))
  | int hForm =>
      intro _
      rcases exists_of_intForm? hForm with
        ⟨n, rfl⟩ | ⟨n, rfl⟩
      · simp only [Phrase.Finds, Expr.new, ExprForm.inner,
          AllFound.nil]
      · simp only [Phrase.Finds, Expr.new, ExprForm.inner,
          AllFound.nil]
  | @string token s parts t _ _ ih =>
      intro hTokens
      have hFound := (ih hTokens).found
      change AllFound T (stringForm parts).inner
      unfold stringForm
      split
      · simpa only [ExprForm.inner] using hFound
      · simp only [ExprForm.inner, AllFound.nil]
  | startBlock _ ih => exact ih
  | @bodyBlock s e t hOpen hBlock ih =>
      intro hTokens
      exact allFound_nodes hTokens
        (stands_block hOpen hBlock)
        (ih ((hNext s).trans hTokens))
  | @namedBlock s e t hOpen hBlock ih =>
      intro hTokens
      change AllFound T (optionNodes (some e))
      rw [optionNodes_some]
      exact allFound_nodes hTokens
        (stands_block hOpen hBlock)
        (ih ((hNext s).trans hTokens))
  | noParts _ => exact fun _ => PartsFound.nil
  | @textPart s parts t hText hMore ih =>
      intro hTokens
      exact Phrase.finds_cons
        ((ih ((hNext s).trans hTokens)).consText hTokens
          (by rw [hText]; rfl) _)
  | @escapePart s c parts t hEscape hChar hMore ih =>
      intro hTokens
      exact Phrase.finds_cons
        ((ih ((hNext s).trans hTokens)).consText hTokens
          (by rw [hEscape]; rfl) _)
  | @embeddedPart s e t parts u hOpen hExpr hClose hMore
      ihExpr ih =>
      intro hTokens
      have hWithin := (hNext s).trans hTokens
      have hThere := hExpr.tokens_eq.trans hWithin
      have hPassed :=
        left_next (s := s) (by rw [hOpen]; decide)
      have hLess := hExpr.left_le
      have hBehind := t.left_next_le
      have hFound := ihExpr hWithin
      refine Phrase.finds_cons
        ((ih ((hNext t).trans hThere)).cons
          t.left_next_le ?_ hThere hExpr.extent.2
          (fun _ => hFound.2) ?_)
      · dsimp only [Phrase.least] at hLess
        omega
      · intro f hStart hEnd
        exact .inr ⟨s.next, e, t, hWithin, hFound.1, hClose,
          hStart, hEnd⟩
  | @someItems i s x t xs u _ hFirst _ ihFirst ihMore =>
      intro hTokens
      change AllFound T (i.nodes (x :: xs))
      rw [i.nodes_cons, allFound_append]
      exact ⟨ihFirst hTokens,
        ihMore (hFirst.tokens_eq.trans hTokens)⟩
  | @nextItem i s x t xs u _ _ hItem _ ihItem ihMore =>
      intro hTokens
      have hBehind := (hNext s).trans hTokens
      change AllFound T (i.nodes (x :: xs))
      rw [i.nodes_cons, allFound_append]
      exact ⟨ihItem hBehind,
        ihMore (hItem.tokens_eq.trans hBehind)⟩
  | @noItems i s _ => exact fun _ => i.allFound_nil
  | @lastItem i s _ => exact fun _ => i.allFound_nil
  | @trailingComma i s _ _ => exact fun _ => i.allFound_nil
  | _ =>
      simp only [Phrase.Finds, Expr.new, Expr.reference,
        Expr.invocation, ExprForm.inner, Item.nodes,
        optionNodes, argumentNodes, parameterNodes,
        statementNodes, Statement.nodes, VariableDecl.nodes,
        FunctionDecl.nodes, allFound_append, AllFound.nil]
        at *
      grind [Derives.tokens_eq, DerivesType.tokens_eq]

------------------------------------------------------------
-- Programs
------------------------------------------------------------

theorem DerivesImports.tokens_eq
    {imports : List Import}
    (hDerives : DerivesImports s imports t) :
    t.stream.tokens = s.stream.tokens := by
  have hNext (s : ParserState) :
      s.next.stream.tokens = s.stream.tokens :=
    TokenStream.tokens_consume s.stream
  induction hDerives with
  | stop _ => rfl
  | more hImport _ ih =>
      rcases hImport with ⟨-, -, hPath, -, hEntries, -, -⟩
      rw [ih, hNext, hEntries.tokens_eq, hNext,
        hPath.tokens_eq, hNext, hNext]

theorem DerivesDeclaration.tokens_eq
    {d : Declaration}
    (hDerives : DerivesDeclaration s d t) :
    t.stream.tokens = s.stream.tokens := by
  cases hDerives with
  | function hFunction => exact hFunction.tokens_eq
  | property _ hVariable => exact hVariable.tokens_eq

theorem DerivesDeclaration.finds
    {T : List Token}
    {d : Declaration}
    (hDerives : DerivesDeclaration s d t)
    (hTokens : s.stream.tokens = T) :
    AllFound T d.nodes := by
  cases hDerives with
  | function hFunction => exact hFunction.finds hTokens
  | property _ hVariable => exact hVariable.finds hTokens

theorem DerivesDeclarations.finds
    {T : List Token}
    {ds : List Declaration}
    (hDerives : DerivesDeclarations s ds t)
    (hTokens : s.stream.tokens = T) :
    AllFound T (ds.flatMap Declaration.nodes) := by
  induction hDerives with
  | stop _ => exact .nil
  | more hDeclaration _ ih =>
      rw [List.flatMap_cons, allFound_append]
      exact ⟨hDeclaration.finds hTokens,
        ih (hDeclaration.tokens_eq.trans hTokens)⟩

/- Every node of a program is found in its tokens. -/
theorem DerivesProgram.finds
    {program : Program}
    (hDerives : DerivesProgram s program) :
    AllFound s.stream.tokens program.nodes := by
  rcases hDerives with ⟨hImports, hDeclarations⟩
  exact hDeclarations.finds hImports.tokens_eq

end SourceCheck
