import SourceCheck.Proofs.Syntax.Equivalence
import SourceCheck.Proofs.Syntax.Program
import SourceCheck.Proofs.Syntax.Rules

/-
  Trees as they are read.

  The parser fills no slots: no node has a type, and no name
  refers to anything.  It leaves out a written type as a
  whole only, never a side of a union or an intersection,
  and the right side of an access is a name or the call of a
  name.

  Key definitions include:
    * `NodeRules.fresh`
    * `NodeRules.parsed`

  Key theorems include:
    * `Derives.parsed`
    * `DerivesProgram.parsed`
    * `DerivesProgram.fresh`
    * `isFresh_of_parseExpression`
-/

namespace SourceCheck

open SourceCheck.Parser
open SourceCheck.ParserState

------------------------------------------------------------
-- Rules
------------------------------------------------------------

/- A name in the form itself refers to nothing yet. -/
def ExprForm.IsUnbound : ExprForm → Prop
  | .reference _ target => target = .unknown
  | .invocation _ _ target => target = .unknown
  | _ => True

/- No side of the form is left out. -/
def TypeForm.IsWhole : TypeForm → Prop
  | .union left right =>
      left.isAbsent = false ∧ right.isAbsent = false
  | .intersection left right =>
      left.isAbsent = false ∧ right.isAbsent = false
  | _ => True

/- No slot is filled. -/
def NodeRules.fresh : NodeRules where
  ofExpr e := e.type = none ∧ e.form.IsUnbound
  ofMember e := e.type = none ∧ e.form.IsUnbound
  ofTypeExpr t := t.type = none ∧ t.form.IsWhole
  ofParameter _ := True
  ofVariable _ := True
  ofFunction _ := True

/- No slot of the expression is filled. -/
def Expr.IsFresh (e : Expr) : Prop :=
  e.Obeys .fresh

/- No slot of the written type is filled. -/
def TypeExpr.IsFresh (t : TypeExpr) : Prop :=
  t.Obeys .fresh

/-
  No slot is filled, and the right sides of accesses are
  names or calls of names.
-/
def NodeRules.parsed : NodeRules :=
  { NodeRules.fresh with
    ofMember := fun e =>
      (e.type = none ∧ e.form.IsUnbound) ∧
        e.isReferenceOrInvocation }

theorem imply_fresh : NodeRules.parsed.Imply .fresh where
  ofExpr _ := id
  ofMember _ := And.left
  ofTypeExpr _ := id
  ofParameter _ := id
  ofVariable _ := id
  ofFunction _ := id

variable {s t u : ParserState}

------------------------------------------------------------
-- Written types
------------------------------------------------------------

/- No slot of the type is filled, and it is there. -/
def TypeExpr.IsParsedType (x : TypeExpr) : Prop :=
  x.Obeys .parsed ∧ x.isAbsent = false

/- The type of a phrase, if so is what stands before it. -/
def TypePhrase.Parsed : TypePhrase → TypeExpr → Prop
  | .operand _, x => x.IsParsedType
  | .extensions _ _ left, x =>
      left.IsParsedType → x.IsParsedType
  | .behind _ _ _, x => x.Obeys .parsed

theorem isParsedType_combine
    (join : TypeJoin)
    {x y : TypeExpr}
    (hLeft : x.IsParsedType)
    (hRight : y.IsParsedType) :
    (join.combine x y).IsParsedType := by
  cases join with
  | union =>
      exact ⟨⟨⟨rfl, hLeft.2, hRight.2⟩, hLeft.1, hRight.1⟩,
        rfl⟩
  | intersection =>
      exact ⟨⟨⟨rfl, hLeft.2, hRight.2⟩, hLeft.1, hRight.1⟩,
        rfl⟩

theorem DerivesType.parsed
    {phrase : TypePhrase}
    {x : TypeExpr}
    (hDerives : DerivesType phrase s x t) :
    phrase.Parsed x := by
  induction hDerives with
  | name _ => exact ⟨⟨⟨rfl, trivial⟩, trivial⟩, rfl⟩
  | joined _ _ ihFirst ihMore => exact ihMore ihFirst
  | stop _ => exact id
  | more _ _ _ ihRight ihMore =>
      exact fun hLeft =>
        ihMore (isParsedType_combine _ hLeft ihRight)
  | present _ _ ih => exact ih.1
  | absent _ => exact ⟨⟨rfl, trivial⟩, trivial⟩

------------------------------------------------------------
-- Phrases
------------------------------------------------------------

/- No slot of the item is filled. -/
def Item.Parsed : (i : Item) → i.Result → Prop
  | .argument, x => x.value.Obeys .parsed
  | .parameter, p =>
      p.typeExpr.Obeys .parsed ∧ optionObeys .parsed p.fallback
  | .lambdaParameter, p =>
      p.typeExpr.Obeys .parsed ∧ optionObeys .parsed p.fallback
  | .entry, _ => True

/- No slot of the items is filled. -/
def Item.AllParsed : (i : Item) → List i.Result → Prop
  | .argument, xs => argumentsObey .parsed xs
  | .parameter, ps => parametersObey .parsed ps
  | .lambdaParameter, ps => parametersObey .parsed ps
  | .entry, _ => True

/- The tree of a phrase, if so is what stands before it. -/
def Phrase.Parsed : (phrase : Phrase) → phrase.Result → Prop
  | .expression _, e => e.Obeys .parsed
  | .extensions _ left, e => left.Obeys .parsed → e.Obeys .parsed
  | .start _ _, e => e.Obeys .parsed
  | .extension _ left _ _, e => left.Obeys .parsed → e.Obeys .parsed
  | .behind _, o => optionObeys .parsed o
  | .item i, x => i.Parsed x
  | .items i, xs => i.AllParsed xs
  | .moreItems i, xs => i.AllParsed xs
  | .signature, r =>
      parametersObey .parsed r.1 ∧ r.2.Obeys .parsed
  | .body, e => e.Obeys .parsed
  | .namedBody, o => optionObeys .parsed o
  | .parts, xs => exprsObey .parsed (xs.map (·.expression))
  | .block _, e => e.Obeys .parsed
  | .statements, xs => statementsObey .parsed xs
  | .statement, x => x.Obeys .parsed
  | .variableDecl _, v => v.Obeys .parsed
  | .functionDecl, f => f.Obeys .parsed

/- A new node is as it is read if so is what it is made of. -/
theorem parsed_new
    {form : ExprForm}
    {span : Span}
    (hUnbound : form.IsUnbound)
    (hForm : form.Obeys .parsed) :
    (Expr.new form span).Obeys .parsed :=
  ⟨⟨rfl, hUnbound⟩, hForm⟩

theorem parsed_consMerged
    {e : Expr}
    {es : List Expr}
    (hFirst : e.Obeys .parsed)
    (hOthers : exprsObey .parsed es) :
    exprsObey .parsed (consMerged e es) := by
  unfold consMerged
  split
  · exact ⟨parsed_new trivial trivial, hOthers.2⟩
  · exact ⟨hFirst, hOthers⟩

theorem parsed_mergeTexts
    {es : List Expr}
    (hExprs : exprsObey .parsed es) :
    exprsObey .parsed (mergeTexts es) := by
  induction es with
  | nil => exact hExprs
  | cons e es ih =>
      rw [mergeTexts_cons]
      exact parsed_consMerged hExprs.1 (ih hExprs.2)

theorem parsed_string
    {parts : List StringPart}
    (hParts : exprsObey .parsed (parts.map (·.expression)))
    (span : Span) :
    (Expr.new (stringForm parts) span).Obeys .parsed := by
  unfold stringForm
  split
  · exact parsed_new trivial (parsed_mergeTexts hParts)
  · exact parsed_new trivial trivial

theorem parsed_int
    {text : String}
    {form : ExprForm}
    (hForm : intForm? text = some form)
    (span : Span) :
    (Expr.new form span).Obeys .parsed := by
  rcases exists_of_intForm? hForm with ⟨n, rfl⟩ | ⟨n, rfl⟩
  · exact parsed_new trivial trivial
  · exact parsed_new trivial trivial

theorem Item.allParsed_nil (i : Item) : i.AllParsed [] := by
  cases i with
  | _ => trivial

theorem Item.allParsed_cons
    {i : Item}
    {x : i.Result}
    {xs : List i.Result}
    (hFirst : i.Parsed x)
    (hOthers : i.AllParsed xs) :
    i.AllParsed (x :: xs) := by
  cases i with
  | argument =>
      rcases x with ⟨name, value, span⟩
      exact ⟨hFirst, hOthers⟩
  | parameter =>
      rcases x with ⟨name, type, fallback, id, span⟩
      exact ⟨⟨trivial, hFirst⟩, hOthers⟩
  | lambdaParameter =>
      rcases x with ⟨name, type, fallback, id, span⟩
      exact ⟨⟨trivial, hFirst⟩, hOthers⟩
  | entry => trivial

/- The right side of an access is asked for one thing more. -/
theorem aside_of_parsed
    {e : Expr}
    (hParsed : e.Obeys .parsed)
    (hIs : e.isReferenceOrInvocation) :
    e.ObeysAside .parsed := by
  rcases e with ⟨form, span, type⟩
  exact ⟨⟨hParsed.1, hIs⟩, hParsed.2⟩

/- What is read has no slots that are filled. -/
theorem Derives.parsed
    {phrase : Phrase}
    {r : phrase.Result}
    (hDerives : Derives phrase s r t) :
    phrase.Parsed r := by
  induction hDerives with
  | expression _ _ _ ihFirst ihMore => exact ihMore ihFirst
  | stop _ => exact id
  | more _ _ _ _ ihExtension ihMore =>
      exact fun hLeft => ihMore (ihExtension hLeft)
  | int hForm => exact parsed_int hForm _
  | boolean => exact parsed_new trivial trivial
  | string _ _ ih => exact parsed_string ih _
  | reference _ => exact parsed_new rfl trivial
  | invocation _ _ _ ih => exact parsed_new rfl ih
  | unary _ ih => exact parsed_new trivial ih
  | grouping _ _ ih => exact parsed_new trivial ih
  | startBlock _ ih => exact ih
  | conditional _ _ _ _ _ ihCondition ihThen ihElse =>
      exact parsed_new trivial ⟨ihCondition, ihThen, ihElse⟩
  | functionLiteral _ _ _ ihSignature ihBody =>
      exact parsed_new trivial
        ⟨ihSignature.1, ihSignature.2, ihBody⟩
  | lambda _ _ _ ihItems ihBody =>
      exact parsed_new trivial ⟨ihItems, ihBody⟩
  | retValue _ ih => exact parsed_new trivial ih
  | retNothing _ => exact parsed_new trivial trivial
  | binary _ _ ih =>
      exact fun hLeft => parsed_new trivial ⟨hLeft, ih⟩
  | assignment _ _ ih =>
      exact fun hLeft => parsed_new trivial ⟨hLeft, ih⟩
  | member _ _ hIs ih =>
      exact fun hLeft =>
        parsed_new trivial ⟨hLeft, aside_of_parsed ih hIs⟩
  | call _ _ ih =>
      exact fun hLeft => parsed_new trivial ⟨hLeft, ih⟩
  | present _ _ ih => exact ih
  | absent _ => trivial
  | named _ _ ih => exact ih
  | positional _ _ ih => exact ih
  | parameter _ _ hType _ _ _ ih => exact ⟨hType.parsed.1, ih⟩
  | lambdaParameter _ hType _ _ =>
      exact ⟨hType.parsed, trivial⟩
  | entry _ _ => trivial
  | renamedEntry _ _ _ => trivial
  | noItems _ => exact Item.allParsed_nil _
  | someItems _ _ _ ihFirst ihMore =>
      exact Item.allParsed_cons ihFirst ihMore
  | lastItem _ => exact Item.allParsed_nil _
  | trailingComma _ _ => exact Item.allParsed_nil _
  | nextItem _ _ _ _ ihFirst ihMore =>
      exact Item.allParsed_cons ihFirst ihMore
  | signature _ _ _ hType ih => exact ⟨ih, hType.parsed⟩
  | bodyValue _ _ ih => exact ih
  | bodyBlock _ _ ih => exact ih
  | namedValue _ _ _ ih => exact ih
  | namedBlock _ _ ih => exact ih
  | namedNone _ => trivial
  | namedNothing _ => trivial
  | noParts _ => trivial
  | textPart _ _ ih =>
      exact ⟨parsed_new trivial trivial, ih⟩
  | escapePart _ _ _ ih =>
      exact ⟨parsed_new trivial trivial, ih⟩
  | embeddedPart _ _ _ _ ihExpr ihMore =>
      exact ⟨ihExpr, ihMore⟩
  | block _ _ ih => exact parsed_new trivial ih
  | noStatements _ => trivial
  | someStatements _ _ _ _ ihFirst ihMore =>
      exact ⟨ihFirst, ihMore⟩
  | variableStatement _ _ ih => exact ih
  | functionStatement _ _ ih => exact ih
  | endedStatement _ _ _ _ _ ih => exact ih
  | openStatement _ _ _ _ _ _ ih => exact ih
  | variableDecl _ _ hType _ _ _ _ ih =>
      exact ⟨trivial, hType.parsed, ih⟩
  | functionDecl _ _ _ _ _ _ ihSignature ihBody =>
      exact ⟨trivial, ihSignature.1, ihSignature.2, ihBody⟩

------------------------------------------------------------
-- Sources
------------------------------------------------------------

theorem DerivesDeclarations.parsed
    {ds : List Declaration}
    (hDerives : DerivesDeclarations s ds t) :
    ∀ d ∈ ds, d.Obeys .parsed := by
  induction hDerives with
  | stop _ => exact nofun
  | more hFirst _ ih =>
      refine List.forall_mem_cons.2 ⟨?_, ih⟩
      cases hFirst with
      | function hFunction => exact hFunction.parsed
      | property _ hVariable => exact hVariable.parsed

theorem DerivesProgram.parsed
    {p : Program}
    (hDerives : DerivesProgram s p) :
    p.Obeys .parsed := by
  cases hDerives with
  | intro _ hDeclarations => exact hDeclarations.parsed

/- No slot of an accepted program is filled. -/
theorem DerivesProgram.fresh
    {p : Program}
    (hDerives : DerivesProgram s p) :
    p.Obeys .fresh :=
  hDerives.parsed.imp imply_fresh

/- Imports are not marked at first. -/
theorem DerivesImports.isResolved_eq
    {is : List Import}
    (hDerives : DerivesImports s is t) :
    ∀ i ∈ is, i.isResolved = false := by
  induction hDerives with
  | stop _ => exact nofun
  | more hImport _ ih =>
      refine List.forall_mem_cons.2 ⟨?_, ih⟩
      cases hImport with
      | intro _ _ _ _ _ _ _ => rfl

/- Imports of an accepted program are not marked. -/
theorem DerivesProgram.isResolved_eq
    {p : Program}
    (hDerives : DerivesProgram s p) :
    ∀ i ∈ p.imports, i.isResolved = false := by
  cases hDerives with
  | intro hImports _ => exact hImports.isResolved_eq

/- No slot of an expression that was read is filled. -/
theorem isFresh_of_parseExpression
    {source file : String}
    {e : Expr}
    (hParse : parseExpression source file = .ok e) :
    e.IsFresh := by
  rcases derives_of_parseExpression hParse with
    ⟨t, hDerives, -⟩
  exact Expr.Obeys.imp imply_fresh e hDerives.parsed

end SourceCheck
