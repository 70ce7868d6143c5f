import SourceCheck.Grammar.Program
import SourceCheck.Proofs.Parsing.Comparison
import SourceCheck.Proofs.Parsing.TypeLayers
import SourceCheck.Proofs.Syntax.Merging

/-
  The grammar agrees with itself.

  Two runs of any parser of the grammar that start in step
  end alike: no parser looks at a place.  One statement
  stands here for each parser, in the order of the grammar;
  those for nested expressions and blocks are assumed first,
  and the knot is tied at the end.

  Key definitions include:
    * `Comparison.NestedAgree`

  Key theorems include:
    * `Comparison.nestedAgree_nestedWithin`
    * `Comparison.agree_nextImport`
    * `Comparison.agree_nextDeclaration`
-/

namespace SourceCheck

namespace Comparison

open SourceCheck.Parser
open SourceCheck.Grammar

variable {C : Comparison}
variable {scopes : List ScopeId}

------------------------------------------------------------
-- Written types
------------------------------------------------------------

theorem agree_namedType :
    C.Agree scopes C.alignment.TypeExprs
      namedType namedType := by
  intro s t hStep
  apply hStep.checkName
  · intro hName
    refine (hStep.consume (ne_eof_of_isName hName)).bind
      fun hToken => ?_
    refine agree_pure ?_
    rw [hToken.name_eq]
    exact .new .named hToken.span
  · intro _
    exact agree_unexpected _ s t hStep

theorem agree_joinNext
    (join : TypeJoin)
    {operand : Parser TypeExpr}
    (hOperand :
      C.Agree scopes C.alignment.TypeExprs operand operand)
    {a b : TypeExpr}
    (hLeft : C.alignment.TypeExprs a b) :
    C.Agree scopes (Option.Rel C.alignment.TypeExprs)
      (joinNext join operand a)
      (joinNext join operand b) := by
  have hToken : join.token ≠ .eof := by
    cases join <;> decide
  refine (agree_accept hToken).bind ?_
  rintro isThere _ rfl
  refine agree_ite ?_ (agree_pure .none)
  refine hOperand.bind fun hRight => agree_pure (.some ?_)
  have hSpan := hLeft.span.between hRight.span
  cases join with
  | union => exact .new (.union hLeft hRight) hSpan
  | intersection =>
      exact .new (.intersection hLeft hRight) hSpan

theorem agree_joinedAbove
    (power : Power)
    (join : TypeJoin)
    {operand : Parser TypeExpr}
    (hOperand :
      C.Agree scopes C.alignment.TypeExprs operand operand) :
    C.Agree scopes C.alignment.TypeExprs
      (joinedAbove power join operand)
      (joinedAbove power join operand) := by
  refine agree_ite ?_ hOperand
  refine hOperand.bind fun hFirst => ?_
  exact agree_loop (agree_joinNext join hOperand) hFirst

theorem agree_typeExpr (power : Power) :
    C.Agree scopes C.alignment.TypeExprs
      (typeExpr power) (typeExpr power) := by
  rw [typeExpr_eq_layeredType]
  exact agree_joinedAbove power .union
    (agree_joinedAbove power .intersection agree_namedType)

theorem agree_optionalType
    {separator : TokenKind}
    (hSeparator : separator ≠ .eof)
    {a b : Span}
    (hSpan : C.alignment.Spans a b) :
    C.Agree scopes C.alignment.TypeExprs
      (optionalType separator a)
      (optionalType separator b) := by
  refine (agree_accept hSeparator).bind ?_
  rintro isThere _ rfl
  exact agree_ite (agree_typeExpr .loosest)
    (agree_pure (.new .absent hSpan))

------------------------------------------------------------
-- Nested expressions and blocks
------------------------------------------------------------

/-
  The parsers of nested expressions and blocks agree, and an
  expression behind a member operator is a name or a call.
-/
structure NestedAgree
    (C : Comparison)
    (nested nested' : Nested) :
    Prop where
  expression :
    ∀ scopes power,
      C.Agree scopes (Option.Rel C.alignment.Exprs)
        (nested.expression power)
        (nested'.expression power)
  block :
    ∀ scopes {a b},
      C.alignment.Tokens a b →
        C.Agree scopes C.alignment.Exprs
          (nested.block a) (nested'.block b)
  member :
    ∀ {s e t},
      s.token.kind.isName →
        (nested.expression .member).outcome s =
            (.ok (some e), t) →
          e.isReferenceOrInvocation

variable {nested nested' : Nested}

theorem agree_missingExpression
    {α β : Type}
    {R : α → β → Prop} :
    C.Agree scopes R missingExpression missingExpression := by
  refine agree_current.bind fun {a b} hTokens => ?_
  rw [← hTokens.kind, ← hTokens.value]
  exact agree_ite (agree_fail rfl _ _) (agree_fail rfl _ _)

theorem agree_required
    (hNested : C.NestedAgree nested nested')
    (power : Power) :
    C.Agree scopes C.alignment.Exprs
      (nested.required power) (nested'.required power) := by
  refine (hNested.expression scopes power).bind
    fun hResult => ?_
  cases hResult with
  | none => exact agree_missingExpression
  | some hExprs => exact agree_pure hExprs

------------------------------------------------------------
-- Arguments and parameters
------------------------------------------------------------

/- A name that was taken may be given back. -/
theorem InStep.unconsume
    {s t : ParserState}
    (hStep : C.InStep scopes s t) :
    Parser.unconsume.outcome s.next = (.ok ⟨⟩, s) ∧
      Parser.unconsume.outcome t.next = (.ok ⟨⟩, t) := by
  have hLeft := TokenStream.unconsume_consume hStep.ahead_ne
  have hRight : t.stream.ahead ≠ [] := by
    intro hNil
    have hAhead := hStep.ahead
    rw [hNil, List.forall₂_nil_right_iff] at hAhead
    exact hStep.ahead_ne hAhead
  have hRight := TokenStream.unconsume_consume hRight
  simp only [Parser.unconsume, outcome_move,
    ParserState.next, hLeft, hRight, and_self]

theorem agree_argumentName :
    C.Agree scopes (Option.Rel C.alignment.Tokens)
      argumentName argumentName := by
  intro s t hStep
  apply hStep.checkName
  · intro hName
    have hNext := hStep.next (ne_eof_of_isName hName)
    rw [outcome_bind, outcome_bind, outcome_consume,
      outcome_consume]
    dsimp only
    apply hNext.accept (by decide)
    · intro _ hBehind
      exact .ok (.some hStep.token) hBehind
    · intro _
      rw [outcome_bind, outcome_bind, hStep.unconsume.1,
        hStep.unconsume.2]
      exact .ok .none hStep
  · intro _
    exact agree_pure .none s t hStep

theorem agree_argument
    (hNested : C.NestedAgree nested nested') :
    C.Agree scopes C.alignment.Arguments
      (argument nested) (argument nested') := by
  refine agree_argumentName.bind fun hName => ?_
  refine (agree_required hNested .loosest).bind
    fun hValue => agree_pure ?_
  cases hName with
  | none => exact .intro hValue (hValue.span.between hValue.span)
  | some hToken =>
      simp only [Option.map_some, hToken.name_eq]
      exact .intro hValue (hToken.span.between hValue.span)

theorem agree_arguments
    (hNested : C.NestedAgree nested nested') :
    C.Agree scopes
      (fun x y =>
        List.Forall₂ C.alignment.Arguments x.1 y.1 ∧
          C.alignment.Spans x.2 y.2)
      (arguments nested) (arguments nested') := by
  refine (agree_separated (by decide)
    (agree_argument hNested)).bind fun hItems => ?_
  refine (agree_expect (by decide) _).bind fun hStop => ?_
  exact agree_pure ⟨hItems, hStop.span⟩

theorem agree_assigned
    (hNested : C.NestedAgree nested nested') :
    C.Agree scopes (Option.Rel C.alignment.Exprs)
      (assigned nested) (assigned nested') := by
  refine (agree_accept (by decide)).bind ?_
  rintro isThere _ rfl
  refine agree_ite ?_ (agree_pure .none)
  exact (agree_required hNested .loosest).bind
    fun hValue => agree_pure (.some hValue)

theorem agree_parameter
    {scope : ScopeId}
    (hNested : C.NestedAgree nested nested') :
    C.Agree (scope :: scopes) C.alignment.Parameters
      (parameter nested) (parameter nested') := by
  refine agree_expectName.bind fun hName => ?_
  refine (agree_expect (by decide) _).bind fun _ => ?_
  refine (agree_typeExpr .loosest).bind fun hType => ?_
  refine (agree_assigned hNested).bind fun hFallback => ?_
  have hStop := Alignment.spans_getD hFallback hType.span
  have hSpan := hName.span.between hStop
  refine (agree_declare hName .argument
    (Or.inr hSpan.stop) false).bind ?_
  rintro definition _ rfl
  rw [hName.name_eq]
  exact agree_pure (.intro hType hFallback hSpan)

theorem agree_lambdaParameter {scope : ScopeId} :
    C.Agree (scope :: scopes) C.alignment.Parameters
      lambdaParameter lambdaParameter := by
  refine agree_expectName.bind fun {a b} hName => ?_
  have hRest
      {x y : TypeExpr}
      (hType : C.alignment.TypeExprs x y) :
      C.Agree (scope :: scopes) C.alignment.Parameters
        (do
          let span := a.span.between x.span
          let definition ←
            declare a .argument span a.span.start.offset
              false
          return ⟨a.name, x, none, definition, span⟩)
        (do
          let span := b.span.between y.span
          let definition ←
            declare b .argument span b.span.start.offset
              false
          return ⟨b.name, y, none, definition, span⟩) := by
    refine (agree_declare hName .argument
      (Or.inl hName.span.start) false).bind ?_
    rintro definition _ rfl
    rw [hName.name_eq]
    exact agree_pure
      (.intro hType .none (hName.span.between hType.span))
  refine (agree_accept (by decide)).bind ?_
  rintro isThere _ rfl
  refine agree_ite ?_ ?_
  · exact (agree_typeExpr .logicalOr).bind hRest
  · exact (agree_pure (.new .absent hName.span)).bind hRest

theorem agree_signature
    {scope : ScopeId}
    (hNested : C.NestedAgree nested nested') :
    C.Agree (scope :: scopes)
      (fun x y =>
        List.Forall₂ C.alignment.Parameters x.1 y.1 ∧
          C.alignment.TypeExprs x.2 y.2)
      (signature nested) (signature nested') := by
  refine (agree_expect (by decide) _).bind fun _ => ?_
  refine (agree_separated (by decide)
    (agree_parameter hNested)).bind fun hItems => ?_
  refine (agree_expect (by decide) _).bind fun hStop => ?_
  refine (agree_optionalType (by decide) hStop.span).bind
    fun hType => ?_
  exact agree_pure ⟨hItems, hType⟩

------------------------------------------------------------
-- Literals
------------------------------------------------------------

theorem agree_intLiteral
    {a b : Token}
    (hToken : C.alignment.Tokens a b) :
    C.Agree scopes C.alignment.Exprs
      (intLiteral a) (intLiteral b) := by
  unfold intLiteral
  rw [← hToken.value]
  cases hForm : intForm? a.value with
  | none => exact agree_fail rfl _ _
  | some form =>
      refine agree_pure (.new ?_ hToken.span)
      unfold intForm? at hForm
      dsimp only at hForm
      split at hForm
      · rcases Option.map_eq_some_iff.1 hForm with
          ⟨value, -, rfl⟩
        exact .long
      · rcases Option.map_eq_some_iff.1 hForm with
          ⟨value, -, rfl⟩
        exact .int

theorem agree_booleanLiteral
    {a b : Token}
    (hToken : C.alignment.Tokens a b) :
    C.Agree scopes C.alignment.Exprs
      (booleanLiteral a) (booleanLiteral b) := by
  unfold booleanLiteral
  rw [hToken.kind]
  exact agree_pure (.new .boolean hToken.span)

/- Two parts of strings are aligned. -/
inductive PartsAligned (A : Alignment) :
    StringPart → StringPart → Prop where
  | text {value s t}
      (hSpan : A.Spans s t) :
      PartsAligned A (.text value s) (.text value t)
  | embedded {e f}
      (hExpr : A.Exprs e f) :
      PartsAligned A (.embedded e) (.embedded f)

theorem agree_stringPart
    (hNested : C.NestedAgree nested nested')
    {a b : Token}
    (hToken : C.alignment.Tokens a b) :
    C.Agree scopes (PartsAligned C.alignment)
      (stringPart nested a) (stringPart nested' b) := by
  unfold stringPart
  rw [← hToken.kind, ← hToken.value]
  split
  · exact agree_pure (.text hToken.span)
  · cases unescape? a.value with
    | none => exact agree_fail rfl _ _
    | some c => exact agree_pure (.text hToken.span)
  · refine (agree_required hNested .loosest).bind
      fun hExpr => ?_
    refine (agree_expect (by decide) _).bind fun _ => ?_
    exact agree_pure (.embedded hExpr)
  · exact agree_fail rfl _ _
  · exact agree_fail rfl _ _

theorem agree_nextStringPart
    (hNested : C.NestedAgree nested nested') :
    C.Agree scopes (Option.Rel (PartsAligned C.alignment))
      (nextStringPart nested) (nextStringPart nested') := by
  intro s t hStep
  apply hStep.unlessEnd
  · intro _ hMore
    refine (hStep.consume hMore).bind fun hToken => ?_
    exact (agree_stringPart hNested hToken).bind
      fun hPart => agree_pure (.some hPart)
  · exact agree_pure .none s t hStep

/- Texts in front of aligned parts are joined alike. -/
theorem forall₂_consMerged
    {A : Alignment}
    {a b : Expr}
    {as bs : List Expr}
    (hFirst : A.Exprs a b)
    (hOthers : List.Forall₂ A.Exprs as bs) :
    List.Forall₂ A.Exprs
      (consMerged a as) (consMerged b bs) := by
  have hBoth :
      List.Forall₂ A.Exprs (a :: as) (b :: bs) :=
    .cons hFirst hOthers
  cases hFirst with
  | intro hForm hSpan =>
      cases hForm with
      | string =>
          cases hOthers with
          | nil => exact hBoth
          | cons hSecond hRest =>
              cases hSecond with
              | intro hForm hSecondSpan =>
                  cases hForm with
                  | string =>
                      exact .cons
                        (.new .string
                          (hSpan.between hSecondSpan))
                        hRest
                  | _ => exact hBoth
      | _ => exact hBoth

theorem forall₂_mergeTexts
    {A : Alignment}
    {as bs : List Expr}
    (hParts : List.Forall₂ A.Exprs as bs) :
    List.Forall₂ A.Exprs
      (mergeTexts as) (mergeTexts bs) := by
  induction hParts with
  | nil => exact .nil
  | cons hFirst _ ih =>
      rw [mergeTexts_cons, mergeTexts_cons]
      exact forall₂_consMerged hFirst ih

/- Aligned parts make aligned strings. -/
theorem forms_stringForm
    {A : Alignment}
    {ps qs : List StringPart}
    (hParts : List.Forall₂ (PartsAligned A) ps qs) :
    A.Forms (stringForm ps) (stringForm qs) := by
  have hPart
      {p q : StringPart}
      (hAligned : PartsAligned A p q) :
      p.isEmbedded = q.isEmbedded ∧
        p.ownText = q.ownText := by
    cases hAligned with
    | text _ => exact ⟨rfl, rfl⟩
    | embedded _ => exact ⟨rfl, rfl⟩
  have hBoth :
      ps.any (·.isEmbedded) = qs.any (·.isEmbedded) ∧
        ps.map (·.ownText) = qs.map (·.ownText) := by
    induction hParts with
    | nil => exact ⟨rfl, rfl⟩
    | cons hFirst _ ih =>
        rw [List.any_cons, List.any_cons, List.map_cons,
          List.map_cons, (hPart hFirst).1,
          (hPart hFirst).2, ih.1, ih.2]
        exact ⟨rfl, rfl⟩
  have hExprs :
      List.Forall₂ A.Exprs
        (ps.map (·.expression)) (qs.map (·.expression)) := by
    rw [List.forall₂_map_left_iff, List.forall₂_map_right_iff]
    refine hParts.imp fun p q hPart => ?_
    cases hPart with
    | text hSpan => exact .new .string hSpan
    | embedded hExpr => exact hExpr
  unfold stringForm
  rw [hBoth.1, hBoth.2]
  split
  · exact .template (forall₂_mergeTexts hExprs)
  · exact .string

theorem agree_stringLiteral
    (hNested : C.NestedAgree nested nested')
    {a b : Token}
    (hToken : C.alignment.Tokens a b) :
    C.Agree scopes C.alignment.Exprs
      (stringLiteral nested a) (stringLiteral nested' b) := by
  refine (agree_collect
    (agree_nextStringPart hNested)).bind fun hParts => ?_
  refine (agree_expect (by decide) _).bind fun hStop => ?_
  exact agree_pure
    (.new (forms_stringForm hParts)
      (hToken.span.between hStop.span))

------------------------------------------------------------
-- Compound expressions
------------------------------------------------------------

theorem agree_reference
    (hNested : C.NestedAgree nested nested')
    {a b : Token}
    (hToken : C.alignment.Tokens a b) :
    C.Agree scopes C.alignment.Exprs
      (reference nested a) (reference nested' b) := by
  refine (agree_accept (by decide)).bind ?_
  rintro isThere _ rfl
  rw [hToken.name_eq]
  refine agree_ite ?_
    (agree_pure (.new .reference hToken.span))
  refine (agree_arguments hNested).bind fun hItems => ?_
  exact agree_pure
    (.new (.invocation hItems.1)
      (hToken.span.between hItems.2))

theorem agree_unary
    (hNested : C.NestedAgree nested nested')
    {a b : Token}
    (hToken : C.alignment.Tokens a b) :
    C.Agree scopes C.alignment.Exprs
      (unary nested a) (unary nested' b) := by
  refine (agree_required hNested .unary).bind
    fun hOperand => ?_
  rw [hToken.kind]
  exact agree_pure
    (.new (.unary hOperand)
      (hToken.span.between hOperand.span))

theorem agree_grouping
    (hNested : C.NestedAgree nested nested')
    {a b : Token}
    (hToken : C.alignment.Tokens a b) :
    C.Agree scopes C.alignment.Exprs
      (grouping nested a) (grouping nested' b) := by
  refine (agree_required hNested .loosest).bind
    fun hInner => ?_
  refine (agree_expect (by decide) _).bind fun hStop => ?_
  exact agree_pure
    (.new (.parenthesized hInner)
      (hToken.span.between hStop.span))

theorem agree_elseBranch
    (hNested : C.NestedAgree nested nested') :
    C.Agree scopes (Option.Rel C.alignment.Exprs)
      (elseBranch nested) (elseBranch nested') := by
  refine (agree_accept (by decide)).bind ?_
  rintro isThere _ rfl
  refine agree_ite ?_ (agree_pure .none)
  exact (agree_required hNested .loosest).bind
    fun hValue => agree_pure (.some hValue)

theorem agree_conditional
    (hNested : C.NestedAgree nested nested')
    {a b : Token}
    (hToken : C.alignment.Tokens a b) :
    C.Agree scopes C.alignment.Exprs
      (conditional nested a) (conditional nested' b) := by
  refine (agree_expect (by decide) _).bind fun _ => ?_
  refine (agree_required hNested .loosest).bind
    fun hCondition => ?_
  refine (agree_expect (by decide) _).bind fun _ => ?_
  refine (agree_required hNested .loosest).bind
    fun hThen => ?_
  refine (agree_elseBranch hNested).bind fun hElse => ?_
  have hStop := Alignment.spans_getD hElse hThen.span
  exact agree_pure
    (.new (.conditional hCondition hThen hElse)
      (hToken.span.between hStop))

theorem agree_functionBody
    (hNested : C.NestedAgree nested nested') :
    C.Agree scopes (Option.Rel C.alignment.Exprs)
      (functionBody nested) (functionBody nested') := by
  refine (agree_assigned hNested).bind fun hValue => ?_
  cases hValue with
  | some hExpr => exact agree_pure (.some hExpr)
  | none =>
      intro s t hStep
      apply hStep.check
      · intro hOpen
        refine (hStep.consume (by rw [hOpen]; decide)).bind
          fun hStart => ?_
        exact (hNested.block _ hStart).bind
          fun hBlock => agree_pure (.some hBlock)
      · intro _
        exact agree_pure .none s t hStep

theorem agree_functionLiteral
    (hNested : C.NestedAgree nested nested')
    {a b : Token}
    (hToken : C.alignment.Tokens a b) :
    C.Agree scopes C.alignment.Exprs
      (functionLiteral nested a)
      (functionLiteral nested' b) := by
  intro s t hStep
  apply hStep.checkName
  · intro _
    exact agree_position.bind
      (fun _ => agree_fail rfl _ _) s t hStep
  · intro _
    refine agree_inNewScope (fun scope => ?_) s t hStep
    refine (agree_signature hNested).bind
      fun hSignature => ?_
    refine (agree_functionBody hNested).bind fun hBody => ?_
    cases hBody with
    | none =>
        exact agree_position.bind fun _ =>
          agree_fail rfl _ _
    | some hBody =>
        exact agree_pure
          (.new
            (.function hSignature.1 hSignature.2 hBody)
            (hToken.span.between hBody.span))

theorem agree_lambda
    (hNested : C.NestedAgree nested nested')
    {a b : Token}
    (hToken : C.alignment.Tokens a b) :
    C.Agree scopes C.alignment.Exprs
      (lambda nested a) (lambda nested' b) := by
  refine agree_inNewScope fun scope => ?_
  refine (agree_separated (by decide)
    agree_lambdaParameter).bind fun hItems => ?_
  refine (agree_expect (by decide) _).bind fun _ => ?_
  refine (agree_required hNested .loosest).bind
    fun hBody => ?_
  exact agree_pure
    (.new (.lambda hItems hBody)
      (hToken.span.between hBody.span))

theorem agree_ret
    (hNested : C.NestedAgree nested nested')
    {a b : Token}
    (hToken : C.alignment.Tokens a b) :
    C.Agree scopes C.alignment.Exprs
      (ret nested a) (ret nested' b) := by
  refine (hNested.expression _ .loosest).bind
    fun hValue => ?_
  have hStop := Alignment.spans_getD hValue hToken.span
  exact agree_pure
    (.new (.ret hValue) (hToken.span.between hStop))

------------------------------------------------------------
-- Extensions
------------------------------------------------------------

theorem agree_binary
    (hNested : C.NestedAgree nested nested')
    {e f : Expr}
    (hLeft : C.alignment.Exprs e f)
    {a b : Token}
    (hToken : C.alignment.Tokens a b)
    (power : Power) :
    C.Agree scopes C.alignment.Exprs
      (binary nested e a power)
      (binary nested' f b power) := by
  unfold binary
  rw [← hToken.kind, ← hToken.value]
  cases a.kind.binaryOperator? with
  | none => exact agree_fail rfl _ _
  | some o =>
      refine (agree_required hNested power).bind
        fun hRight => ?_
      exact agree_pure
        (.new (.binary hLeft hRight)
          (hLeft.span.between hRight.span))

theorem agree_assignment
    (hNested : C.NestedAgree nested nested')
    {e f : Expr}
    (hLeft : C.alignment.Exprs e f)
    {a b : Token}
    (hToken : C.alignment.Tokens a b)
    (power : Power) :
    C.Agree scopes C.alignment.Exprs
      (assignment nested e a power)
      (assignment nested' f b power) := by
  unfold assignment
  rw [← hToken.kind, ← hToken.value]
  cases a.kind.assignmentOperator? with
  | none => exact agree_fail rfl _ _
  | some o =>
      refine (agree_required hNested power.lower).bind
        fun hValue => ?_
      exact agree_pure
        (.new (.assignment hLeft hValue)
          (hLeft.span.between hValue.span))

/-
  Behind a member operator a name or a call is read, so that
  no other expression is refused there.
-/
theorem agree_memberAccess
    (hNested : C.NestedAgree nested nested')
    {e f : Expr}
    (hLeft : C.alignment.Exprs e f)
    {a b : Token}
    (hToken : C.alignment.Tokens a b) :
    C.Agree scopes C.alignment.Exprs
      (memberAccess nested e a .member)
      (memberAccess nested' f b .member) := by
  intro s t hStep
  apply hStep.checkName
  · intro hName
    have hMember {r u} := @hNested.member s r u hName
    unfold Nested.required
    rw [bind_assoc, bind_assoc, outcome_bind, outcome_bind]
    have hOutcomes :=
      hNested.expression scopes .member s t hStep
    generalize (nested.expression .member).outcome s = x
      at hOutcomes hMember
    generalize (nested'.expression .member).outcome t = y
      at hOutcomes
    cases hOutcomes with
    | error hProblem hSource hInner =>
        exact .error hProblem hSource hInner
    | ok hResults hInner =>
        cases hResults with
        | none =>
            exact agree_missingExpression.bind
              (R := fun _ _ => False) nofun _ _ hInner
        | some hRight =>
            have hIs := hMember rfl
            have hIsRight := hIs
            rw [hRight.isReferenceOrInvocation_eq]
              at hIsRight
            simp only [pure_bind, hIs, hIsRight, if_true,
              hToken.kind]
            exact agree_pure
              (.new (.access hLeft hRight)
                (hLeft.span.between hRight.span))
              _ _ hInner
  · intro _
    exact agree_unexpected _ s t hStep

theorem agree_call
    (hNested : C.NestedAgree nested nested')
    {e f : Expr}
    (hLeft : C.alignment.Exprs e f) :
    C.Agree scopes C.alignment.Exprs
      (call nested e) (call nested' f) := by
  refine (agree_arguments hNested).bind fun hItems => ?_
  exact agree_pure
    (.new (.call hLeft hItems.1)
      (hLeft.span.between hItems.2))

------------------------------------------------------------
-- Expressions
------------------------------------------------------------

theorem agree_starter
    (hNested : C.NestedAgree nested nested')
    (starter : Starter)
    {a b : Token}
    (hToken : C.alignment.Tokens a b) :
    C.Agree scopes C.alignment.Exprs
      (starter.parser nested a)
      (starter.parser nested' b) := by
  cases starter with
  | int => exact agree_intLiteral hToken
  | boolean => exact agree_booleanLiteral hToken
  | string => exact agree_stringLiteral hNested hToken
  | reference => exact agree_reference hNested hToken
  | unary => exact agree_unary hNested hToken
  | grouping => exact agree_grouping hNested hToken
  | block => exact hNested.block _ hToken
  | conditional => exact agree_conditional hNested hToken
  | function => exact agree_functionLiteral hNested hToken
  | lambda => exact agree_lambda hNested hToken
  | ret => exact agree_ret hNested hToken

/- Members are what binds most tightly. -/
theorem power_eq_of_member
    {kind : TokenKind}
    {power : Power}
    (hKind : kind.extender? = some (.member, power)) :
    power = .member := by
  cases kind <;> cases hKind <;> rfl

theorem agree_extender
    (hNested : C.NestedAgree nested nested')
    {extender : Extender}
    {power : Power}
    {e f : Expr}
    (hLeft : C.alignment.Exprs e f)
    {a b : Token}
    (hKind : a.kind.extender? = some (extender, power))
    (hToken : C.alignment.Tokens a b) :
    C.Agree scopes C.alignment.Exprs
      (extender.parser nested e a power)
      (extender.parser nested' f b power) := by
  cases extender with
  | binary => exact agree_binary hNested hLeft hToken power
  | assignment =>
      exact agree_assignment hNested hLeft hToken power
  | member =>
      rw [power_eq_of_member hKind]
      exact agree_memberAccess hNested hLeft hToken
  | call => exact agree_call hNested hLeft

theorem agree_extend
    (hNested : C.NestedAgree nested nested')
    (power : Power)
    {e f : Expr}
    (hLeft : C.alignment.Exprs e f) :
    C.Agree scopes (Option.Rel C.alignment.Exprs)
      (extend nested power e) (extend nested' power f) := by
  intro s t hStep
  unfold extend
  rw [outcome_bind, outcome_bind, outcome_current,
    outcome_current]
  dsimp only
  rw [← hStep.kind_eq]
  cases hKind : s.token.kind.extender? with
  | none => exact agree_pure .none s t hStep
  | some x =>
      rcases x with ⟨extender, operatorPower⟩
      dsimp only
      by_cases hTight : power < operatorPower
      · rw [if_pos hTight, if_pos hTight, outcome_bind,
          outcome_bind, outcome_consume, outcome_consume]
        have hNext := hStep.next (ne_eof_of_extender hKind)
        exact (agree_extender hNested hLeft hKind
          hStep.token).bind
            (fun hResult => agree_pure (.some hResult))
            _ _ hNext
      · rw [if_neg hTight, if_neg hTight]
        exact agree_pure .none s t hStep

theorem agree_expression
    (hNested : C.NestedAgree nested nested')
    (power : Power) :
    C.Agree scopes (Option.Rel C.alignment.Exprs)
      (expression nested power)
      (expression nested' power) := by
  intro s t hStep
  unfold expression
  rw [outcome_bind, outcome_bind, outcome_consume,
    outcome_consume]
  dsimp only
  rw [← hStep.kind_eq]
  cases hKind : s.token.kind.starter? with
  | none =>
      dsimp only
      rw [outcome_bind, outcome_bind, hStep.unconsume.1,
        hStep.unconsume.2]
      exact .ok .none hStep
  | some starter =>
      have hNext := hStep.next (ne_eof_of_starter hKind)
      refine (agree_starter hNested starter
        hStep.token).bind (fun hFirst => ?_) _ _ hNext
      refine (agree_loop (agree_extend hNested power)
        hFirst).bind fun hResult => ?_
      exact agree_pure (.some hResult)

------------------------------------------------------------
-- Declarations
------------------------------------------------------------

theorem agree_variableDecl
    {scope : ScopeId}
    (hNested : C.NestedAgree nested nested')
    (kind : DefinitionKind)
    {s t : ParserState}
    (hStep : C.InStep (scope :: scopes) s t)
    (hMore : s.token.kind ≠ .eof) :
    C.Outcomes (scope :: scopes) C.alignment.Variables
      ((variableDecl nested kind).outcome s)
      ((variableDecl nested' kind).outcome t) := by
  refine (hStep.consume hMore).bind fun hKeyword => ?_
  refine agree_expectName.bind fun hName => ?_
  refine (agree_optionalType (by decide) hName.span).bind
    fun hType => ?_
  refine (agree_assigned hNested).bind
    fun hInitializer => ?_
  refine (agree_expect (by decide) _).bind fun hStop => ?_
  have hSpan := hKeyword.span.between hStop.span
  dsimp only
  rw [hKeyword.kind]
  refine (agree_declare hName kind (Or.inr hSpan.stop)
    _).bind ?_
  rintro definition _ rfl
  rw [hName.name_eq]
  exact agree_pure (.intro hType hInitializer hSpan)

theorem agree_namedFunctionBody
    (hNested : C.NestedAgree nested nested') :
    C.Agree scopes (Option.Rel C.alignment.Exprs)
      (namedFunctionBody nested)
      (namedFunctionBody nested') := by
  refine (agree_assigned hNested).bind fun hValue => ?_
  cases hValue with
  | some hExpr =>
      exact (agree_expect (by decide) _).bind
        fun _ => agree_pure (.some hExpr)
  | none =>
      intro s t hStep
      apply hStep.check
      · intro hOpen
        refine (hStep.consume (by rw [hOpen]; decide)).bind
          fun hStart => ?_
        exact (hNested.block _ hStart).bind
          fun hBlock => agree_pure (.some hBlock)
      · intro _
        exact (agree_accept (by decide)).bind
          (fun _ => agree_pure .none) s t hStep

theorem agree_functionDecl
    {scope : ScopeId}
    (hNested : C.NestedAgree nested nested') :
    C.Agree (scope :: scopes) C.alignment.Functions
      (functionDecl nested) (functionDecl nested') := by
  refine (agree_expect (by decide) _).bind
    fun hKeyword => ?_
  refine agree_expectName.bind fun hName => ?_
  refine Agree.bind
    (R := fun x y =>
      List.Forall₂ C.alignment.Parameters x.1 y.1 ∧
        C.alignment.TypeExprs x.2.1 y.2.1 ∧
          Option.Rel C.alignment.Exprs x.2.2.1 y.2.2.1 ∧
            x.2.2.2 = y.2.2.2)
    (agree_inNewScope fun inner => ?_) ?_
  · refine (agree_signature hNested).bind
      fun hSignature => ?_
    refine (agree_namedFunctionBody hNested).bind
      fun hBody => ?_
    exact agree_pure
      ⟨hSignature.1, hSignature.2, hBody, rfl⟩
  · rintro ⟨ps, r, a, inner⟩ ⟨qs, r', b, _⟩
      ⟨hItems, hType, hBody, rfl⟩
    refine agree_previous.bind fun hStop => ?_
    have hSpan := hKeyword.span.between hStop.span
    refine (agree_declare hName .function
      (Or.inl hName.span.start) false).bind ?_
    rintro definition _ rfl
    rw [hName.name_eq]
    exact agree_pure (.intro hItems hType hBody hSpan)

------------------------------------------------------------
-- Statements
------------------------------------------------------------

theorem agree_expressionStatement
    (hNested : C.NestedAgree nested nested') :
    C.Agree scopes C.alignment.Statements
      (expressionStatement nested)
      (expressionStatement nested') := by
  refine (agree_required hNested .loosest).bind
    fun hExpr => ?_
  refine (agree_accept (by decide)).bind ?_
  rintro isThere _ rfl
  rw [hExpr.endsWithBlock_eq]
  refine agree_ite (agree_pure (.expression hExpr)) ?_
  refine agree_ite (agree_pure (.expression hExpr)) ?_
  refine (agree_check _).bind ?_
  rintro isEnd _ rfl
  exact agree_ite (agree_pure (.expression hExpr))
    (agree_unexpected _)

/- A look behind the current token leaves all in place. -/
theorem InStep.nextIsName
    {s t : ParserState}
    (hStep : C.InStep scopes s t)
    (hMore : s.token.kind ≠ .eof) :
    Parser.outcome nextIsName s =
        (.ok s.next.token.kind.isName, s) ∧
      Parser.outcome nextIsName t =
        (.ok s.next.token.kind.isName, t) := by
  have hKind := (hStep.next hMore).kind_eq
  unfold Grammar.nextIsName
  simp only [outcome_bind, outcome_consume,
    outcome_checkName, hStep.unconsume.1, hStep.unconsume.2,
    outcome_pure, hKind, and_self]

theorem agree_statement
    {scope : ScopeId}
    (hNested : C.NestedAgree nested nested') :
    C.Agree (scope :: scopes) C.alignment.Statements
      (statement nested) (statement nested') := by
  intro s t hStep
  have hVariable (hMore : s.token.kind ≠ .eof) :
      C.Outcomes (scope :: scopes) C.alignment.Statements
        (Parser.outcome
          (do
            return .variable
              (← variableDecl nested .localVariable))
          s)
        (Parser.outcome
          (do
            return .variable
              (← variableDecl nested' .localVariable))
          t) :=
    (agree_variableDecl hNested .localVariable hStep
      hMore).bind fun hResult =>
        agree_pure (.variable hResult)
  have hExpression :=
    agree_expressionStatement hNested s t hStep
  unfold statement
  rw [outcome_bind, outcome_bind, outcome_current,
    outcome_current]
  dsimp only
  rw [← hStep.kind_eq]
  split
  · rename_i hKind
    exact hVariable (by rw [hKind]; decide)
  · rename_i hKind
    exact hVariable (by rw [hKind]; decide)
  · rename_i hKind
    have hNext := hStep.nextIsName (by rw [hKind]; decide)
    rw [outcome_bind, outcome_bind, hNext.1, hNext.2]
    dsimp only
    split
    · exact (agree_functionDecl hNested).bind
        (fun hResult => agree_pure (.function hResult))
        s t hStep
    · exact hExpression
  · exact hExpression

/- Both runs stop at the same places in blocks. -/
theorem InStep.blockCheckpoint_eq
    {s t : ParserState}
    (hStep : C.InStep scopes s t) :
    blockCheckpoint s.stream = blockCheckpoint t.stream := by
  have hKind := hStep.kind_eq
  unfold ParserState.token at hKind
  unfold blockCheckpoint TokenStream.checkAny
  rw [hStep.previous.kind, hKind]

theorem agree_nextStatement
    {scope : ScopeId}
    (hNested : C.NestedAgree nested nested') :
    C.Agree (scope :: scopes)
      (Option.Rel (Option.Rel C.alignment.Statements))
      (nextStatement nested) (nextStatement nested') := by
  intro s t hStep
  apply hStep.unlessEnd
  · intro _ hMore
    exact (hStep.recovering hMore
      (fun hInner => hInner.blockCheckpoint_eq)
      (agree_statement hNested)).bind
        fun hResult => agree_pure (.some hResult)
  · exact agree_pure .none s t hStep

/- What is left out is left out on both sides. -/
theorem forall₂_filterMap_id
    {α β : Type}
    {R : α → β → Prop}
    {as : List (Option α)}
    {bs : List (Option β)}
    (hLists : List.Forall₂ (Option.Rel R) as bs) :
    List.Forall₂ R (as.filterMap id) (bs.filterMap id) := by
  induction hLists with
  | nil => exact .nil
  | cons hHead _ ih =>
      cases hHead with
      | none => exact ih
      | some hResults => exact .cons hResults ih

theorem agree_block
    (hNested : C.NestedAgree nested nested')
    {a b : Token}
    (hToken : C.alignment.Tokens a b) :
    C.Agree scopes C.alignment.Exprs
      (block nested a) (block nested' b) := by
  refine agree_inNewScope fun scope => ?_
  refine (agree_collect (agree_nextStatement hNested)).bind
    fun hItems => ?_
  refine (agree_expect (by decide) _).bind fun hStop => ?_
  exact agree_pure
    (.new (.block (forall₂_filterMap_id hItems))
      (hToken.span.between hStop.span))

------------------------------------------------------------
-- Tying the knot
------------------------------------------------------------

/- Nothing binds more tightly than members. -/
theorem outcome_extend_member
    (nested : Nested)
    (e : Expr)
    (s : ParserState) :
    (extend nested .member e).outcome s = (.ok none, s) := by
  unfold extend
  rw [outcome_bind, outcome_current]
  dsimp only
  cases s.token.kind <;> rfl

/- Behind a member operator nothing extends the member. -/
theorem outcome_loop_member
    (nested : Nested)
    (e : Expr)
    (s : ParserState) :
    (loop (extend nested .member) e).outcome s =
      (.ok e, s) := by
  unfold loop
  rw [outcome_bind, outcome_get]
  dsimp only
  cases s.stream.ahead with
  | nil =>
      unfold loopWithin
      rw [outcome_bind, outcome_extend_member]
      rfl
  | cons a as =>
      unfold loopWithin
      rw [outcome_bind, outcome_extend_member]
      rfl

/- At a name, a name or the call of a name is read. -/
theorem isReferenceOrInvocation_of_reference
    {nested : Nested}
    {token : Token}
    {e : Expr}
    {s t : ParserState}
    (hRun :
      (reference nested token).outcome s = (.ok e, t)) :
    e.isReferenceOrInvocation := by
  unfold reference at hRun
  rw [outcome_bind, outcome_accept] at hRun
  by_cases hOpen : s.token.kind = .openParen
  · rw [if_pos hOpen] at hRun
    dsimp only at hRun
    rw [if_pos rfl, outcome_bind] at hRun
    generalize (arguments nested).outcome s.next = x at hRun
    rcases x with ⟨_ | items, u⟩
    · cases hRun
    · cases hRun
      rfl
  · rw [if_neg hOpen] at hRun
    cases hRun
    rfl

/- Behind a member operator no other expression is read. -/
theorem isReferenceOrInvocation_of_member
    {nested : Nested}
    {e : Expr}
    {s t : ParserState}
    (hName : s.token.kind.isName)
    (hRun :
      (expression nested .member).outcome s =
        (.ok (some e), t)) :
    e.isReferenceOrInvocation := by
  have hKind : s.token.kind.starter? = some .reference := by
    cases hToken : s.token.kind <;>
      simp_all [TokenKind.isName, TokenKind.names,
        TokenKind.starter?]
  unfold expression at hRun
  rw [outcome_bind, outcome_consume] at hRun
  dsimp only at hRun
  rw [hKind] at hRun
  dsimp only at hRun
  rw [outcome_bind] at hRun
  cases hFirst :
      (reference nested s.token).outcome s.next with
  | mk result u =>
      unfold Starter.parser at hRun
      rw [hFirst] at hRun
      cases result with
      | error d => cases hRun
      | ok first =>
          dsimp only at hRun
          rw [outcome_bind, outcome_loop_member] at hRun
          cases hRun
          exact isReferenceOrInvocation_of_reference hFirst

/- Parsers agree whatever depth they are made for. -/
theorem nestedAgree_nestedWithin :
    ∀ depth,
      C.NestedAgree (nestedWithin depth) (nestedWithin depth)
  | 0 =>
      { expression := fun _ _ => agree_pure .none
        block := fun _ _ _ _ => agree_missingExpression
        member := nofun }
  | depth + 1 =>
      have hNested := nestedAgree_nestedWithin depth
      { expression := fun _ => agree_expression hNested
        block := fun _ => agree_block hNested
        member := isReferenceOrInvocation_of_member }

theorem agree_closed
    {α β : Type}
    {R : α → β → Prop}
    {p : Nested → Parser α}
    {q : Nested → Parser β}
    (hBodies :
      ∀ depth,
        C.Agree scopes R (p (nestedWithin depth))
          (q (nestedWithin depth))) :
    C.Agree scopes R (closed p) (closed q) := by
  intro s t hStep
  unfold closed
  rw [outcome_bind, outcome_bind, outcome_get, outcome_get]
  dsimp only
  rw [hStep.ahead.length_eq]
  exact hBodies _ s t hStep

------------------------------------------------------------
-- Imports
------------------------------------------------------------

theorem agree_importEntry :
    C.Agree scopes C.alignment.Entries
      importEntry importEntry := by
  refine agree_expectName.bind fun hName => ?_
  refine (agree_accept (by decide)).bind ?_
  rintro isThere _ rfl
  refine agree_ite ?_ ?_
  · refine agree_expectName.bind fun hNewName => ?_
    exact agree_pure
      ⟨hName.name_eq, congrArg some hNewName.name_eq,
        hName.span.between hNewName.span⟩
  · exact agree_pure ⟨hName.name_eq, rfl, hName.span⟩

theorem agree_plainPath
    {e f : Expr}
    (hExprs : C.alignment.Exprs e f) :
    C.Agree scopes Eq (plainPath e) (plainPath f) := by
  cases hExprs with
  | intro hForm _ =>
      unfold plainPath
      cases hForm with
      | string => exact agree_pure rfl
      | _ => exact agree_fail rfl _ _

theorem agree_importFrom
    (hNested : C.NestedAgree nested nested') :
    C.Agree scopes C.alignment.Imports
      (importFrom nested) (importFrom nested') := by
  refine (agree_expect (by decide) _).bind
    fun hKeyword => ?_
  refine (agree_expect (by decide) _).bind fun hQuote => ?_
  refine (agree_stringLiteral hNested hQuote).bind
    fun hPath => ?_
  refine (agree_expect (by decide) _).bind fun _ => ?_
  refine (agree_separated (by decide)
    agree_importEntry).bind fun hEntries => ?_
  refine (agree_expect (by decide) _).bind fun hStop => ?_
  refine (agree_plainPath hPath).bind fun hValue => ?_
  exact agree_pure
    ⟨hValue, hEntries, rfl,
      hKeyword.span.between hStop.span⟩

/- Both runs stop at the same places between declarations. -/
theorem InStep.topLevelCheckpoint_eq
    {s t : ParserState}
    (hStep : C.InStep scopes s t) :
    topLevelCheckpoint s.stream =
      topLevelCheckpoint t.stream := by
  have hKind := hStep.kind_eq
  unfold ParserState.token at hKind
  unfold topLevelCheckpoint TokenStream.checkAny
  rw [hKind]

theorem agree_nextImport
    (hNested : C.NestedAgree nested nested') :
    C.Agree scopes
      (Option.Rel (Option.Rel C.alignment.Imports))
      (nextImport nested) (nextImport nested') := by
  intro s t hStep
  unfold nextImport
  simp only [outcome_bind, outcome_hasMore, outcome_check,
    outcome_ite, ← hStep.kind_eq]
  split
  · rename_i hGo
    have hMore : s.token.kind ≠ .eof := by
      simp only [Bool.and_eq_true, decide_eq_true_eq] at hGo
      exact hGo.1
    rw [← outcome_bind, ← outcome_bind]
    exact (hStep.recovering hMore
      (fun hInner => hInner.topLevelCheckpoint_eq)
      (agree_importFrom hNested)).bind
        fun hResult => agree_pure (.some hResult)
  · exact agree_pure .none s t hStep

------------------------------------------------------------
-- Declarations outside of functions
------------------------------------------------------------

theorem agree_declaration
    {scope : ScopeId}
    (hNested : C.NestedAgree nested nested') :
    C.Agree (scope :: scopes) C.alignment.Declarations
      (declaration nested) (declaration nested') := by
  intro s t hStep
  have hProperty (hMore : s.token.kind ≠ .eof) :
      C.Outcomes (scope :: scopes) C.alignment.Declarations
        (Parser.outcome
          (do
            return .property
              (← variableDecl nested .property))
          s)
        (Parser.outcome
          (do
            return .property
              (← variableDecl nested' .property))
          t) :=
    (agree_variableDecl hNested .property hStep
      hMore).bind fun hResult =>
        agree_pure (.property hResult)
  have hFail
      {problem : Problem}
      (hSource : problem.concernsSource) :
      C.Agree (scope :: scopes) C.alignment.Declarations
        (do fail problem (← position))
        (do fail problem (← position)) :=
    agree_position.bind fun _ => agree_fail hSource _ _
  unfold declaration
  rw [outcome_bind, outcome_bind, outcome_current,
    outcome_current]
  dsimp only
  rw [← hStep.kind_eq]
  split
  · exact (agree_functionDecl hNested).bind
      (fun hResult => agree_pure (.function hResult))
      s t hStep
  · rename_i hKind
    exact hProperty (by rw [hKind]; decide)
  · rename_i hKind
    exact hProperty (by rw [hKind]; decide)
  · exact hFail rfl s t hStep
  · exact agree_unexpected _ s t hStep
  · exact hFail rfl s t hStep

theorem agree_nextDeclaration
    {scope : ScopeId}
    (hNested : C.NestedAgree nested nested') :
    C.Agree (scope :: scopes)
      (Option.Rel (Option.Rel C.alignment.Declarations))
      (nextDeclaration nested) (nextDeclaration nested') := by
  intro s t hStep
  unfold nextDeclaration
  rw [outcome_bind, outcome_bind, outcome_hasMore,
    outcome_hasMore, ← hStep.kind_eq]
  dsimp only
  rw [outcome_ite, outcome_ite]
  split
  · rename_i hMore
    exact (hStep.recovering (of_decide_eq_true hMore)
      (fun hInner => hInner.topLevelCheckpoint_eq)
      (agree_declaration hNested)).bind
        fun hResult => agree_pure (.some hResult)
  · exact agree_pure .none s t hStep

end Comparison

end SourceCheck
