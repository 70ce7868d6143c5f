import SourceCheck.Proofs.Parsing.Quiet
import SourceCheck.Proofs.Parsing.TypeLayers
import SourceCheck.Proofs.Syntax.Lookahead

/-
  Quiet runs of the grammar are derivations.

  One statement stands here for each parser, in the order of
  the grammar; those for nested expressions and blocks are
  assumed first, and the knot is tied at the end, where the
  depth of the nesting is bounded by the tokens that are
  left.

  Key definitions include:
    * `ReadsExpression`
    * `Nested.Sound`

  Key theorems include:
    * `sound_nestedWithin`
-/

namespace SourceCheck

open SourceCheck.Parser
open SourceCheck.Grammar

variable {n : Nat}
variable {scopes : List ScopeId}

------------------------------------------------------------
-- Written types
------------------------------------------------------------

theorem obeys_namedType :
    Obeys n scopes (DerivesType (.operand [])) namedType := by
  intro s hReady hFew
  unfold namedType
  rw [outcome_bind, outcome_checkName]
  by_cases hName : s.token.kind.isName
  · rw [hName]
    refine ((obeyed_consume hReady
      (ne_eof_of_isName hName)).bind hFew
        fun token => obeys_pure _).imp ?_
    rintro x t ⟨token, u, ⟨rfl, rfl⟩, rfl, rfl⟩
    exact .name hName
  · rw [eq_false_of_ne_true hName]
    exact .error (.refl hReady)

theorem obeys_joined
    {join : TypeJoin}
    {joins : List TypeJoin}
    {operand : Parser TypeExpr}
    (hOperand :
      Obeys n scopes (DerivesType (.operand joins)) operand) :
    Obeys n scopes (DerivesType (.operand (join :: joins)))
      (joined join operand) := by
  have hToken : join.token ≠ .eof := by
    cases join <;> decide
  have hSteps (left : TypeExpr) :
      Obeys n scopes
        (fun s r t =>
          r = none ∧ s.token.kind ≠ join.token ∧ t = s ∨
            ∃ x,
              r = some (join.combine left x) ∧
                s.token.kind = join.token ∧
                  DerivesType (.operand joins) s.next x t)
        (joinNext join operand left) := by
    refine (obeys_ifAccept hToken
      (hOperand.bind fun x => obeys_pure _)
      (obeys_pure none)).imp ?_
    rintro s r t
      (⟨hJoin, x, v, hRight, rfl, rfl⟩ | ⟨hJoin, rfl, rfl⟩)
    · exact .inr ⟨x, rfl, hJoin, hRight⟩
    · exact .inl ⟨rfl, hJoin, rfl⟩
  refine (hOperand.bind fun x =>
    obeys_loop hSteps ?_ x).imp ?_
  · rintro left y s t
      (⟨h, -⟩ | ⟨x, -, hJoin, hRight⟩)
    · cases h
    · have hPassed :=
        ParserState.left_next (hJoin ▸ hToken)
      have hLeft := hRight.left_le
      omega
  · rintro s y u ⟨x, t, hFirst, hMore⟩
    refine .joined hFirst ?_
    clear hFirst
    induction hMore with
    | stop hStop =>
        rcases hStop with
          ⟨-, hJoin, rfl⟩ | ⟨x, h, -⟩
        · exact .stop hJoin
        · cases h
    | more hStep _ ih =>
        rcases hStep with ⟨h, -⟩ | ⟨x, h, hJoin, hRight⟩
        · cases h
        · cases h
          exact .more hJoin hRight ih

theorem obeys_typeExpr (power : Power) :
    Obeys n scopes
      (DerivesType (.operand (joinsAbove power)))
      (typeExpr power) := by
  have hFactor :
      Obeys n scopes
        (DerivesType (.operand [.intersection]))
        (joined .intersection namedType) :=
    obeys_joined obeys_namedType
  have hBoth :
      Obeys n scopes
        (DerivesType (.operand [.union, .intersection]))
        (joined .union (joined .intersection namedType)) :=
    obeys_joined hFactor
  rw [typeExpr_eq_layeredType]
  cases power with
  | loosest => exact hBoth
  | assignment => exact hBoth
  | logicalOr => exact hFactor
  | _ => exact obeys_namedType

theorem obeys_optionalType
    {separator : TokenKind}
    (hSeparator : separator ≠ .eof)
    (power : Power)
    (fallback : Span) :
    Obeys n scopes
      (DerivesType (.behind separator power fallback))
      (do
        if ← accept separator then
          typeExpr power
        else
          pure (.new .absent fallback)) := by
  refine (obeys_ifAccept hSeparator
    (obeys_typeExpr power) (obeys_pure _)).imp ?_
  rintro s x t (⟨hThere, hType⟩ | ⟨hNone, rfl, rfl⟩)
  · exact .present hThere hType
  · exact .absent hNone

------------------------------------------------------------
-- Nested expressions and blocks
------------------------------------------------------------

/-
  An expression is read if the next token starts one, and
  nothing otherwise.
-/
inductive ReadsExpression (power : Power) :
    ParserState → Option Expr → ParserState → Prop where
  | some {s e t}
      (hExpr : Derives (.expression power) s e t) :
      ReadsExpression power s (some e) t
  | none {s}
      (hNone : s.token.kind.starter? = none) :
      ReadsExpression power s none s

/-
  The parsers of nested expressions and blocks read what is
  derived, where not too many tokens are left.
-/
structure Nested.Sound (n : Nat) (nested : Nested) :
    Prop where
  expression :
    ∀ scopes power,
      Obeys n scopes (ReadsExpression power)
        (nested.expression power)
  block :
    ∀ scopes start,
      Obeys (n - 1) scopes (Derives (.block start))
        (nested.block start)

variable {nested : Nested}

/- A failure for want of an expression is never quiet. -/
theorem obeys_missingExpression {α : Type} :
    Obeys n scopes (fun _ (_ : α) _ => False)
      missingExpression := by
  refine (obeys_current.bind fun token =>
    obeys_ite (obeys_fail _ _) (obeys_fail _ _)).imp ?_
  rintro s a t ⟨token, u, -, ⟨-, h⟩ | ⟨-, h⟩⟩
  · exact h
  · exact h

theorem obeys_required
    (hNested : nested.Sound n)
    (power : Power) :
    Obeys n scopes (Derives (.expression power))
      (nested.required power) := by
  refine ((hNested.expression scopes power).bind
    (Q := fun r t e u => r = some e ∧ u = t)
    fun r => ?_).imp ?_
  · cases r with
    | none => exact obeys_missingExpression.imp False.elim
    | some e =>
        refine (obeys_pure e).imp ?_
        rintro s f t ⟨rfl, rfl⟩
        exact ⟨rfl, rfl⟩
  · rintro s e u ⟨r, t, hReads, rfl, rfl⟩
    cases hReads with
    | some hExpr => exact hExpr

theorem obeys_behind
    (hNested : nested.Sound n)
    {kind : TokenKind}
    (hKind : kind ≠ .eof) :
    Obeys n scopes (Derives (.behind kind))
      (do
        if ← accept kind then
          return some (← nested.required .loosest)
        else
          return none) := by
  refine (obeys_ifAccept hKind
    ((obeys_required hNested .loosest).bind
      fun e => obeys_pure _)
    (obeys_pure _)).imp ?_
  rintro s r t
    (⟨hThere, e, u, hValue, rfl, rfl⟩ | ⟨hNone, rfl, rfl⟩)
  · exact .present hThere hValue
  · exact .absent hNone

------------------------------------------------------------
-- Lists of items
------------------------------------------------------------

/-
  The parser of a list reads the items that the parser of
  one item reads.
-/
theorem obeys_items
    (i : Item)
    {item : Parser i.Result}
    (hItem : Obeys n scopes (Derives (.item i)) item) :
    Obeys n scopes (Derives (.items i))
      (separated .comma i.terminator item) := by
  have hNext :
      Obeys n scopes
        (fun s r t =>
          s.token.kind = .comma ∧
              (s.next.token.kind = i.terminator ∧
                  r = none ∧ t = s.next ∨
                s.next.token.kind ≠ i.terminator ∧
                  ∃ x,
                    r = some x ∧
                      Derives (.item i) s.next x t) ∨
            s.token.kind ≠ .comma ∧ r = none ∧ t = s)
        (nextItem .comma i.terminator item) := by
    refine (obeys_ifAccept (by decide)
      (obeys_ifCheck i.terminator (obeys_pure _)
        (hItem.bind fun x => obeys_pure _))
      (obeys_pure _)).imp ?_
    rintro s r t
      (⟨hComma, ⟨hEnd, h⟩ | ⟨hSome, x, u, hFirst, rfl, rfl⟩⟩ |
        ⟨hNone, h⟩)
    · exact .inl ⟨hComma, .inl ⟨hEnd, h⟩⟩
    · exact .inl ⟨hComma, .inr ⟨hSome, x, rfl, hFirst⟩⟩
    · exact .inr ⟨hNone, h⟩
  refine (obeys_ifCheck i.terminator (obeys_pure _)
    (hItem.bind fun x =>
      (obeys_collect hNext ?_).bind
        fun xs => obeys_pure _)).imp ?_
  · rintro x s t
      (⟨hComma, ⟨-, h, -⟩ | ⟨-, y, -, hFirst⟩⟩ | ⟨-, h, -⟩)
    · cases h
    · have hLeft := hFirst.left_le
      have hPassed :=
        ParserState.left_next (by rw [hComma]; decide)
      omega
    · cases h
  · rintro s r t
      (⟨hNone, rfl, rfl⟩ |
        ⟨hSome, x, u, hFirst, xs, v, hMore, rfl, rfl⟩)
    · exact .noItems hNone
    · refine .someItems hSome hFirst ?_
      clear hFirst hSome
      induction hMore with
      | stop hStop =>
          rcases hStop with
            ⟨hComma, ⟨hEnd, -, rfl⟩ | ⟨-, y, h, -⟩⟩ |
              ⟨hNone, -, rfl⟩
          · exact .trailingComma hComma hEnd
          · cases h
          · exact .lastItem hNone
      | more hStep _ ih =>
          rcases hStep with
            ⟨hComma, ⟨-, h, -⟩ | ⟨hSome, y, h, hItem⟩⟩ |
              ⟨-, h, -⟩
          · cases h
          · cases h
            exact .nextItem hComma hSome hItem ih
          · cases h

------------------------------------------------------------
-- Arguments and parameters
------------------------------------------------------------

theorem obeys_argumentName :
    Obeys n scopes
      (fun s r t =>
        s.AtNamed ∧ r = some s.token ∧ t = s.next.next ∨
          ¬ s.AtNamed ∧ r = none ∧ t = s)
      argumentName := by
  intro s hReady hFew
  by_cases hNamed : s.AtNamed
  · have hName := ne_eof_of_isName hNamed.1
    have hAssign : s.next.token.kind ≠ .eof := by
      rw [hNamed.2]
      decide
    have hFirst := ParserState.Kept.next hReady hName
    have hSecond :=
      ParserState.Kept.next hFirst.ready hAssign
    rw [outcome_argumentName_some hNamed]
    exact .ok (hFirst.trans hSecond) fun _ =>
      .inl ⟨hNamed, rfl, rfl⟩
  · rw [outcome_argumentName_none hNamed]
    exact .ok (.refl hReady) fun _ =>
      .inr ⟨hNamed, rfl, rfl⟩

theorem obeys_argument
    (hNested : nested.Sound n) :
    Obeys n scopes (Derives (.item .argument))
      (argument nested) := by
  refine (obeys_argumentName.bind fun name =>
    (obeys_required hNested .loosest).bind fun value =>
      obeys_pure _).imp ?_
  rintro s a u
    ⟨name, t, hName, value, v, hValue, rfl, rfl⟩
  rcases hName with
    ⟨hNamed, rfl, rfl⟩ | ⟨hNone, rfl, rfl⟩
  · exact .named hNamed hValue
  · exact .positional hNone hValue

theorem obeys_arguments
    (hNested : nested.Sound n) :
    Obeys n scopes
      (fun s r u =>
        ∃ t,
          Derives (.items .argument) s r.1 t ∧
            t.token.kind = .closeParen ∧
              r.2 = t.token.span ∧ u = t.next)
      (arguments nested) := by
  refine ((obeys_items .argument
    (obeys_argument hNested)).bind fun items =>
      (obeys_expect (by decide) _).bind fun stop =>
        obeys_pure _).imp ?_
  rintro s r u
    ⟨items, t, hItems, stop, v, ⟨hClose, rfl, rfl⟩, rfl,
      rfl⟩
  exact ⟨t, hItems, hClose, rfl, rfl⟩

theorem obeys_parameter
    {scope : ScopeId}
    (hNested : nested.Sound n) :
    Obeys n (scope :: scopes) (Derives (.item .parameter))
      (parameter nested) := by
  refine (obeys_expectName.bind fun name =>
    (obeys_expect (by decide) _).bind fun _ =>
      (obeys_typeExpr .loosest).bind fun type =>
        (obeys_behind hNested (by decide)).bind
          fun fallback =>
            (obeys_declare _ _ _ _ _).bind fun id =>
              obeys_pure _).imp ?_
  rintro s p v
    ⟨name, _, ⟨hName, rfl, rfl⟩, _, _, ⟨hColon, -, rfl⟩,
      type, t, hType, fallback, u, hFallback, id, _,
      hDeclares, rfl, rfl⟩
  exact .parameter hName hColon hType hFallback rfl hDeclares

theorem obeys_lambdaParameter {scope : ScopeId} :
    Obeys n (scope :: scopes)
      (Derives (.item .lambdaParameter))
      lambdaParameter := by
  have hRest (name : Token) (type : TypeExpr) :
      Obeys n (scope :: scopes)
        (fun s (p : Parameter) u =>
          ∃ id,
            s.Declares
                ⟨name.name, .argument,
                  name.span.between type.span,
                  name.span.start.offset, false, none⟩
                id u ∧
              p =
                ⟨name.name, type, none, id,
                  name.span.between type.span⟩)
        (do
          let span := name.span.between type.span
          let definition ←
            declare name .argument span
              name.span.start.offset false
          return ⟨name.name, type, none, definition,
            span⟩) := by
    refine ((obeys_declare _ _ _ _ _).bind fun id =>
      obeys_pure _).imp ?_
    rintro s p u ⟨id, _, hDeclares, rfl, rfl⟩
    exact ⟨id, hDeclares, rfl⟩
  refine (obeys_expectName.bind fun name =>
    obeys_ifAccept (by decide)
      ((obeys_typeExpr .logicalOr).bind (hRest name))
      ((obeys_pure _).bind (hRest name))).imp ?_
  rintro s p u ⟨name, _, ⟨hName, rfl, rfl⟩, hType⟩
  rcases hType with
    ⟨hThere, type, t, hType, id, hDeclares, rfl⟩ |
      ⟨hNone, type, t, ⟨rfl, rfl⟩, id, hDeclares, rfl⟩
  · exact .lambdaParameter hName (.present hThere hType) rfl
      hDeclares
  · exact .lambdaParameter hName (.absent hNone) rfl hDeclares

theorem obeys_signature
    {scope : ScopeId}
    (hNested : nested.Sound n) :
    Obeys n (scope :: scopes) (Derives .signature)
      (signature nested) := by
  refine ((obeys_expect (by decide) _).bind fun _ =>
    (obeys_items .parameter
      (obeys_parameter hNested)).bind fun items =>
        (obeys_expect (by decide) _).bind fun stop =>
          (obeys_optionalType (by decide) .loosest _).bind
            fun type => obeys_pure _).imp ?_
  rintro s r u
    ⟨_, _, ⟨hOpen, -, rfl⟩, items, t, hItems, stop, _,
      ⟨hClose, rfl, rfl⟩, type, u, hType, rfl, rfl⟩
  exact .signature hOpen hItems hClose hType

------------------------------------------------------------
-- Literals
------------------------------------------------------------

theorem obeys_intLiteral (token : Token) :
    Obeys n scopes (Derives (.start .int token))
      (intLiteral token) := by
  unfold intLiteral
  cases hForm : intForm? token.value with
  | none => exact (obeys_fail _ _).imp False.elim
  | some form =>
      refine (obeys_pure _).imp ?_
      rintro s e t ⟨rfl, rfl⟩
      exact .int hForm

theorem obeys_booleanLiteral (token : Token) :
    Obeys n scopes (Derives (.start .boolean token))
      (booleanLiteral token) := by
  refine (obeys_pure _).imp ?_
  rintro s e t ⟨rfl, rfl⟩
  exact .boolean

/-
  What a part of a string is, which started at the token of
  the first state.
-/
def ReadsPart
    (s : ParserState)
    (part : StringPart)
    (t : ParserState) :
    Prop :=
  ∀ {parts u},
    Derives .parts t parts u →
      Derives .parts s (part :: parts) u

theorem obeyed_stringPart
    (hNested : nested.Sound n)
    {s : ParserState}
    (hReady : s.next.Ready scopes)
    (hFew : 2 * s.next.left < n) :
    Obeyed scopes s.next (ReadsPart s)
      ((stringPart nested s.token).outcome s.next) := by
  unfold stringPart
  split
  · rename_i hText
    refine ((obeys_pure _) s.next hReady hFew).imp ?_
    rintro part t ⟨rfl, rfl⟩
    exact fun hMore => .textPart hText hMore
  · rename_i hEscape
    cases hChar : unescape? s.token.value with
    | none => exact .error (.refl hReady)
    | some c =>
        refine ((obeys_pure _) s.next hReady hFew).imp ?_
        rintro part t ⟨rfl, rfl⟩
        exact fun hMore => .escapePart hEscape hChar hMore
  · rename_i hOpen
    refine (((obeys_required hNested .loosest).bind fun e =>
      (obeys_expect (by decide) _).bind fun _ =>
        obeys_pure _) s.next hReady hFew).imp ?_
    rintro part t
      ⟨e, u, hExpr, _, _, ⟨hClose, -, rfl⟩, rfl, rfl⟩
    exact fun hMore =>
      .embeddedPart hOpen hExpr hClose hMore
  · exact .error (.refl hReady)
  · exact .error (.refl hReady)

theorem obeys_parts
    (hNested : nested.Sound n) :
    Obeys n scopes (Derives .parts)
      (collect (nextStringPart nested)) := by
  have hNext :
      Obeys n scopes
        (fun s r t =>
          (s.token.kind = .stringEnd ∨ s.token.kind = .eof) ∧
              r = none ∧ t = s ∨
            t.left < s.left ∧
              ∃ part, r = some part ∧ ReadsPart s part t)
        (nextStringPart nested) := by
    intro s hReady hFew
    unfold nextStringPart
    rw [outcome_unlessEnd]
    split
    · rename_i hGo
      have hNext := hReady.next hGo.2
      have hPassed := ParserState.left_next hGo.2
      have hRun :=
        obeyed_stringPart hNested hNext (by omega)
      rw [outcome_bind, outcome_consume]
      dsimp only
      rw [outcome_bind]
      generalize (stringPart nested s.token).outcome s.next =
        x at hRun
      have hKept := ParserState.Kept.next hReady hGo.2
      cases hRun with
      | ok hRest hQuiet =>
          have hLeft := hRest.left_le
          exact .ok (hKept.trans hRest) fun hNone =>
            .inr ⟨by omega, _, rfl, hQuiet hNone⟩
      | error hRest => exact .error (hKept.trans hRest)
    · rename_i hStop
      refine .ok (.refl hReady) fun _ => .inl ⟨?_, rfl, rfl⟩
      by_cases hEnd : s.token.kind = .stringEnd
      · exact .inl hEnd
      · by_cases hText : s.token.kind = .eof
        · exact .inr hText
        · exact absurd ⟨hEnd, hText⟩ hStop
  refine (obeys_collect hNext ?_).imp ?_
  · rintro part s t (⟨-, h, -⟩ | ⟨hLess, -⟩)
    · cases h
    · exact hLess
  · intro s parts t hCollects
    induction hCollects with
    | stop hStop =>
        rcases hStop with ⟨hEnd, -, rfl⟩ | ⟨-, part, h, -⟩
        · exact .noParts hEnd
        · cases h
    | more hStep _ ih =>
        rcases hStep with ⟨-, h, -⟩ | ⟨-, part, h, hReads⟩
        · cases h
        · cases h
          exact hReads ih

theorem obeys_stringLiteral
    (hNested : nested.Sound n)
    (token : Token) :
    Obeys n scopes (Derives (.start .string token))
      (stringLiteral nested token) := by
  refine ((obeys_parts hNested).bind fun parts =>
    (obeys_expect (by decide) _).bind fun stop =>
      obeys_pure _).imp ?_
  rintro s e t
    ⟨parts, u, hParts, _, _, ⟨hClose, rfl, rfl⟩, rfl, rfl⟩
  exact .string hParts hClose

------------------------------------------------------------
-- Compound expressions
------------------------------------------------------------

theorem obeys_reference
    (hNested : nested.Sound n)
    (token : Token) :
    Obeys n scopes (Derives (.start .reference token))
      (reference nested token) := by
  refine (obeys_ifAccept (by decide)
    ((obeys_arguments hNested).bind fun r => obeys_pure _)
    (obeys_pure _)).imp ?_
  rintro s e t
    (⟨hOpen, r, _, ⟨u, hItems, hClose, hStop, rfl⟩, rfl,
        rfl⟩ | ⟨hNone, rfl, rfl⟩)
  · rw [hStop]
    exact .invocation hOpen hItems hClose
  · exact .reference hNone

theorem obeys_unary
    (hNested : nested.Sound n)
    (token : Token) :
    Obeys n scopes (Derives (.start .unary token))
      (unary nested token) := by
  refine ((obeys_required hNested .unary).bind
    fun operand => obeys_pure _).imp ?_
  rintro s e t ⟨operand, u, hOperand, rfl, rfl⟩
  exact .unary hOperand

theorem obeys_grouping
    (hNested : nested.Sound n)
    (token : Token) :
    Obeys n scopes (Derives (.start .grouping token))
      (grouping nested token) := by
  refine ((obeys_required hNested .loosest).bind fun inner =>
    (obeys_expect (by decide) _).bind fun stop =>
      obeys_pure _).imp ?_
  rintro s e t
    ⟨inner, u, hInner, _, _, ⟨hClose, rfl, rfl⟩, rfl, rfl⟩
  exact .grouping hInner hClose

theorem obeys_conditional
    (hNested : nested.Sound n)
    (token : Token) :
    Obeys n scopes (Derives (.start .conditional token))
      (conditional nested token) := by
  refine ((obeys_expect (by decide) _).bind fun _ =>
    (obeys_required hNested .loosest).bind fun condition =>
      (obeys_expect (by decide) _).bind fun _ =>
        (obeys_required hNested .loosest).bind
          fun thenBranch =>
            (obeys_behind hNested (by decide)).bind
              fun otherwise => obeys_pure _).imp ?_
  rintro s e t
    ⟨_, _, ⟨hOpen, -, rfl⟩, condition, u, hCondition, _, _,
      ⟨hClose, -, rfl⟩, thenBranch, v, hThen, otherwise, w,
      hElse, rfl, rfl⟩
  exact .conditional hOpen hCondition hClose hThen hElse

theorem obeys_functionBody
    (hNested : nested.Sound n) :
    Obeys n scopes
      (fun s r t => ∀ e, r = some e → Derives .body s e t)
      (functionBody nested) := by
  refine ((obeys_behind hNested (by decide)).bind
    (Q := fun value s r t =>
      value = r ∧ value ≠ none ∧ t = s ∨
        value = none ∧
          ∀ e,
            r = some e →
              s.token.kind = .openCurly ∧
                Derives (.block s.token) s.next e t)
    fun value => ?_).imp ?_
  · cases value with
    | some e =>
        refine (obeys_pure _).imp ?_
        rintro s r t ⟨rfl, rfl⟩
        exact .inl ⟨rfl, nofun, rfl⟩
    | none =>
        refine (obeys_ifConsume (by decide)
          (fun token =>
            (hNested.block scopes token).bind
              fun e => obeys_pure (some e))
          (obeys_pure none)).imp ?_
        rintro s r t
          (⟨hOpen, e, u, hBlock, rfl, rfl⟩ | ⟨-, rfl, rfl⟩)
        · refine .inr ⟨rfl, fun f hSome => ?_⟩
          cases hSome
          exact ⟨hOpen, hBlock⟩
        · exact .inr ⟨rfl, nofun⟩
  · rintro s r t ⟨value, u, hValue, hRest⟩ e rfl
    rcases hRest with ⟨rfl, -, rfl⟩ | ⟨rfl, hBlock⟩
    · cases hValue with
      | present hAssign hExpr =>
          exact .bodyValue hAssign hExpr
    · cases hValue with
      | absent hNone =>
          rcases hBlock e rfl with ⟨hOpen, hBlock⟩
          exact .bodyBlock hOpen hBlock

/- A function without a name, within its scope. -/
theorem obeys_functionLiteralBody
    (hNested : nested.Sound n)
    (token : Token)
    (scope : ScopeId) :
    Obeys n (scope :: scopes)
      (fun s (e : Expr) u =>
        ∃ parameters returnType t body,
          Derives .signature s (parameters, returnType) t ∧
            Derives .body t body u ∧
              e =
                .new
                  (.function parameters returnType body
                    scope)
                  (token.span.between body.span))
      (do
        let (parameters, returnType) ← signature nested
        match ← functionBody nested with
        | none =>
            fail .missingFunctionBody (← position)
        | some body =>
            return .new
              (.function parameters returnType body scope)
              (token.span.between body.span)) := by
  refine ((obeys_signature hNested).bind fun r =>
    (obeys_functionBody hNested).bind
      (Q := fun body s e t =>
        t = s ∧
          ∃ b,
            body = some b ∧
              e =
                .new (.function r.1 r.2 b scope)
                  (token.span.between b.span))
      fun body => ?_).imp ?_
  · cases body with
    | none =>
        refine ((obeys_look _).bind fun _ =>
          obeys_fail _ _).imp ?_
        rintro s e t ⟨_, _, -, h⟩
        exact h.elim
    | some b =>
        refine (obeys_pure _).imp ?_
        rintro s e t ⟨rfl, rfl⟩
        exact ⟨rfl, b, rfl, rfl⟩
  · rintro s e u
      ⟨r, t, hSignature, _, _, hBody, rfl, b, rfl, rfl⟩
    exact ⟨r.1, r.2, t, b, hSignature, hBody b rfl, rfl⟩

theorem obeys_functionLiteral
    (hNested : nested.Sound n)
    (token : Token) :
    Obeys n scopes (Derives (.start .function token))
      (functionLiteral nested token) := by
  refine (obeys_checkName.bind fun isName =>
    obeys_ite ((obeys_look _).bind fun _ => obeys_fail _ _)
      (obeys_inNewScope
        (obeys_functionLiteralBody hNested token))).imp ?_
  rintro s e t ⟨isName, _, ⟨rfl, rfl⟩, hRest⟩
  rcases hRest with ⟨-, _, _, -, h⟩ | ⟨hNone, u, hRun, rfl⟩
  · exact h.elim
  · rcases hRun with
      ⟨parameters, returnType, t, body, hSignature, hBody,
        rfl⟩
    exact .functionLiteral hNone hSignature hBody

theorem obeys_lambda
    (hNested : nested.Sound n)
    (token : Token) :
    Obeys n scopes (Derives (.start .lambda token))
      (lambda nested token) := by
  refine (obeys_inNewScope fun scope =>
    (obeys_items .lambdaParameter
      obeys_lambdaParameter).bind fun items =>
        (obeys_expect (by decide) _).bind fun _ =>
          (obeys_required hNested .loosest).bind fun body =>
            obeys_pure _).imp ?_
  rintro s e t
    ⟨_, ⟨items, u, hItems, _, _, ⟨hClose, -, rfl⟩, body, v,
      hBody, rfl, rfl⟩, rfl⟩
  exact .lambda hItems hClose hBody

theorem obeys_ret
    (hNested : nested.Sound n)
    (token : Token) :
    Obeys n scopes (Derives (.start .ret token))
      (ret nested token) := by
  refine ((hNested.expression scopes .loosest).bind
    fun value => obeys_pure _).imp ?_
  rintro s e t ⟨value, u, hReads, rfl, rfl⟩
  cases hReads with
  | some hValue => exact .retValue hValue
  | none hNone => exact .retNothing hNone

------------------------------------------------------------
-- Extensions
------------------------------------------------------------

theorem obeys_binary
    (hNested : nested.Sound n)
    (left : Expr)
    (operator : Token)
    (power : Power) :
    Obeys n scopes
      (Derives (.extension .binary left operator power))
      (binary nested left operator power) := by
  unfold binary
  cases hOperator : operator.kind.binaryOperator? with
  | none => exact (obeys_fail _ _).imp False.elim
  | some o =>
      refine ((obeys_required hNested power).bind
        fun right => obeys_pure _).imp ?_
      rintro s e t ⟨right, u, hRight, rfl, rfl⟩
      exact .binary hOperator hRight

theorem obeys_assignment
    (hNested : nested.Sound n)
    (left : Expr)
    (operator : Token)
    (power : Power) :
    Obeys n scopes
      (Derives (.extension .assignment left operator power))
      (assignment nested left operator power) := by
  unfold assignment
  cases hOperator : operator.kind.assignmentOperator? with
  | none => exact (obeys_fail _ _).imp False.elim
  | some o =>
      refine ((obeys_required hNested power.lower).bind
        fun value => obeys_pure _).imp ?_
      rintro s e t ⟨value, u, hValue, rfl, rfl⟩
      exact .assignment hOperator hValue

theorem obeys_memberAccess
    (hNested : nested.Sound n)
    (left : Expr)
    (operator : Token)
    (power : Power) :
    Obeys n scopes
      (Derives (.extension .member left operator power))
      (memberAccess nested left operator power) := by
  refine (obeys_checkName.bind fun isName =>
    obeys_ite
      ((obeys_required hNested power).bind fun right =>
        obeys_ite (obeys_pure _) (obeys_fail _ _))
      (obeys_unexpected _)).imp ?_
  rintro s e t ⟨isName, _, ⟨rfl, rfl⟩, hRest⟩
  rcases hRest with
    ⟨hName, right, u, hRight,
      ⟨hIs, rfl, rfl⟩ | ⟨-, h⟩⟩ | ⟨-, h⟩
  · exact .member hName hRight hIs
  · exact h.elim
  · exact h.elim

theorem obeys_call
    (hNested : nested.Sound n)
    (left : Expr)
    (operator : Token)
    (power : Power) :
    Obeys n scopes
      (Derives (.extension .call left operator power))
      (call nested left) := by
  refine ((obeys_arguments hNested).bind fun r =>
    obeys_pure _).imp ?_
  rintro s e t
    ⟨r, _, ⟨u, hItems, hClose, hStop, rfl⟩, rfl, rfl⟩
  rw [hStop]
  exact .call hItems hClose

------------------------------------------------------------
-- Expressions
------------------------------------------------------------

theorem obeys_starter
    (hNested : nested.Sound n)
    (starter : Starter)
    (token : Token) :
    Obeys (n - 1) scopes (Derives (.start starter token))
      (starter.parser nested token) := by
  have hLess : n - 1 ≤ n := Nat.sub_le n 1
  cases starter with
  | int => exact obeys_intLiteral token
  | boolean => exact obeys_booleanLiteral token
  | string =>
      exact (obeys_stringLiteral hNested token).fewer hLess
  | reference =>
      exact (obeys_reference hNested token).fewer hLess
  | unary => exact (obeys_unary hNested token).fewer hLess
  | grouping =>
      exact (obeys_grouping hNested token).fewer hLess
  | block => exact (hNested.block scopes token).imp .startBlock
  | conditional =>
      exact (obeys_conditional hNested token).fewer hLess
  | function =>
      exact (obeys_functionLiteral hNested token).fewer hLess
  | lambda => exact (obeys_lambda hNested token).fewer hLess
  | ret => exact (obeys_ret hNested token).fewer hLess

theorem obeys_extender
    (hNested : nested.Sound n)
    (extender : Extender)
    (left : Expr)
    (operator : Token)
    (power : Power) :
    Obeys n scopes
      (Derives (.extension extender left operator power))
      (extender.parser nested left operator power) := by
  cases extender with
  | binary => exact obeys_binary hNested left operator power
  | assignment =>
      exact obeys_assignment hNested left operator power
  | member =>
      exact obeys_memberAccess hNested left operator power
  | call => exact obeys_call hNested left operator power

/- What extends an expression once, if anything does. -/
inductive Extends (power : Power) (left : Expr) :
    ParserState → Option Expr → ParserState → Prop where
  | none {s}
      (hStop : s.token.kind.EndsAbove power) :
      Extends power left s none s
  | some {extender q s e t}
      (hOperator :
        s.token.kind.extender? = some (extender, q))
      (hTight : power < q)
      (hExtension :
        Derives (.extension extender left s.token q)
          s.next e t) :
      Extends power left s (some e) t

theorem obeys_extend
    (hNested : nested.Sound n)
    (power : Power)
    (left : Expr) :
    Obeys n scopes (Extends power left)
      (extend nested power left) := by
  intro s hReady hFew
  unfold extend
  rw [outcome_bind, outcome_current]
  dsimp only
  cases hKind : s.token.kind.extender? with
  | none =>
      refine .ok (.refl hReady) fun _ => .none ?_
      intro extender q hSome
      rw [hKind] at hSome
      cases hSome
  | some x =>
      rcases x with ⟨extender, q⟩
      dsimp only
      by_cases hTight : power < q
      · have hMore := ne_eof_of_extender hKind
        have hNext := ParserState.Kept.next hReady hMore
        have hLeft := hNext.left_le
        have hFewer : 2 * s.next.left < n := by omega
        have hRun :=
          ((obeys_extender hNested extender left s.token
            q).bind fun e => obeys_pure (some e))
              s.next hNext.ready hFewer
        rw [if_pos hTight, outcome_bind, outcome_consume]
        refine (hRun.after hNext).imp ?_
        rintro r t ⟨-, e, u, hExtension, rfl, rfl⟩
        exact .some hKind hTight hExtension
      · rw [if_neg hTight]
        refine .ok (.refl hReady) fun _ => .none ?_
        intro extender q hSome
        rw [hKind] at hSome
        cases hSome
        exact hTight

theorem obeys_extensions
    (hNested : nested.Sound n)
    (power : Power)
    (left : Expr) :
    Obeys n scopes (Derives (.extensions power left))
      (loop (extend nested power) left) := by
  refine (obeys_loop (obeys_extend hNested power)
    ?_ left).imp ?_
  · intro left e s t hExtends
    cases hExtends with
    | some hOperator _ hExtension =>
        have hPassed :=
          ParserState.left_next
            (ne_eof_of_extender hOperator)
        have hLeft := hExtension.left_le
        omega
  · intro s e t hRepeats
    induction hRepeats with
    | stop hExtends =>
        cases hExtends with
        | none hStop => exact .stop hStop
    | more hExtends _ ih =>
        cases hExtends with
        | some hOperator hTight hExtension =>
            exact .more hOperator hTight hExtension ih

theorem obeys_expression
    (hNested : nested.Sound n)
    (power : Power) :
    Obeys (n + 1) scopes (ReadsExpression power)
      (expression nested power) := by
  intro s hReady hFew
  cases hKind : s.token.kind.starter? with
  | none =>
      rw [outcome_expression_none hKind hReady.ahead_ne]
      exact .ok (.refl hReady) fun _ => .none hKind
  | some starter =>
      unfold expression
      rw [outcome_bind, outcome_consume]
      dsimp only
      rw [hKind]
      dsimp only
      have hMore := ne_eof_of_starter hKind
      have hNext := ParserState.Kept.next hReady hMore
      have hPassed := ParserState.left_next hMore
      have hFewer : 2 * s.next.left < n - 1 := by omega
      have hFirst :=
        (obeys_starter hNested starter s.token) s.next
          hNext.ready hFewer
      have hRest (first : Expr) :=
        ((@obeys_extensions n scopes nested hNested power
          first).bind
            fun e => obeys_pure (some e)).fewer
              (Nat.sub_le n 1)
      refine ((hFirst.bind hFewer hRest).after hNext).imp ?_
      rintro r t
        ⟨-, first, u, hFirst, e, v, hMore, rfl, rfl⟩
      exact .some (.expression hKind hFirst hMore)

------------------------------------------------------------
-- Declarations
------------------------------------------------------------

theorem obeyed_variableDecl
    {scope : ScopeId}
    (hNested : nested.Sound n)
    (kind : DefinitionKind)
    {s : ParserState}
    (hReady : s.Ready (scope :: scopes))
    (hFew : 2 * s.left < n)
    (hKeyword : s.token.kind ≠ .eof) :
    Obeyed (scope :: scopes) s
      (Derives (.variableDecl kind) s)
      ((variableDecl nested kind).outcome s) := by
  refine ((obeyed_consume hReady hKeyword).bind hFew
    fun keyword =>
      obeys_expectName.bind fun name =>
        (obeys_optionalType (by decide) .loosest _).bind
          fun type =>
            (obeys_behind hNested (by decide)).bind
              fun initializer =>
                (obeys_expect (by decide) _).bind
                  fun stop =>
                    (obeys_declare _ _ _ _ _).bind fun id =>
                      obeys_pure _).imp ?_
  rintro v w
    ⟨keyword, _, ⟨rfl, rfl⟩, name, _, ⟨hName, rfl, rfl⟩,
      type, t, hType, initializer, u, hInitializer, stop, _,
      ⟨hStop, rfl, rfl⟩, id, _, hDeclares, rfl, rfl⟩
  exact .variableDecl hKeyword hName hType hInitializer hStop
    rfl hDeclares

theorem obeys_namedFunctionBody
    (hNested : nested.Sound n) :
    Obeys n scopes (Derives .namedBody)
      (namedFunctionBody nested) := by
  refine ((obeys_behind hNested (by decide)).bind
    (Q := fun value s r t =>
      match value with
      | some e =>
          s.token.kind = .semicolon ∧ r = some e ∧ t = s.next
      | none =>
          s.token.kind ≠ .assignment →
            Derives .namedBody s r t)
    fun value => ?_).imp ?_
  · cases value with
    | some e =>
        refine ((obeys_expect (by decide) _).bind fun _ =>
          obeys_pure _).imp ?_
        rintro s r t ⟨_, _, ⟨hStop, -, rfl⟩, rfl, rfl⟩
        exact ⟨hStop, rfl, rfl⟩
    | none =>
        refine (obeys_ifConsume (by decide)
          (fun token =>
            (hNested.block scopes token).bind
              fun e => obeys_pure (some e))
          ((obeys_accept (by decide)).bind fun _ =>
            obeys_pure none)).imp ?_
        rintro s r t
          (⟨hOpen, e, u, hBlock, rfl, rfl⟩ |
            ⟨hOpen, _, u, hAccept, rfl, rfl⟩)
        · exact fun _ => .namedBlock hOpen hBlock
        · intro hAssign
          rcases hAccept with
            ⟨-, hStop, rfl⟩ | ⟨-, hStop, rfl⟩
          · exact .namedNone hStop
          · refine .namedNothing ?_
            simp [hAssign, hOpen, hStop]
  · rintro s r t ⟨value, u, hValue, hRest⟩
    cases hValue with
    | present hAssign hExpr =>
        rcases hRest with ⟨hStop, rfl, rfl⟩
        exact .namedValue hAssign hExpr hStop
    | absent hNone => exact hRest hNone

theorem obeys_functionDecl
    {scope : ScopeId}
    (hNested : nested.Sound n) :
    Obeys n (scope :: scopes) (Derives .functionDecl)
      (functionDecl nested) := by
  refine ((obeys_expect (by decide) _).bind fun keyword =>
    obeys_expectName.bind fun name =>
      (obeys_inNewScope fun inner =>
        (obeys_signature hNested).bind fun r =>
          (obeys_namedFunctionBody hNested).bind fun body =>
            obeys_pure _).bind fun r =>
              (obeys_look _).bind fun stop =>
                (obeys_declare _ _ _ _ _).bind fun id =>
                  obeys_pure _).imp ?_
  rintro s f w
    ⟨keyword, _, ⟨hKeyword, rfl, rfl⟩, name, _,
      ⟨hName, rfl, rfl⟩, _, _,
      ⟨u, ⟨r, t, hSignature, body, _, hBody, rfl, rfl⟩, rfl⟩,
      stop, _, ⟨rfl, rfl⟩, id, _, hDeclares, rfl, rfl⟩
  exact .functionDecl hKeyword hName hSignature hBody rfl
    hDeclares

------------------------------------------------------------
-- Statements
------------------------------------------------------------

/- An expression is a statement if its end can be seen. -/
theorem obeys_expressionStatement
    (hNested : nested.Sound n) :
    Obeys n scopes
      (fun s x t =>
        s.token.kind ≠ .kwVal →
          s.token.kind ≠ .kwVar →
            ¬ s.AtFunction → Derives .statement s x t)
      (expressionStatement nested) := by
  refine ((obeys_required hNested .loosest).bind fun e =>
    obeys_ifAccept (by decide) (obeys_pure _)
      (obeys_ite (obeys_pure _)
        (obeys_ifCheck .closeCurly (obeys_pure _)
          (obeys_unexpected _)))).imp ?_
  rintro s x t ⟨e, u, hExpr, hRest⟩ hVal hVar hFunction
  rcases hRest with
    ⟨hStop, rfl, rfl⟩ |
      ⟨hNone, ⟨hBlock, rfl, rfl⟩ |
        ⟨-, ⟨hClose, rfl, rfl⟩ | ⟨-, h⟩⟩⟩
  · exact .endedStatement hVal hVar hFunction hExpr hStop
  · exact .openStatement hVal hVar hFunction hExpr hNone
      (.inl hBlock)
  · exact .openStatement hVal hVar hFunction hExpr hNone
      (.inr hClose)
  · exact h.elim

theorem obeys_statement
    {scope : ScopeId}
    (hNested : nested.Sound n) :
    Obeys n (scope :: scopes) (Derives .statement)
      (statement nested) := by
  intro s hReady hFew
  have hVariable
      (hKeyword :
        s.token.kind = .kwVal ∨ s.token.kind = .kwVar) :
      Obeyed (scope :: scopes) s (Derives .statement s)
        (Parser.outcome
          (do
            return .variable
              (← variableDecl nested .localVariable))
          s) := by
    have hMore : s.token.kind ≠ .eof := by
      rcases hKeyword with hIs | hIs
      · rw [hIs]
        decide
      · rw [hIs]
        decide
    refine ((obeyed_variableDecl hNested .localVariable
      hReady hFew hMore).bind hFew
        fun v => obeys_pure _).imp ?_
    rintro x t ⟨v, u, hDerives, rfl, rfl⟩
    exact .variableStatement hKeyword hDerives
  have hExpression :=
    obeys_expressionStatement hNested s hReady hFew
  unfold statement
  rw [outcome_bind, outcome_current]
  dsimp only
  split
  · rename_i hKind
    exact hVariable (.inl hKind)
  · rename_i hKind
    exact hVariable (.inr hKind)
  · rename_i hKind
    rw [outcome_bind, outcome_nextIsName hReady.ahead_ne]
    dsimp only
    by_cases hName : s.next.token.kind.isName
    · rw [if_pos hName]
      refine (((obeys_functionDecl hNested).bind
        fun f => obeys_pure _) s hReady hFew).imp ?_
      rintro x t ⟨f, u, hFunction, rfl, rfl⟩
      exact .functionStatement ⟨hKind, hName⟩ hFunction
    · rw [if_neg hName]
      refine hExpression.imp fun hRun => hRun ?_ ?_ ?_
      · rw [hKind]
        decide
      · rw [hKind]
        decide
      · exact fun hFunction => hName hFunction.2
  · rename_i hVal hVar hFun
    exact hExpression.imp fun hRun =>
      hRun hVal hVar fun hFunction => hFun hFunction.1

theorem obeys_statements
    {scope : ScopeId}
    (hNested : nested.Sound n) :
    Obeys n (scope :: scopes)
      (fun s xs t =>
        Derives .statements s (xs.filterMap id) t)
      (collect (nextStatement nested)) := by
  have hNext :
      Obeys n (scope :: scopes)
        (fun s r t =>
          (s.token.kind = .closeCurly ∨
                s.token.kind = .eof) ∧
              r = none ∧ t = s ∨
            s.token.kind ≠ .closeCurly ∧
              s.token.kind ≠ .eof ∧
                ∃ x,
                  r = some (some x) ∧
                    Derives .statement s x t)
        (nextStatement nested) := by
    intro s hReady hFew
    unfold nextStatement
    rw [outcome_unlessEnd]
    split
    · rename_i hGo
      have hRun :=
        obeys_statement hNested s hReady hFew
      refine ((obeyed_recovering blockCheckpoint hRun
        hGo.2).bind hFew fun r => obeys_pure _).imp ?_
      rintro r t ⟨_, u, ⟨x, rfl, hStatement⟩, rfl, rfl⟩
      exact .inr ⟨hGo.1, hGo.2, x, rfl, hStatement⟩
    · rename_i hStop
      refine .ok (.refl hReady) fun _ => .inl ⟨?_, rfl, rfl⟩
      by_cases hEnd : s.token.kind = .closeCurly
      · exact .inl hEnd
      · by_cases hText : s.token.kind = .eof
        · exact .inr hText
        · exact absurd ⟨hEnd, hText⟩ hStop
  refine (obeys_collect hNext ?_).imp ?_
  · rintro x s t (⟨-, h, -⟩ | ⟨-, -, y, -, hStatement⟩)
    · cases h
    · have hLeft := hStatement.left_le
      exact hLeft
  · intro s xs t hCollects
    induction hCollects with
    | stop hStop =>
        rcases hStop with ⟨hEnd, -, rfl⟩ | ⟨-, -, y, h, -⟩
        · exact .noStatements hEnd
        · cases h
    | more hStep _ ih =>
        rcases hStep with
          ⟨-, h, -⟩ | ⟨hSome, hGoesOn, y, h, hStatement⟩
        · cases h
        · cases h
          exact .someStatements hSome hGoesOn hStatement ih

theorem obeys_block
    (hNested : nested.Sound n)
    (start : Token) :
    Obeys n scopes (Derives (.block start))
      (block nested start) := by
  refine (obeys_inNewScope fun scope =>
    (obeys_statements hNested).bind fun xs =>
      (obeys_expect (by decide) _).bind fun stop =>
        obeys_pure _).imp ?_
  rintro s e t
    ⟨_, ⟨xs, u, hStatements, _, _, ⟨hClose, rfl, rfl⟩, rfl,
      rfl⟩, rfl⟩
  exact .block hStatements hClose

------------------------------------------------------------
-- Tying the knot
------------------------------------------------------------

/- No tokens are left where nothing may be nested. -/
theorem sound_nestedWithin :
    ∀ depth, (nestedWithin depth).Sound depth
  | 0 =>
      { expression := fun _ _ _ _ hFew =>
          absurd hFew (Nat.not_lt_zero _)
        block := fun _ _ _ _ hFew =>
          absurd hFew (Nat.not_lt_zero _) }
  | depth + 1 =>
      have hNested := sound_nestedWithin depth
      { expression := fun _ => obeys_expression hNested
        block := fun _ => obeys_block hNested }

end SourceCheck
