import SourceCheck.Grammar.Program
import SourceCheck.Proofs.Parsing.Sources
import SourceCheck.Proofs.Parsing.Standing
import SourceCheck.Proofs.Parsing.TypeLayers
import SourceCheck.Proofs.Syntax.Merging
import SourceCheck.Proofs.Syntax.Rules

/-
  Trees that stand in their texts.

  Each node that the parser makes starts where a token of the
  text starts, and each name of a type is what such a token
  stands for.  Written types are grouped as their joins bind:
  no union is a side of an intersection, and the right side
  of a join is never a join of the same kind.

  Key definitions include:
    * `TypeForm.Stands`
    * `NodeRules.standing`
    * `Program.Stands`

  Key theorems include:
    * `locates_typeExpr`
    * `locates_nestedWithin`
    * `locates_program`
-/

namespace SourceCheck

open SourceCheck.Parser
open SourceCheck.Grammar

------------------------------------------------------------
-- Rules
------------------------------------------------------------

/- The form is a union. -/
def TypeForm.isUnion : TypeForm → Bool
  | .union _ _ => true
  | _ => false

/- The form is a name. -/
def TypeForm.isName : TypeForm → Bool
  | .named _ => true
  | _ => false

/-
  A name is that of a token of which so much is known, and
  the joins in the form group as they bind.
-/
def TypeForm.Stands
    (T : Token → Prop) :
    TypeForm → Prop
  | .absent => True
  | .named name =>
      ∃ t, T t ∧ t.kind.isName ∧ name = t.name
  | .union _ right => right.form.isUnion = false
  | .intersection left right =>
      left.form.isUnion = false ∧ right.form.isName

/- Each node starts at a token of which so much is known. -/
def NodeRules.standing (T : Token → Prop) : NodeRules where
  ofExpr e := IsStart T e.span.start
  ofMember e := IsStart T e.span.start
  ofTypeExpr t := IsStart T t.span.start ∧ t.form.Stands T
  ofParameter p := IsStart T p.span.start
  ofVariable v := IsStart T v.span.start
  ofFunction f := IsStart T f.span.start

/- So do the names that a program imports. -/
structure Program.Stands
    (T : Token → Prop)
    (p : Program) :
    Prop where
  obeys : p.Obeys (.standing T)
  entries :
    ∀ i ∈ p.imports,
      ∀ e ∈ i.entries, IsStart T e.span.start

variable {T : Token → Prop}

theorem TypeExpr.Obeys.isStart
    {t : TypeExpr}
    (hStands : t.Obeys (.standing T)) :
    IsStart T t.span.start := by
  rcases t with ⟨form, span, type⟩
  exact hStands.1.1

theorem Expr.Obeys.isStart
    {e : Expr}
    (hStands : e.Obeys (.standing T)) :
    IsStart T e.span.start := by
  rcases e with ⟨form, span, type⟩
  exact hStands.1

/- The right side of an access stands as any expression. -/
theorem Expr.Obeys.standsAside
    {e : Expr}
    (hStands : e.Obeys (.standing T)) :
    e.ObeysAside (.standing T) := by
  rcases e with ⟨form, span, type⟩
  exact hStands

------------------------------------------------------------
-- Lists of nodes
------------------------------------------------------------

section Lists

variable {R : NodeRules}

theorem exprsObey_of_forall
    {es : List Expr}
    (hAll : ∀ e ∈ es, e.Obeys R) :
    exprsObey R es := by
  induction es with
  | nil => trivial
  | cons e es ih =>
      rcases List.forall_mem_cons.1 hAll with
        ⟨hFirst, hRest⟩
      exact ⟨hFirst, ih hRest⟩

theorem argumentsObey_of_forall
    {xs : List Argument}
    (hAll : ∀ x ∈ xs, x.value.Obeys R) :
    argumentsObey R xs := by
  induction xs with
  | nil => trivial
  | cons x xs ih =>
      rcases x with ⟨name, value, span⟩
      rcases List.forall_mem_cons.1 hAll with
        ⟨hFirst, hRest⟩
      exact ⟨hFirst, ih hRest⟩

theorem statementsObey_of_forall
    {xs : List Statement}
    (hAll : ∀ x ∈ xs, x.Obeys R) :
    statementsObey R xs := by
  induction xs with
  | nil => trivial
  | cons x xs ih =>
      rcases List.forall_mem_cons.1 hAll with
        ⟨hFirst, hRest⟩
      exact ⟨hFirst, ih hRest⟩

/- What a parameter is asked for, with what it is made of. -/
def Parameter.Obeys (R : NodeRules) (p : Parameter) : Prop :=
  R.ofParameter p ∧ p.typeExpr.Obeys R ∧
    optionObeys R p.fallback

theorem parametersObey_of_forall
    {ps : List Parameter}
    (hAll : ∀ p ∈ ps, p.Obeys R) :
    parametersObey R ps := by
  induction ps with
  | nil => trivial
  | cons p ps ih =>
      rcases p with ⟨name, typeExpr, fallback, id, span⟩
      rcases List.forall_mem_cons.1 hAll with
        ⟨hFirst, hRest⟩
      exact ⟨hFirst, ih hRest⟩

theorem exprs_obey
    {es : List Expr}
    (hObey : exprsObey R es) :
    ∀ e ∈ es, e.Obeys R := by
  induction es with
  | nil => exact nofun
  | cons e es ih =>
      exact List.forall_mem_cons.2 ⟨hObey.1, ih hObey.2⟩

theorem arguments_obey
    {xs : List Argument}
    (hObey : argumentsObey R xs) :
    ∀ x ∈ xs, x.value.Obeys R := by
  induction xs with
  | nil => exact nofun
  | cons x xs ih =>
      rcases x with ⟨name, value, span⟩
      exact List.forall_mem_cons.2 ⟨hObey.1, ih hObey.2⟩

theorem statements_obey
    {xs : List Statement}
    (hObey : statementsObey R xs) :
    ∀ x ∈ xs, x.Obeys R := by
  induction xs with
  | nil => exact nofun
  | cons x xs ih =>
      exact List.forall_mem_cons.2 ⟨hObey.1, ih hObey.2⟩

theorem parameters_obey
    {ps : List Parameter}
    (hObeys : parametersObey R ps) :
    ∀ p ∈ ps, p.Obeys R := by
  induction ps with
  | nil => exact nofun
  | cons p ps ih =>
      rcases p with ⟨name, typeExpr, fallback, id, span⟩
      exact List.forall_mem_cons.2 ⟨hObeys.1, ih hObeys.2⟩

theorem optionObeys_of_ifSome
    {o : Option Expr}
    (hSome : IfSome (Expr.Obeys R) o) :
    optionObeys R o := by
  cases o with
  | none => trivial
  | some e => exact hSome e rfl

end Lists

------------------------------------------------------------
-- Written types
------------------------------------------------------------

/- An operand of an intersection. -/
def IsStandingName (T : Token → Prop) (t : TypeExpr) : Prop :=
  t.Obeys (.standing T) ∧ t.form.isName

/- An operand of a union. -/
def IsStandingOperand
    (T : Token → Prop)
    (t : TypeExpr) :
    Prop :=
  t.Obeys (.standing T) ∧ t.form.isUnion = false

theorem locates_namedType :
    Locates T namedType (IsStandingName T) := by
  refine locates_ifName (fun t hToken hName => ?_)
    (locates_unexpected _)
  exact locates_pure
    ⟨⟨⟨isStart_of_token hToken, t, hToken, hName, rfl⟩,
      trivial⟩, rfl⟩

/- Operands with a property, joined to the left. -/
theorem locates_joined
    {join : TypeJoin}
    {operand : Parser TypeExpr}
    {Q R : TypeExpr → Prop}
    (hOperand : Locates T operand R)
    (hFirst : ∀ x, R x → Q x)
    (hJoin : ∀ x y, Q x → R y → Q (join.combine x y)) :
    Locates T (joined join operand) Q := by
  refine hOperand.bind fun x hX => ?_
  refine locates_loop (fun left hLeft => ?_) (hFirst x hX)
  refine (locates_accept _).bind fun _ _ => ?_
  refine locates_choice ?_ (locates_pure ifSome_none)
  exact hOperand.bind fun y hRight =>
    locates_pure (ifSome_some (hJoin left y hLeft hRight))

/- Joins are read around operands, if they bind enough. -/
theorem locates_joinedAbove
    {join : TypeJoin}
    {operand : Parser TypeExpr}
    {Q R : TypeExpr → Prop}
    (power : Power)
    (hOperand : Locates T operand R)
    (hFirst : ∀ x, R x → Q x)
    (hJoin : ∀ x y, Q x → R y → Q (join.combine x y)) :
    Locates T (joinedAbove power join operand) Q :=
  locates_choice (locates_joined hOperand hFirst hJoin)
    (hOperand.imp hFirst)

theorem isUnion_of_isName
    {form : TypeForm}
    (hName : form.isName) :
    form.isUnion = false := by
  cases form with
  | named name => rfl
  | _ => cases hName

theorem standing_intersection
    (x y : TypeExpr)
    (hLeft : IsStandingOperand T x)
    (hRight : IsStandingName T y) :
    IsStandingOperand T (TypeJoin.intersection.combine x y) :=
  ⟨⟨⟨hLeft.1.isStart, hLeft.2, hRight.2⟩, hLeft.1,
    hRight.1⟩, rfl⟩

theorem standing_union
    (x y : TypeExpr)
    (hLeft : x.Obeys (.standing T))
    (hRight : IsStandingOperand T y) :
    (TypeJoin.union.combine x y).Obeys (.standing T) :=
  ⟨⟨hLeft.isStart, hRight.2⟩, hLeft, hRight.1⟩

theorem locates_typeExpr (power : Power) :
    Locates T (typeExpr power)
      (TypeExpr.Obeys (.standing T)) := by
  have hOperand :
      Locates T (joinedAbove power .intersection namedType)
        (IsStandingOperand T) :=
    locates_joinedAbove power locates_namedType
      (fun x hX => ⟨hX.1, isUnion_of_isName hX.2⟩)
      standing_intersection
  rw [typeExpr_eq_layeredType]
  exact locates_joinedAbove power hOperand
    (fun x hX => hX.1) standing_union

theorem locates_optionalType
    (separator : TokenKind)
    {fallback : Span}
    (hPlace : IsStart T fallback.start) :
    Locates T (optionalType separator fallback)
      (TypeExpr.Obeys (.standing T)) := by
  refine (locates_accept separator).bind fun _ _ => ?_
  exact locates_choice (locates_typeExpr _)
    (locates_pure ⟨⟨hPlace, trivial⟩, trivial⟩)

------------------------------------------------------------
-- Arguments and parameters
------------------------------------------------------------

/- Nested expressions and blocks stand in their text. -/
structure Nested.Locates
    (T : Token → Prop)
    (nested : Nested) :
    Prop where
  expression :
    ∀ power,
      Parser.Locates T (nested.expression power)
        (IfSome (Expr.Obeys (.standing T)))
  block :
    ∀ start,
      T start →
        Parser.Locates T (nested.block start)
          (Expr.Obeys (.standing T))

theorem locates_missingExpression
    {α : Type}
    {Q : α → Prop} :
    Locates T (missingExpression : Parser α) Q := by
  refine locates_current.bind fun t hToken => ?_
  exact locates_choice
    (locates_fail _ (isStart_of_token hToken))
    (locates_fail _ (isStart_of_token hToken))

section Nested

variable {nested : Nested}

theorem locates_required
    (hNested : nested.Locates T)
    (power : Power) :
    Locates T (nested.required power)
      (Expr.Obeys (.standing T)) := by
  refine (hNested.expression power).bind fun o hSome => ?_
  cases o with
  | some e => exact locates_pure (hSome e rfl)
  | none => exact locates_missingExpression

/- A name in front of an argument is a token, if it is there. -/
theorem locates_argumentName :
    Locates T argumentName (IfSome T) := by
  refine locates_checkName.bind fun _ _ => ?_
  refine locates_choice ?_ (locates_pure ifSome_none)
  refine locates_consume.bind fun t hToken => ?_
  refine (locates_accept _).bind fun _ _ => ?_
  refine locates_choice
    (locates_pure (ifSome_some hToken)) ?_
  exact locates_unconsume.bind fun _ _ =>
    locates_pure ifSome_none

theorem locates_argument (hNested : nested.Locates T) :
    Locates T (argument nested)
      (fun x => x.value.Obeys (.standing T)) :=
  locates_argumentName.bind fun _ _ =>
    (locates_required hNested _).bind fun _ hValue =>
      locates_pure hValue

theorem locates_arguments (hNested : nested.Locates T) :
    Locates T (arguments nested)
      (fun r => argumentsObey (.standing T) r.1) := by
  refine (locates_separated _ _
    (locates_argument hNested)).bind fun xs hAll => ?_
  exact (locates_expect _ _).bind fun _ _ =>
    locates_pure (argumentsObey_of_forall hAll)

theorem locates_assigned (hNested : nested.Locates T) :
    Locates T (assigned nested)
      (IfSome (Expr.Obeys (.standing T))) := by
  refine (locates_accept _).bind fun _ _ => ?_
  refine locates_choice ?_ (locates_pure ifSome_none)
  exact (locates_required hNested _).bind fun _ hValue =>
    locates_pure (ifSome_some hValue)

theorem locates_parameter (hNested : nested.Locates T) :
    Locates T (parameter nested)
      (Parameter.Obeys (.standing T)) := by
  refine locates_expectName.bind fun name hName => ?_
  refine (locates_expect _ _).bind fun _ _ => ?_
  refine (locates_typeExpr _).bind fun type hType => ?_
  refine (locates_assigned hNested).bind
    fun fallback hFallback => ?_
  refine (locates_declare hName.1 _ _ _ _).bind
    fun _ _ => ?_
  exact locates_pure
    ⟨isStart_of_token hName.1, hType,
      optionObeys_of_ifSome hFallback⟩

theorem locates_lambdaParameter :
    Locates T lambdaParameter
      (Parameter.Obeys (.standing T)) := by
  refine locates_expectName.bind fun name hName => ?_
  refine (locates_accept _).bind fun _ _ => ?_
  have hStart := isStart_of_token hName.1
  have hRest
      (type : TypeExpr)
      (hType : type.Obeys (.standing T)) :
      Locates T
        (do
          let span := name.span.between type.span
          let definition ←
            declare name .argument span
              name.span.start.offset false
          return ⟨name.name, type, none, definition, span⟩)
        (Parameter.Obeys (.standing T)) :=
    (locates_declare hName.1 _ _ _ _).bind fun _ _ =>
      locates_pure ⟨hStart, hType, trivial⟩
  exact locates_choice
    ((locates_typeExpr _).bind hRest)
    ((locates_pure ⟨⟨hStart, trivial⟩, trivial⟩).bind
      hRest)

theorem locates_signature (hNested : nested.Locates T) :
    Locates T (signature nested)
      (fun r =>
        parametersObey (.standing T) r.1 ∧
          r.2.Obeys (.standing T)) := by
  refine (locates_expect _ _).bind fun _ _ => ?_
  refine (locates_separated _ _
    (locates_parameter hNested)).bind fun ps hAll => ?_
  refine (locates_expect _ _).bind fun stop hStop => ?_
  refine (locates_optionalType _
    (isStart_of_token hStop)).bind fun type hType => ?_
  exact locates_pure ⟨parametersObey_of_forall hAll, hType⟩

------------------------------------------------------------
-- Literals
------------------------------------------------------------

/- A new node stands where a token of its own starts. -/
theorem stands_new
    {form : ExprForm}
    {span : Span}
    (hStart : IsStart T span.start)
    (hForm : form.Obeys (.standing T)) :
    (Expr.new form span).Obeys (.standing T) :=
  ⟨hStart, hForm⟩

theorem obeys_of_intForm
    {R : NodeRules}
    {text : String}
    {form : ExprForm}
    (hForm : intForm? text = some form) :
    form.Obeys R := by
  unfold intForm? at hForm
  dsimp only at hForm
  split at hForm
  · obtain ⟨n, -, rfl⟩ := Option.map_eq_some_iff.1 hForm
    trivial
  · obtain ⟨n, -, rfl⟩ := Option.map_eq_some_iff.1 hForm
    trivial

theorem locates_intLiteral
    {token : Token}
    (hToken : T token) :
    Locates T (intLiteral token)
      (Expr.Obeys (.standing T)) := by
  have hStart := isStart_of_token hToken
  unfold intLiteral
  split
  · rename_i form hForm
    exact locates_pure
      (stands_new hStart (obeys_of_intForm hForm))
  · exact locates_fail _ hStart

/- A part of a string stands as an expression. -/
def StringPart.Stands
    (T : Token → Prop)
    (part : StringPart) :
    Prop :=
  part.expression.Obeys (.standing T)

theorem locates_stringPart
    (hNested : nested.Locates T)
    {token : Token}
    (hToken : T token) :
    Locates T (stringPart nested token)
      (StringPart.Stands T) := by
  have hStart := isStart_of_token hToken
  unfold stringPart
  split
  · exact locates_pure (stands_new hStart trivial)
  · split
    · exact locates_pure (stands_new hStart trivial)
    · exact locates_fail _ hStart
  · refine (locates_required hNested _).bind fun e hExpr => ?_
    exact (locates_expect _ _).bind fun _ _ =>
      locates_pure hExpr
  · exact locates_fail _ hStart
  · exact locates_fail _ hStart

theorem locates_nextStringPart (hNested : nested.Locates T) :
    Locates T (nextStringPart nested)
      (IfSome (StringPart.Stands T)) := by
  refine (locates_see _).bind fun _ _ => ?_
  refine (locates_see _).bind fun _ _ => ?_
  refine locates_choice ?_ (locates_pure ifSome_none)
  refine locates_consume.bind fun t hToken => ?_
  exact (locates_stringPart hNested hToken).bind
    fun _ hPart => locates_pure (ifSome_some hPart)

/- Texts that are joined stand where the first of them does. -/
theorem stands_consMerged
    {e : Expr}
    {es : List Expr}
    (hFirst : e.Obeys (.standing T))
    (hOthers : exprsObey (.standing T) es) :
    exprsObey (.standing T) (consMerged e es) := by
  unfold consMerged
  split
  · exact ⟨stands_new hFirst.isStart trivial, hOthers.2⟩
  · exact ⟨hFirst, hOthers⟩

theorem stands_mergeTexts
    {es : List Expr}
    (hExprs : exprsObey (.standing T) es) :
    exprsObey (.standing T) (mergeTexts es) := by
  induction es with
  | nil => exact hExprs
  | cons e es ih =>
      rw [mergeTexts_cons]
      exact stands_consMerged hExprs.1 (ih hExprs.2)

theorem stands_stringForm
    {parts : List StringPart}
    (hParts : ∀ x ∈ parts, x.Stands T) :
    (stringForm parts).Obeys (.standing T) := by
  unfold stringForm
  split
  · exact stands_mergeTexts
      (exprsObey_of_forall (List.forall_mem_map.2 hParts))
  · trivial

theorem locates_stringLiteral
    (hNested : nested.Locates T)
    {token : Token}
    (hToken : T token) :
    Locates T (stringLiteral nested token)
      (Expr.Obeys (.standing T)) := by
  refine (locates_collect
    (locates_nextStringPart hNested)).bind
      fun parts hParts => ?_
  exact (locates_expect _ _).bind fun _ _ =>
    locates_pure (stands_new (isStart_of_token hToken)
      (stands_stringForm hParts))

------------------------------------------------------------
-- Compound expressions
------------------------------------------------------------

theorem locates_reference
    (hNested : nested.Locates T)
    {token : Token}
    (hToken : T token) :
    Locates T (Grammar.reference nested token)
      (Expr.Obeys (.standing T)) := by
  have hStart := isStart_of_token hToken
  refine (locates_accept _).bind fun _ _ => ?_
  refine locates_choice ?_
    (locates_pure (stands_new hStart trivial))
  exact (locates_arguments hNested).bind fun r hAll =>
    locates_pure (stands_new hStart hAll)

theorem locates_unary
    (hNested : nested.Locates T)
    {token : Token}
    (hToken : T token) :
    Locates T (unary nested token)
      (Expr.Obeys (.standing T)) :=
  (locates_required hNested _).bind fun _ hOperand =>
    locates_pure
      (stands_new (isStart_of_token hToken) hOperand)

theorem locates_grouping
    (hNested : nested.Locates T)
    {token : Token}
    (hToken : T token) :
    Locates T (grouping nested token)
      (Expr.Obeys (.standing T)) :=
  (locates_required hNested _).bind fun _ hInner =>
    (locates_expect _ _).bind fun _ _ =>
      locates_pure
        (stands_new (isStart_of_token hToken) hInner)

theorem locates_elseBranch (hNested : nested.Locates T) :
    Locates T (elseBranch nested)
      (IfSome (Expr.Obeys (.standing T))) := by
  refine (locates_accept _).bind fun _ _ => ?_
  refine locates_choice ?_ (locates_pure ifSome_none)
  exact (locates_required hNested _).bind fun _ hBranch =>
    locates_pure (ifSome_some hBranch)

theorem locates_conditional
    (hNested : nested.Locates T)
    {token : Token}
    (hToken : T token) :
    Locates T (conditional nested token)
      (Expr.Obeys (.standing T)) := by
  refine (locates_expect _ _).bind fun _ _ => ?_
  refine (locates_required hNested _).bind
    fun _ hCondition => ?_
  refine (locates_expect _ _).bind fun _ _ => ?_
  refine (locates_required hNested _).bind fun _ hThen => ?_
  refine (locates_elseBranch hNested).bind fun _ hElse => ?_
  exact locates_pure
    (stands_new (isStart_of_token hToken)
      ⟨hCondition, hThen, optionObeys_of_ifSome hElse⟩)

theorem locates_nestedBlock
    (hNested : nested.Locates T) :
    Locates T
      (do
        if ← check .openCurly then
          return some (← nested.block (← consume))
        else
          return none)
      (IfSome (Expr.Obeys (.standing T))) := by
  refine (locates_see _).bind fun _ _ => ?_
  refine locates_choice ?_ (locates_pure ifSome_none)
  refine locates_consume.bind fun t hToken => ?_
  exact (hNested.block t hToken).bind fun _ hBlock =>
    locates_pure (ifSome_some hBlock)

theorem locates_functionBody (hNested : nested.Locates T) :
    Locates T (functionBody nested)
      (IfSome (Expr.Obeys (.standing T))) := by
  refine (locates_assigned hNested).bind fun o hSome => ?_
  cases o with
  | some e => exact locates_pure hSome
  | none => exact locates_nestedBlock hNested

theorem locates_functionLiteral
    (hNested : nested.Locates T)
    {token : Token}
    (hToken : T token) :
    Locates T (functionLiteral nested token)
      (Expr.Obeys (.standing T)) := by
  refine locates_checkName.bind fun _ _ => ?_
  refine locates_choice ?_ ?_
  · exact locates_position.bind fun _ hPlace =>
      locates_fail _ hPlace
  refine locates_inNewScope fun scope => ?_
  refine (locates_signature hNested).bind fun r hParts => ?_
  refine (locates_functionBody hNested).bind fun o hSome => ?_
  cases o with
  | none =>
      exact locates_position.bind fun _ hPlace =>
        locates_fail _ hPlace
  | some body =>
      exact locates_pure
        (stands_new (isStart_of_token hToken)
          ⟨hParts.1, hParts.2, hSome body rfl⟩)

theorem locates_lambda
    (hNested : nested.Locates T)
    {token : Token}
    (hToken : T token) :
    Locates T (lambda nested token)
      (Expr.Obeys (.standing T)) := by
  refine locates_inNewScope fun scope => ?_
  refine (locates_separated _ _
    locates_lambdaParameter).bind fun ps hAll => ?_
  refine (locates_expect _ _).bind fun _ _ => ?_
  refine (locates_required hNested _).bind fun _ hBody => ?_
  exact locates_pure
    (stands_new (isStart_of_token hToken)
      ⟨parametersObey_of_forall hAll, hBody⟩)

theorem locates_ret
    (hNested : nested.Locates T)
    {token : Token}
    (hToken : T token) :
    Locates T (ret nested token)
      (Expr.Obeys (.standing T)) :=
  (hNested.expression _).bind fun _ hValue =>
    locates_pure (stands_new (isStart_of_token hToken)
      (optionObeys_of_ifSome hValue))

------------------------------------------------------------
-- Extensions
------------------------------------------------------------

section Extensions

variable {left : Expr}
variable {operator : Token}

theorem locates_binary
    (hNested : nested.Locates T)
    (hLeft : left.Obeys (.standing T))
    (hToken : T operator)
    (power : Power) :
    Locates T (binary nested left operator power)
      (Expr.Obeys (.standing T)) := by
  unfold binary
  split
  · exact locates_fail _ (isStart_of_token hToken)
  · exact (locates_required hNested _).bind fun _ hRight =>
      locates_pure
        (stands_new hLeft.isStart ⟨hLeft, hRight⟩)

theorem locates_assignment
    (hNested : nested.Locates T)
    (hLeft : left.Obeys (.standing T))
    (hToken : T operator)
    (power : Power) :
    Locates T (assignment nested left operator power)
      (Expr.Obeys (.standing T)) := by
  unfold assignment
  split
  · exact locates_fail _ (isStart_of_token hToken)
  · exact (locates_required hNested _).bind fun _ hValue =>
      locates_pure
        (stands_new hLeft.isStart ⟨hLeft, hValue⟩)

theorem locates_memberAccess
    (hNested : nested.Locates T)
    (hLeft : left.Obeys (.standing T))
    (power : Power) :
    Locates T (memberAccess nested left operator power)
      (Expr.Obeys (.standing T)) := by
  refine locates_checkName.bind fun _ _ => ?_
  refine locates_choice ?_ (locates_unexpected _)
  refine (locates_required hNested _).bind
    fun right hRight => ?_
  exact locates_choice
    (locates_pure
      (stands_new hLeft.isStart
        ⟨hLeft, hRight.standsAside⟩))
    (locates_fail _ hRight.isStart)

theorem locates_call
    (hNested : nested.Locates T)
    (hLeft : left.Obeys (.standing T)) :
    Locates T (call nested left)
      (Expr.Obeys (.standing T)) :=
  (locates_arguments hNested).bind fun _ hAll =>
    locates_pure (stands_new hLeft.isStart ⟨hLeft, hAll⟩)

end Extensions

------------------------------------------------------------
-- Expressions
------------------------------------------------------------

theorem locates_starter
    (hNested : nested.Locates T)
    {token : Token}
    (hToken : T token)
    (starter : Starter) :
    Locates T (starter.parser nested token)
      (Expr.Obeys (.standing T)) := by
  cases starter with
  | int => exact locates_intLiteral hToken
  | boolean =>
      exact locates_pure
        (stands_new (isStart_of_token hToken) trivial)
  | string => exact locates_stringLiteral hNested hToken
  | reference => exact locates_reference hNested hToken
  | unary => exact locates_unary hNested hToken
  | grouping => exact locates_grouping hNested hToken
  | block => exact hNested.block token hToken
  | conditional => exact locates_conditional hNested hToken
  | function => exact locates_functionLiteral hNested hToken
  | lambda => exact locates_lambda hNested hToken
  | ret => exact locates_ret hNested hToken

theorem locates_extender
    (hNested : nested.Locates T)
    {left : Expr}
    (hLeft : left.Obeys (.standing T))
    {operator : Token}
    (hToken : T operator)
    (extender : Extender)
    (power : Power) :
    Locates T (extender.parser nested left operator power)
      (Expr.Obeys (.standing T)) := by
  cases extender with
  | binary => exact locates_binary hNested hLeft hToken power
  | assignment =>
      exact locates_assignment hNested hLeft hToken power
  | member => exact locates_memberAccess hNested hLeft power
  | call => exact locates_call hNested hLeft

theorem locates_extend
    (hNested : nested.Locates T)
    (power : Power)
    (left : Expr)
    (hLeft : left.Obeys (.standing T)) :
    Locates T (extend nested power left)
      (IfSome (Expr.Obeys (.standing T))) := by
  refine locates_current.bind fun t _ => ?_
  split
  · exact locates_pure ifSome_none
  · rename_i extender operatorPower _
    refine locates_choice ?_ (locates_pure ifSome_none)
    refine locates_consume.bind fun operator hToken => ?_
    exact (locates_extender hNested hLeft hToken extender
      operatorPower).bind fun _ hExpr =>
        locates_pure (ifSome_some hExpr)

theorem locates_expression
    (hNested : nested.Locates T)
    (power : Power) :
    Locates T (expression nested power)
      (IfSome (Expr.Obeys (.standing T))) := by
  refine locates_consume.bind fun token hToken => ?_
  split
  · exact locates_unconsume.bind fun _ _ =>
      locates_pure ifSome_none
  · rename_i starter _
    refine (locates_starter hNested hToken starter).bind
      fun first hFirst => ?_
    refine (locates_loop (locates_extend hNested power)
      hFirst).bind fun _ hExpr => ?_
    exact locates_pure (ifSome_some hExpr)

------------------------------------------------------------
-- Declarations and statements
------------------------------------------------------------

theorem locates_variableDecl
    (hNested : nested.Locates T)
    (kind : DefinitionKind) :
    Locates T (variableDecl nested kind)
      (VariableDecl.Obeys (.standing T)) := by
  refine locates_consume.bind fun keyword hKeyword => ?_
  refine locates_expectName.bind fun name hName => ?_
  refine (locates_optionalType _
    (isStart_of_token hName.1)).bind fun type hType => ?_
  refine (locates_assigned hNested).bind
    fun initializer hValue => ?_
  refine (locates_expect _ _).bind fun _ _ => ?_
  refine (locates_declare hName.1 _ _ _ _).bind
    fun _ _ => ?_
  exact locates_pure
    ⟨isStart_of_token hKeyword, hType,
      optionObeys_of_ifSome hValue⟩

theorem locates_namedFunctionBody
    (hNested : nested.Locates T) :
    Locates T (namedFunctionBody nested)
      (IfSome (Expr.Obeys (.standing T))) := by
  refine (locates_assigned hNested).bind fun o hSome => ?_
  cases o with
  | some e =>
      exact (locates_expect _ _).bind fun _ _ =>
        locates_pure hSome
  | none =>
      refine (locates_see _).bind fun _ _ => ?_
      refine locates_choice ?_ ?_
      · refine locates_consume.bind fun t hToken => ?_
        exact (hNested.block t hToken).bind fun _ hBlock =>
          locates_pure (ifSome_some hBlock)
      · exact (locates_accept _).bind fun _ _ =>
          locates_pure ifSome_none

/- Parameters, result and body of a function. -/
def IsStandingFunction
    (T : Token → Prop)
    (r : List Parameter × TypeExpr × Option Expr × ScopeId) :
    Prop :=
  parametersObey (.standing T) r.1 ∧
    r.2.1.Obeys (.standing T) ∧
      optionObeys (.standing T) r.2.2.1

theorem locates_functionDecl (hNested : nested.Locates T) :
    Locates T (functionDecl nested)
      (FunctionDecl.Obeys (.standing T)) := by
  refine (locates_expect _ _).bind fun keyword hKeyword => ?_
  refine locates_expectName.bind fun name hName => ?_
  refine Locates.bind (Q := IsStandingFunction T)
    (locates_inNewScope fun scope => ?_) fun r hParts => ?_
  · refine (locates_signature hNested).bind
      fun r hParts => ?_
    exact (locates_namedFunctionBody hNested).bind
      fun _ hBody => locates_pure
        ⟨hParts.1, hParts.2, optionObeys_of_ifSome hBody⟩
  refine locates_previous.bind fun _ _ => ?_
  refine (locates_declare hName.1 _ _ _ _).bind
    fun _ _ => ?_
  exact locates_pure
    ⟨isStart_of_token hKeyword, hParts.1, hParts.2.1,
      hParts.2.2⟩

theorem locates_expressionStatement
    (hNested : nested.Locates T) :
    Locates T (expressionStatement nested)
      (Statement.Obeys (.standing T)) := by
  refine (locates_required hNested _).bind fun e hExpr => ?_
  have hDone :
      Locates T (pure (.expression e) : Parser Statement)
        (Statement.Obeys (.standing T)) :=
    locates_pure hExpr
  refine (locates_accept _).bind fun _ _ => ?_
  refine locates_choice hDone (locates_choice hDone ?_)
  exact (locates_see _).bind fun _ _ =>
    locates_choice hDone (locates_unexpected _)

theorem locates_statement (hNested : nested.Locates T) :
    Locates T (statement nested)
      (Statement.Obeys (.standing T)) := by
  have hVariable :
      Locates T
        (do
          return Statement.variable
            (← variableDecl nested .localVariable))
        (Statement.Obeys (.standing T)) :=
    (locates_variableDecl hNested _).bind fun _ hDecl =>
      locates_pure hDecl
  have hNext : Locates T nextIsName (fun _ => True) :=
    locates_consume.bind fun _ _ =>
      locates_checkName.bind fun _ _ =>
        locates_unconsume.bind fun _ _ => locates_pure trivial
  refine locates_current.bind fun t _ => ?_
  split
  · exact hVariable
  · exact hVariable
  · refine hNext.bind fun _ _ => ?_
    refine locates_choice ?_
      (locates_expressionStatement hNested)
    exact (locates_functionDecl hNested).bind fun _ hDecl =>
      locates_pure hDecl
  · exact locates_expressionStatement hNested

theorem locates_block
    (hNested : nested.Locates T)
    {start : Token}
    (hToken : T start) :
    Locates T (block nested start)
      (Expr.Obeys (.standing T)) := by
  have hNext :
      Locates T (nextStatement nested)
        (IfSome (IfSome (Statement.Obeys (.standing T)))) := by
    refine (locates_see _).bind fun _ _ => ?_
    refine (locates_see _).bind fun _ _ => ?_
    refine locates_choice ?_ (locates_pure ifSome_none)
    exact (locates_recovering
      (locates_statement hNested) _).bind fun _ hSome =>
        locates_pure (ifSome_some hSome)
  refine locates_inNewScope fun scope => ?_
  refine (locates_collect hNext).bind fun xs hAll => ?_
  refine (locates_expect _ _).bind fun _ _ => ?_
  refine locates_pure (stands_new (isStart_of_token hToken)
    (statementsObey_of_forall ?_))
  intro x hMember
  obtain ⟨o, hFound, hSome⟩ := List.mem_filterMap.1 hMember
  exact hAll o hFound x hSome

end Nested

/- Nested expressions and blocks stand at every depth. -/
theorem locates_nestedWithin :
    ∀ depth : Nat, (nestedWithin depth).Locates T
  | 0 =>
      { expression := fun _ => locates_pure ifSome_none
        block := fun _ _ => locates_missingExpression }
  | depth + 1 =>
      { expression := fun power =>
          locates_expression (locates_nestedWithin depth) power
        block := fun _ hToken =>
          locates_block (locates_nestedWithin depth) hToken }

/- So they do for all that a text may nest. -/
theorem locates_closed
    {α : Type}
    {parser : Nested → Parser α}
    {Q : α → Prop}
    (hParser :
      ∀ depth, Locates T (parser (nestedWithin depth)) Q) :
    Locates T (closed parser) Q :=
  locates_get.bind fun _ _ => hParser _

------------------------------------------------------------
-- Programs
------------------------------------------------------------

section Programs

variable {nested : Nested}

theorem locates_importEntry :
    Locates T importEntry
      (fun e => IsStart T e.span.start) := by
  refine locates_expectName.bind fun name hName => ?_
  have hStart := isStart_of_token hName.1
  refine (locates_accept _).bind fun _ _ => ?_
  refine locates_choice ?_ (locates_pure hStart)
  exact locates_expectName.bind fun _ _ => locates_pure hStart

theorem locates_importFrom (hNested : nested.Locates T) :
    Locates T (importFrom nested)
      (fun i =>
        ∀ e ∈ i.entries, IsStart T e.span.start) := by
  refine (locates_expect _ _).bind fun _ _ => ?_
  refine (locates_expect _ _).bind fun quote hQuote => ?_
  refine (locates_stringLiteral hNested hQuote).bind
    fun path hPath => ?_
  refine (locates_expect _ _).bind fun _ _ => ?_
  refine (locates_separated _ _ locates_importEntry).bind
    fun entries hEntries => ?_
  refine (locates_expect _ _).bind fun _ _ => ?_
  have hValue :
      Locates T (plainPath path) (fun _ => True) := by
    unfold plainPath
    split
    · exact locates_pure trivial
    · exact locates_fail _ hPath.isStart
  exact hValue.bind fun _ _ => locates_pure hEntries

theorem locates_declaration (hNested : nested.Locates T) :
    Locates T (declaration nested)
      (Declaration.Obeys (.standing T)) := by
  have hProperty :
      Locates T
        (do
          return Declaration.property
            (← variableDecl nested .property))
        (Declaration.Obeys (.standing T)) :=
    (locates_variableDecl hNested _).bind fun _ hDecl =>
      locates_pure hDecl
  have hFail (problem : Problem) :
      Locates T
        (do fail problem (← position) : Parser Declaration)
        (Declaration.Obeys (.standing T)) :=
    locates_position.bind fun _ hPlace =>
      locates_fail _ hPlace
  refine locates_current.bind fun t _ => ?_
  split
  · exact (locates_functionDecl hNested).bind fun _ hDecl =>
      locates_pure hDecl
  · exact hProperty
  · exact hProperty
  · exact hFail _
  · exact locates_unexpected _
  · exact hFail _

/- What is left of parts that may have failed. -/
theorem forall_mem_filterMap
    {α : Type}
    {Q : α → Prop}
    {os : List (Option α)}
    (hAll : ∀ o ∈ os, IfSome Q o) :
    ∀ a ∈ os.filterMap id, Q a := by
  intro a hMember
  obtain ⟨o, hFound, hSome⟩ := List.mem_filterMap.1 hMember
  exact hAll o hFound a hSome

theorem locates_program (hNested : nested.Locates T) :
    Locates T (program nested) (Program.Stands T) := by
  have hImport :
      Locates T (nextImport nested)
        (IfSome (IfSome
          (fun i =>
            ∀ e ∈ i.entries, IsStart T e.span.start))) := by
    refine (locates_see _).bind fun _ _ => ?_
    refine (locates_see _).bind fun _ _ => ?_
    refine locates_choice ?_ (locates_pure ifSome_none)
    exact (locates_recovering
      (locates_importFrom hNested) _).bind fun _ hSome =>
        locates_pure (ifSome_some hSome)
  have hDeclaration :
      Locates T (nextDeclaration nested)
        (IfSome
          (IfSome (Declaration.Obeys (.standing T)))) := by
    refine (locates_see _).bind fun _ _ => ?_
    refine locates_choice ?_ (locates_pure ifSome_none)
    exact (locates_recovering
      (locates_declaration hNested) _).bind fun _ hSome =>
        locates_pure (ifSome_some hSome)
  refine locates_inNewScope fun scope => ?_
  refine (locates_collect hImport).bind
    fun imports hImports => ?_
  refine (locates_collect hDeclaration).bind
    fun declarations hDeclarations => ?_
  refine (locates_expect _ _).bind fun _ _ => ?_
  refine locates_takeSymbols.bind fun _ _ => ?_
  exact locates_pure
    ⟨forall_mem_filterMap hDeclarations,
      forall_mem_filterMap hImports⟩

end Programs

------------------------------------------------------------
-- Sources
------------------------------------------------------------

/- The token is one of the source text. -/
def IsTokenOf (source file : String) (t : Token) : Prop :=
  t ∈ tokenize source (some file)

/- At the start of a text its own tokens are seen. -/
theorem stands_start (source file : String) :
    (ParserState.start (.ofSource source file) file).Shows
      (IsTokenOf source file) := by
  rcases ofSource_eq source file with
    ⟨hBefore, hAhead, hLast⟩
  unfold ParserState.start
  refine ⟨⟨?_, ?_, ?_⟩, nofun⟩
  · rw [hBefore]
    exact nofun
  · rw [hAhead]
    exact fun _ => id
  · exact List.mem_of_getLast? hLast

/- What parsing a text gives, or where it reports. -/
theorem located_parse
    {α : Type}
    {source file : String}
    {p : Parser α}
    {Q : α → Prop}
    (hLocates : Locates (IsTokenOf source file) p Q) :
    (∀ a, parse source file p = .ok a → Q a) ∧
      ∀ ds,
        parse source file p = .error ds →
          ∀ d ∈ ds,
            IsStart (IsTokenOf source file) d.position := by
  have hOutcome := hLocates _ (stands_start source file)
  rw [parse_eq]
  generalize p.outcome _ = x at hOutcome ⊢
  rcases x with ⟨d | a, t⟩
  · refine ⟨nofun, ?_⟩
    rintro _ ⟨⟩
    exact List.forall_mem_append.2
      ⟨hOutcome.1.reports,
        List.forall_mem_singleton.2 hOutcome.2⟩
  · dsimp only
    split
    · refine ⟨?_, nofun⟩
      rintro _ ⟨⟩
      exact hOutcome.2
    · refine ⟨nofun, ?_⟩
      rintro _ ⟨⟩
      exact hOutcome.1.reports

/- A whole program stands in its text. -/
theorem located_parseProgram (source file : String) :
    (∀ p,
        parseProgram source file = .ok p →
          p.Stands (IsTokenOf source file)) ∧
      ∀ ds,
        parseProgram source file = .error ds →
          ∀ d ∈ ds,
            IsStart (IsTokenOf source file) d.position :=
  located_parse
    (locates_closed fun depth =>
      locates_program (locates_nestedWithin depth))

end SourceCheck
