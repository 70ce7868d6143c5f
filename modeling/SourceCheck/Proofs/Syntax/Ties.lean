import SourceCheck.Proofs.Parsing.Relations
import SourceCheck.Proofs.Syntax.Program

/-
  Relations of parsers hold of the grammar.

  One statement stands here for each parser, in the order of
  the grammar.  Two families of parsers for nested
  expressions and blocks are given, of which the second one
  may be any that the first one is related to.

  Key definitions include:
    * `ParserRelation.NestedTies`

  Key theorems include:
    * `ParserRelation.tiesStep_expression`
    * `ParserRelation.ties_block`
    * `ParserRelation.tiesStep_nextImport`
    * `ParserRelation.tiesStep_nextDeclaration`
    * `ParserRelation.nestedTies_nestedWithin`
-/

namespace SourceCheck

namespace ParserRelation

open SourceCheck.Parser
open SourceCheck.ParserState
open SourceCheck.Grammar

variable {L : ParserRelation}
variable {n : Nat}
variable {scopes : List ScopeId}

------------------------------------------------------------
-- Parsers of what is not nested
------------------------------------------------------------

theorem always_namedType : L.Always namedType :=
  always_checkName.bind fun _ =>
    always_ite (always_consume.bind fun _ => always_pure _)
      (always_unexpected _)

theorem tiesStep_joinNext
    (join : TypeJoin)
    {operand : Parser TypeExpr}
    (hOperand : L.Ties n scopes operand operand)
    (left : TypeExpr) :
    L.TiesStep n scopes (joinNext join operand left)
      (joinNext join operand left) :=
  tiesStep_ifAccept (by cases join <;> decide)
    (hOperand.bind fun _ => ties_pure _)

theorem ties_joinedAbove
    (power : Power)
    (join : TypeJoin)
    {operand : Parser TypeExpr}
    (hOperand : L.Ties n scopes operand operand) :
    L.Ties n scopes (joinedAbove power join operand)
      (joinedAbove power join operand) :=
  ties_ite
    (hOperand.bind (ties_loop fun left =>
      (tiesStep_joinNext join hOperand left).ties))
    hOperand

theorem ties_namedType :
    L.Ties n scopes namedType namedType :=
  always_namedType.ties obeys_namedType

theorem ties_typeExpr (power : Power) :
    L.Ties n scopes (typeExpr power) (typeExpr power) := by
  rw [typeExpr_eq_layeredType]
  exact ties_joinedAbove power .union
    (ties_joinedAbove power .intersection ties_namedType)

theorem tiesStep_typeStep (power : Power) (left : TypeExpr) :
    L.TiesStep n scopes (typeStep power left)
      (typeStep power left) := by
  intro s hReady hFew
  refine .look (·.current) ?_
  split
  · exact tiedStep_none hReady
  · rename_i join hJoin
    have hToken : s.token.kind = join.token :=
      token_of_typeJoin? hJoin
    have hMore : s.token.kind ≠ .eof :=
      hToken ▸ token_ne_eof join
    have hPassed := left_next hMore
    have hFewer : 2 * s.next.left < n := by omega
    split
    · exact (tiedPast_consume hReady hMore
        ((ties_typeExpr join.power).bind
          (fun _ => ties_pure _) s.next (hReady.next hMore)
            hFewer)).step
    · exact tiedStep_none hReady

theorem ties_optionalType
    {separator : TokenKind}
    (hSeparator : separator ≠ .eof)
    (fallback : Span) :
    L.Ties n scopes (optionalType separator fallback)
      (optionalType separator fallback) :=
  (ties_accept hSeparator).bind fun _ =>
    ties_ite (ties_typeExpr .loosest) (ties_pure _)

theorem ties_argumentName :
    L.Ties n scopes argumentName argumentName := by
  have hAlways : L.Always argumentName :=
    always_checkName.bind fun _ =>
      always_ite
        (always_consume.bind fun name =>
          (always_accept .assignment).bind fun _ =>
            always_ite (always_pure (some name))
              (always_unconsume.bind fun _ =>
                always_pure none))
        (always_pure none)
  exact hAlways.ties obeys_argumentName

theorem ties_missingExpression {α : Type} :
    L.Ties n scopes (missingExpression : Parser α)
      missingExpression :=
  (ties_look _).bind fun _ =>
    ties_ite (ties_fail _ _) (ties_fail _ _)

/- It gives no expression. -/
theorem outcome_missingExpression
    {α : Type}
    {a : α}
    {s t : ParserState} :
    (missingExpression : Parser α).outcome s ≠
      (.ok a, t) := by
  intro hRun
  unfold missingExpression at hRun
  rw [outcome_bind, outcome_current] at hRun
  dsimp only at hRun
  split at hRun
  · cases hRun
  · cases hRun

theorem ties_lambdaParameter {scope : ScopeId} :
    L.Ties n (scope :: scopes) lambdaParameter
      lambdaParameter :=
  ties_expectName.bind fun name =>
    (ties_accept (by decide)).bind fun _ =>
      ties_ite
        ((ties_typeExpr .logicalOr).bind fun _ =>
          (ties_declare name _ _ _ _).bind fun _ =>
            ties_pure _)
        ((ties_pure _).bind fun _ =>
          (ties_declare name _ _ _ _).bind fun _ =>
            ties_pure _)

theorem ties_intLiteral (token : Token) :
    L.Ties n scopes (intLiteral token) (intLiteral token) := by
  unfold intLiteral
  split
  · exact ties_pure _
  · exact ties_fail _ _

theorem ties_importEntry :
    L.Ties n scopes importEntry importEntry :=
  ties_expectName.bind fun _ =>
    (ties_accept (by decide)).bind fun _ =>
      ties_ite (ties_expectName.bind fun _ => ties_pure _)
        (ties_pure _)

theorem ties_plainPath (path : Expr) :
    L.Ties n scopes (plainPath path) (plainPath path) := by
  unfold plainPath
  split
  · exact ties_pure _
  · exact ties_fail _ _

------------------------------------------------------------
-- Nested expressions and blocks
------------------------------------------------------------

/-
  The parsers of nested expressions and blocks are related
  where not too many tokens are left.
-/
structure NestedTies
    (L : ParserRelation)
    (n : Nat)
    (nested nested' : Nested) :
    Prop where
  expression :
    ∀ scopes power,
      L.TiesStep n scopes (nested.expression power)
        (nested'.expression power)
  block :
    ∀ scopes start,
      L.Ties (n - 1) scopes (nested.block start)
        (nested'.block start)

variable {nested nested' : Nested}

/- An expression that is there passes a token. -/
theorem tiesPast_required
    (hNested : L.NestedTies n nested nested')
    (power : Power) :
    L.TiesPast n scopes (nested.required power)
      (nested'.required power) := by
  intro s hReady hFew
  have hFirst := hNested.expression scopes power s hReady hFew
  refine ⟨hFirst.toTied.bind hFew fun r => ?_, ?_⟩
  · cases r with
    | none => exact ties_missingExpression
    | some e => exact ties_pure e
  · intro e t hRun
    unfold Nested.required at hRun
    rw [outcome_bind] at hRun
    rcases hOutcome : (nested.expression power).outcome s
      with ⟨d | r, u⟩
    · rw [hOutcome] at hRun
      cases hRun
    · rw [hOutcome] at hRun
      cases r with
      | none => exact absurd hRun outcome_missingExpression
      | some f =>
          cases hRun
          exact hFirst.left_lt hOutcome

theorem ties_required
    (hNested : L.NestedTies n nested nested')
    (power : Power) :
    L.Ties n scopes (nested.required power)
      (nested'.required power) :=
  (tiesPast_required hNested power).ties

theorem ties_behind
    (hNested : L.NestedTies n nested nested')
    {kind : TokenKind}
    (hKind : kind ≠ .eof) :
    L.Ties n scopes
      (do
        if ← accept kind then
          return some (← nested.required .loosest)
        else
          return none)
      (do
        if ← accept kind then
          return some (← nested'.required .loosest)
        else
          return none) :=
  (ties_accept hKind).bind fun _ =>
    ties_ite
      ((ties_required hNested .loosest).bind
        fun e => ties_pure (some e))
      (ties_pure none)

------------------------------------------------------------
-- Arguments and parameters
------------------------------------------------------------

theorem ties_argument
    (hNested : L.NestedTies n nested nested') :
    L.Ties n scopes (argument nested) (argument nested') :=
  ties_argumentName.bind fun _ =>
    (ties_required hNested .loosest).bind
      fun _ => ties_pure _

theorem ties_arguments
    (hNested : L.NestedTies n nested nested') :
    L.Ties n scopes (arguments nested)
      (arguments nested') :=
  (ties_separated (by decide) _
    (ties_argument hNested)).bind
    fun _ =>
      (ties_expect (by decide) _).bind fun _ => ties_pure _

theorem ties_parameter
    {scope : ScopeId}
    (hNested : L.NestedTies n nested nested') :
    L.Ties n (scope :: scopes) (parameter nested)
      (parameter nested') :=
  ties_expectName.bind fun _ =>
    (ties_expect (by decide) _).bind fun _ =>
      (ties_typeExpr .loosest).bind fun _ =>
        (ties_behind hNested (by decide)).bind fun _ =>
          (ties_declare _ _ _ _ _).bind fun _ => ties_pure _

theorem ties_signature
    {scope : ScopeId}
    (hNested : L.NestedTies n nested nested') :
    L.Ties n (scope :: scopes) (signature nested)
      (signature nested') :=
  (ties_expect (by decide) _).bind fun _ =>
    (ties_separated (by decide) _
      (ties_parameter hNested)).bind fun _ =>
        (ties_expect (by decide) _).bind fun _ =>
          (ties_optionalType (by decide) _).bind
            fun _ => ties_pure _

------------------------------------------------------------
-- Strings
------------------------------------------------------------

theorem ties_stringPart
    (hNested : L.NestedTies n nested nested')
    (token : Token) :
    L.Ties n scopes (stringPart nested token)
      (stringPart nested' token) := by
  unfold stringPart
  split
  · exact ties_pure _
  · split
    · exact ties_pure _
    · exact ties_fail _ _
  · exact (ties_required hNested .loosest).bind fun _ =>
      (ties_expect (by decide) _).bind fun _ => ties_pure _
  · exact ties_fail _ _
  · exact ties_fail _ _

theorem tiesStep_nextStringPart
    (hNested : L.NestedTies n nested nested') :
    L.TiesStep n scopes (nextStringPart nested)
      (nextStringPart nested') := by
  intro s hReady hFew
  refine tiedStep_unlessEnd hReady fun hMore => ?_
  have hPassed := left_next hMore
  exact (tiedPast_consume hReady hMore
    (((ties_stringPart hNested s.token).bind fun part =>
      ties_pure (some part)) s.next (hReady.next hMore)
        (by omega))).step

theorem ties_stringLiteral
    (hNested : L.NestedTies n nested nested')
    (token : Token) :
    L.Ties n scopes (stringLiteral nested token)
      (stringLiteral nested' token) :=
  (ties_collect (tiesStep_nextStringPart hNested).ties).bind
    fun _ =>
    (ties_expect (by decide) _).bind fun _ => ties_pure _

------------------------------------------------------------
-- Compound expressions
------------------------------------------------------------

theorem ties_reference
    (hNested : L.NestedTies n nested nested')
    (token : Token) :
    L.Ties n scopes (reference nested token)
      (reference nested' token) :=
  (ties_accept (by decide)).bind fun _ =>
    ties_ite
      ((ties_arguments hNested).bind fun _ => ties_pure _)
      (ties_pure _)

theorem ties_unary
    (hNested : L.NestedTies n nested nested')
    (token : Token) :
    L.Ties n scopes (unary nested token)
      (unary nested' token) :=
  (ties_required hNested .unary).bind fun _ => ties_pure _

theorem ties_grouping
    (hNested : L.NestedTies n nested nested')
    (token : Token) :
    L.Ties n scopes (grouping nested token)
      (grouping nested' token) :=
  (ties_required hNested .loosest).bind fun _ =>
    (ties_expect (by decide) _).bind fun _ => ties_pure _

theorem ties_conditional
    (hNested : L.NestedTies n nested nested')
    (token : Token) :
    L.Ties n scopes (conditional nested token)
      (conditional nested' token) :=
  (ties_expect (by decide) _).bind fun _ =>
    (ties_required hNested .loosest).bind fun _ =>
      (ties_expect (by decide) _).bind fun _ =>
        (ties_required hNested .loosest).bind fun _ =>
          (ties_behind hNested (by decide)).bind
            fun _ => ties_pure _

theorem ties_functionBody
    (hNested : L.NestedTies n nested nested') :
    L.Ties n scopes (functionBody nested)
      (functionBody nested') := by
  refine (ties_behind hNested (by decide)).bind
    fun value => ?_
  cases value with
  | some e => exact ties_pure (some e)
  | none =>
      exact ties_ifConsume (by decide)
        (fun start =>
          (hNested.block scopes start).bind
            fun e => ties_pure (some e))
        (ties_pure none)

theorem ties_functionLiteral
    (hNested : L.NestedTies n nested nested')
    (token : Token) :
    L.Ties n scopes (functionLiteral nested token)
      (functionLiteral nested' token) := by
  refine (always_checkName.ties obeys_checkName).bind
    fun _ => ties_ite
      ((ties_look _).bind fun _ => ties_fail _ _)
      (ties_inNewScope fun scope => ?_)
  refine (ties_signature hNested).bind fun r =>
    (ties_functionBody hNested).bind fun body => ?_
  cases body with
  | none => exact (ties_look _).bind fun _ => ties_fail _ _
  | some e => exact ties_pure _

theorem ties_lambda
    (hNested : L.NestedTies n nested nested')
    (token : Token) :
    L.Ties n scopes (lambda nested token)
      (lambda nested' token) :=
  ties_inNewScope fun _ =>
    (ties_separated (by decide) _
      ties_lambdaParameter).bind fun _ =>
        (ties_expect (by decide) _).bind fun _ =>
          (ties_required hNested .loosest).bind
            fun _ => ties_pure _

theorem ties_ret
    (hNested : L.NestedTies n nested nested')
    (token : Token) :
    L.Ties n scopes (ret nested token) (ret nested' token) :=
  (hNested.expression scopes .loosest).ties.bind
    fun _ => ties_pure _

------------------------------------------------------------
-- Extensions
------------------------------------------------------------

theorem ties_binary
    (hNested : L.NestedTies n nested nested')
    (left : Expr)
    (operator : Token)
    (power : Power) :
    L.Ties n scopes (binary nested left operator power)
      (binary nested' left operator power) := by
  unfold binary
  split
  · exact ties_fail _ _
  · exact (ties_required hNested power).bind
      fun _ => ties_pure _

theorem ties_assignment
    (hNested : L.NestedTies n nested nested')
    (left : Expr)
    (operator : Token)
    (power : Power) :
    L.Ties n scopes (assignment nested left operator power)
      (assignment nested' left operator power) := by
  unfold assignment
  split
  · exact ties_fail _ _
  · exact (ties_required hNested power.lower).bind
      fun _ => ties_pure _

theorem ties_memberAccess
    (hNested : L.NestedTies n nested nested')
    (left : Expr)
    (operator : Token)
    (power : Power) :
    L.Ties n scopes (memberAccess nested left operator power)
      (memberAccess nested' left operator power) :=
  (always_checkName.ties obeys_checkName).bind fun _ =>
    ties_ite
      ((ties_required hNested power).bind fun _ =>
        ties_ite (ties_pure _) (ties_fail _ _))
      (ties_unexpected _)

theorem ties_call
    (hNested : L.NestedTies n nested nested')
    (left : Expr) :
    L.Ties n scopes (call nested left)
      (call nested' left) :=
  (ties_arguments hNested).bind fun _ => ties_pure _

------------------------------------------------------------
-- Expressions
------------------------------------------------------------

theorem ties_starter
    (hNested : L.NestedTies n nested nested')
    (starter : Starter)
    (token : Token) :
    L.Ties (n - 1) scopes (starter.parser nested token)
      (starter.parser nested' token) := by
  have hLess : n - 1 ≤ n := Nat.sub_le n 1
  cases starter with
  | int => exact ties_intLiteral token
  | boolean => exact ties_pure _
  | string =>
      exact (ties_stringLiteral hNested token).fewer hLess
  | reference =>
      exact (ties_reference hNested token).fewer hLess
  | unary => exact (ties_unary hNested token).fewer hLess
  | grouping =>
      exact (ties_grouping hNested token).fewer hLess
  | block => exact hNested.block scopes token
  | conditional =>
      exact (ties_conditional hNested token).fewer hLess
  | function =>
      exact (ties_functionLiteral hNested token).fewer hLess
  | lambda => exact (ties_lambda hNested token).fewer hLess
  | ret => exact (ties_ret hNested token).fewer hLess

theorem ties_extender
    (hNested : L.NestedTies n nested nested')
    (extender : Extender)
    (left : Expr)
    (operator : Token)
    (power : Power) :
    L.Ties n scopes
      (extender.parser nested left operator power)
      (extender.parser nested' left operator power) := by
  cases extender with
  | binary => exact ties_binary hNested left operator power
  | assignment =>
      exact ties_assignment hNested left operator power
  | member =>
      exact ties_memberAccess hNested left operator power
  | call => exact ties_call hNested left

theorem tiesStep_extend
    (hNested : L.NestedTies n nested nested')
    (power : Power)
    (left : Expr) :
    L.TiesStep n scopes (extend nested power left)
      (extend nested' power left) := by
  intro s hReady hFew
  refine .look (·.current) ?_
  split
  · exact tiedStep_none hReady
  · rename_i extender q hKind
    have hMore : s.token.kind ≠ .eof :=
      ne_eof_of_extender hKind
    have hPassed := left_next hMore
    split
    · exact (tiedPast_consume hReady hMore
        (((ties_extender hNested extender left s.token
          q).bind fun e => ties_pure (some e)) s.next
            (hReady.next hMore) (by omega))).step
    · exact tiedStep_none hReady

theorem ties_extensions
    (hNested : L.NestedTies n nested nested')
    (power : Power)
    (first : Expr) :
    L.Ties n scopes
      (do return some (← loop (extend nested power) first))
      (do
        return some
          (← loop (extend nested' power) first)) :=
  (ties_loop (fun left =>
    (tiesStep_extend hNested power left).ties) first).bind
      fun e => ties_pure (some e)

theorem tiesStep_expression
    (hNested : L.NestedTies n nested nested')
    (power : Power) :
    L.TiesStep (n + 1) scopes (expression nested power)
      (expression nested' power) := by
  intro s hReady hFew
  cases hKind : s.token.kind.starter? with
  | some starter =>
      have hMore := ne_eof_of_starter hKind
      have hPassed := left_next hMore
      have hRest :=
        (ties_starter hNested starter s.token).bind
          (fun first =>
            (ties_extensions hNested power first).fewer
              (Nat.sub_le n 1)) s.next (hReady.next hMore)
            (by omega)
      refine (tiedPast_consume hReady hMore ?_).step
      rw [hKind]
      exact hRest
  | none =>
      -- The token is given back, at the end of the text too.
      have hRun :
          (expression nested power).outcome s =
            (.ok none, s) :=
        outcome_expression_none hKind hReady.ahead_ne
      refine ⟨⟨?_, ?_⟩, ?_⟩
      · rw [hRun]
        exact .refl hReady
      · refine L.ofBind (always_consume s) fun hFirst => ?_
        rw [outcome_consume] at hFirst
        cases hFirst
        rw [hKind]
        exact L.ofBind (L.ofMove _ ⟨[.unconsume], rfl⟩)
          fun _ => L.ofPure none
      · intro e t hSome
        rw [hRun] at hSome
        cases hSome

------------------------------------------------------------
-- Declarations
------------------------------------------------------------

theorem tiedPast_variableDecl
    {scope : ScopeId}
    {s : ParserState}
    (hNested : L.NestedTies n nested nested')
    (kind : DefinitionKind)
    (hReady : s.Ready (scope :: scopes))
    (hFew : 2 * s.left < n)
    (hMore : s.token.kind ≠ .eof) :
    L.TiedPast (scope :: scopes) s
      (variableDecl nested kind)
      (variableDecl nested' kind) := by
  have hPassed := left_next hMore
  exact tiedPast_consume hReady hMore
    ((ties_expectName.bind fun _ =>
      (ties_optionalType (by decide) _).bind fun _ =>
        (ties_behind hNested (by decide)).bind fun _ =>
          (ties_expect (by decide) _).bind fun _ =>
            (ties_declare _ _ _ _ _).bind
              fun _ => ties_pure _)
      s.next (hReady.next hMore) (by omega))

theorem ties_namedFunctionBody
    (hNested : L.NestedTies n nested nested') :
    L.Ties n scopes (namedFunctionBody nested)
      (namedFunctionBody nested') := by
  refine (ties_behind hNested (by decide)).bind
    fun value => ?_
  cases value with
  | some e =>
      exact (ties_expect (by decide) _).bind
        fun _ => ties_pure _
  | none =>
      exact ties_ifConsume (by decide)
        (fun start =>
          (hNested.block scopes start).bind
            fun e => ties_pure (some e))
        ((ties_accept (by decide)).bind
          fun _ => ties_pure none)

theorem tiesPast_functionDecl
    {scope : ScopeId}
    (hNested : L.NestedTies n nested nested') :
    L.TiesPast n (scope :: scopes) (functionDecl nested)
      (functionDecl nested') :=
  (tiesPast_expect (by decide) _).bind fun _ =>
    ties_expectName.bind fun _ =>
      (ties_inNewScope fun _ =>
        (ties_signature hNested).bind fun _ =>
          (ties_namedFunctionBody hNested).bind
            fun _ => ties_pure _).bind fun _ =>
              (ties_look _).bind fun _ =>
                (ties_declare _ _ _ _ _).bind
                  fun _ => ties_pure _

------------------------------------------------------------
-- Statements
------------------------------------------------------------

theorem tiesPast_expressionStatement
    (hNested : L.NestedTies n nested nested') :
    L.TiesPast n scopes (expressionStatement nested)
      (expressionStatement nested') :=
  (tiesPast_required hNested .loosest).bind fun _ =>
    (ties_accept (by decide)).bind fun _ =>
      ties_ite (ties_pure _)
        (ties_ite (ties_pure _)
          ((ties_look _).bind fun _ =>
            ties_ite (ties_pure _) (ties_unexpected _)))

/- The token behind the current one decides. -/
theorem tiedPast_nextIsName
    {α : Type}
    {s : ParserState}
    {f g : Bool → Parser α}
    (hReady : s.Ready scopes)
    (hRest :
      L.TiedPast scopes s (f s.next.token.kind.isName)
        (g s.next.token.kind.isName)) :
    L.TiedPast scopes s (nextIsName >>= f)
      (nextIsName >>= g) := by
  have hAlways : L.Always nextIsName :=
    always_consume.bind fun _ =>
      always_checkName.bind fun _ =>
        always_unconsume.bind fun _ => always_pure _
  have hRun := outcome_nextIsName hReady.ahead_ne
  refine ⟨⟨?_, L.ofBind (hAlways s) fun hFirst => ?_⟩, ?_⟩
  · rw [outcome_bind, hRun]
    exact hRest.kept
  · rw [hRun] at hFirst
    cases hFirst
    exact hRest.holds
  · intro a t hLast
    rw [outcome_bind, hRun] at hLast
    exact hRest.left_lt hLast

theorem tiesPast_statement
    {scope : ScopeId}
    (hNested : L.NestedTies n nested nested') :
    L.TiesPast n (scope :: scopes) (statement nested)
      (statement nested') := by
  intro s hReady hFew
  have hVariable (hMore : s.token.kind ≠ .eof) :
      L.TiedPast (scope :: scopes) s
        (variableDecl nested .localVariable >>= fun v =>
          pure (Statement.variable v))
        (variableDecl nested' .localVariable >>= fun v =>
          pure (Statement.variable v)) :=
    (tiedPast_variableDecl hNested .localVariable hReady hFew
      hMore).bind hFew fun _ => ties_pure _
  refine .look (·.current) ?_
  split
  · rename_i hKind
    exact hVariable (ne_of_eq_of_ne hKind (by decide))
  · rename_i hKind
    exact hVariable (ne_of_eq_of_ne hKind (by decide))
  · refine tiedPast_nextIsName hReady ?_
    split
    · exact ((tiesPast_functionDecl hNested).bind
        fun _ => ties_pure _) s hReady hFew
    · exact tiesPast_expressionStatement hNested s hReady hFew
  · exact tiesPast_expressionStatement hNested s hReady hFew

theorem tiesStep_nextStatement
    {scope : ScopeId}
    (hNested : L.NestedTies n nested nested') :
    L.TiesStep n (scope :: scopes) (nextStatement nested)
      (nextStatement nested') := by
  intro s hReady hFew
  refine tiedStep_unlessEnd hReady fun hMore => ?_
  exact (((tiesPast_statement hNested s hReady
    hFew).recovering hMore blockCheckpoint).bind hFew
      fun r => ties_pure (some r)).step

theorem ties_block
    (hNested : L.NestedTies n nested nested')
    (start : Token) :
    L.Ties n scopes (block nested start)
      (block nested' start) :=
  ties_inNewScope fun _ =>
    (ties_collect (tiesStep_nextStatement hNested).ties).bind
      fun _ =>
      (ties_expect (by decide) _).bind fun _ => ties_pure _

------------------------------------------------------------
-- Imports and declarations
------------------------------------------------------------

theorem tiesPast_importFrom
    (hNested : L.NestedTies n nested nested') :
    L.TiesPast n scopes (importFrom nested)
      (importFrom nested') :=
  (tiesPast_expect (by decide) _).bind fun _ =>
    (ties_expect (by decide) _).bind fun quote =>
      (ties_stringLiteral hNested quote).bind fun path =>
        (ties_expect (by decide) _).bind fun _ =>
          (ties_separated (by decide) _
            ties_importEntry).bind fun _ =>
              (ties_expect (by decide) _).bind fun _ =>
                (ties_plainPath path).bind
                  fun _ => ties_pure _

theorem tiesStep_nextImport
    (hNested : L.NestedTies n nested nested') :
    L.TiesStep n scopes (nextImport nested)
      (nextImport nested') := by
  intro s hReady hFew
  refine .look (·.hasMore) (.look (·.check .kwImport) ?_)
  split
  · rename_i hGo
    rw [Bool.and_eq_true] at hGo
    have hMore : s.token.kind ≠ .eof :=
      of_decide_eq_true hGo.1
    exact (((tiesPast_importFrom hNested s hReady
      hFew).recovering hMore topLevelCheckpoint).bind hFew
        fun r => ties_pure (some r)).step
  · exact tiedStep_none hReady

theorem tiesPast_declaration
    {scope : ScopeId}
    (hNested : L.NestedTies n nested nested') :
    L.TiesPast n (scope :: scopes) (declaration nested)
      (declaration nested') := by
  intro s hReady hFew
  have hProperty (hMore : s.token.kind ≠ .eof) :
      L.TiedPast (scope :: scopes) s
        (variableDecl nested .property >>= fun v =>
          pure (Declaration.property v))
        (variableDecl nested' .property >>= fun v =>
          pure (Declaration.property v)) :=
    (tiedPast_variableDecl hNested .property hReady hFew
      hMore).bind hFew fun _ => ties_pure _
  have hFail (problem : Problem) (p : Position) :
      L.TiedPast (scope :: scopes) s
        (fail problem p : Parser Declaration)
        (fail problem p) :=
    ⟨ties_fail problem p s hReady hFew, nofun⟩
  refine .look (·.current) ?_
  split
  · exact (tiesPast_functionDecl hNested s hReady hFew).bind
      hFew fun _ => ties_pure _
  · rename_i hKind
    exact hProperty (ne_of_eq_of_ne hKind (by decide))
  · rename_i hKind
    exact hProperty (ne_of_eq_of_ne hKind (by decide))
  · exact .look _ (hFail _ _)
  · exact ⟨ties_unexpected _ s hReady hFew, nofun⟩
  · exact .look _ (hFail _ _)

theorem tiesStep_nextDeclaration
    {scope : ScopeId}
    (hNested : L.NestedTies n nested nested') :
    L.TiesStep n (scope :: scopes) (nextDeclaration nested)
      (nextDeclaration nested') := by
  intro s hReady hFew
  refine .look (·.hasMore) ?_
  split
  · rename_i hGo
    have hMore : s.token.kind ≠ .eof := of_decide_eq_true hGo
    exact (((tiesPast_declaration hNested s hReady
      hFew).recovering hMore topLevelCheckpoint).bind hFew
        fun r => ties_pure (some r)).step
  · exact tiedStep_none hReady

------------------------------------------------------------
-- All depths of nesting
------------------------------------------------------------

/-
  What is nested within a depth is related to itself,
  wherever the parser stands: too deep a nesting is a failure
  like others.
-/
theorem nestedTies_nestedWithin :
    ∀ depth n,
      L.NestedTies n (nestedWithin depth)
        (nestedWithin depth)
  | 0, _ =>
      { expression := fun _ _ _ hReady _ =>
          tiedStep_none hReady
        block := fun _ _ => ties_missingExpression }
  | _ + 1, 0 =>
      { expression := fun _ _ _ _ hFew =>
          absurd hFew (Nat.not_lt_zero _)
        block := fun _ _ _ _ hFew =>
          absurd hFew (Nat.not_lt_zero _) }
  | depth + 1, n + 1 =>
      have hNested := nestedTies_nestedWithin depth n
      { expression := fun _ => tiesStep_expression hNested
        block := fun _ => ties_block hNested }

end ParserRelation

end SourceCheck
