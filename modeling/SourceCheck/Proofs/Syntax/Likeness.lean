import SourceCheck.Grammar.Program
import SourceCheck.Proofs.Parsing.Likeness
import SourceCheck.Proofs.Parsing.TypeLayers

/-
  The grammar does not tell spellings of names apart.

  One statement stands here for each parser, in the order of
  the grammar: on states that are alike it ends alike, and
  a property that all ways to put parsers together keep
  holds of it.  Results are equal, places included, as the
  places of tokens are.

  Key definitions include:
    * `ParserProperty.NestedMatches`
    * `Grammar.programItems`

  Key theorems include:
    * `ParserProperty.matches_expression`
    * `ParserProperty.matches_block`
    * `ParserProperty.nestedMatches_nestedWithin`
    * `ParserProperty.matches_programItems`
-/

namespace SourceCheck

namespace ParserProperty

open SourceCheck.Parser
open SourceCheck.ParserState
open SourceCheck.Grammar

variable {L : ParserProperty}
variable {ts : List Token}

------------------------------------------------------------
-- Types
------------------------------------------------------------

theorem matches_namedType :
    L.Matches ts Eq namedType namedType :=
  matches_checkName.next fun _ =>
    matches_ite
      (matches_consume.bind fun {a b} hAlike => by
        rw [hAlike.name_eq, hAlike.span_eq]
        exact matches_pure rfl)
      (matches_unexpected _)

theorem matches_joinNext
    (join : TypeJoin)
    {operand : Parser TypeExpr}
    (hOperand : L.Matches ts Eq operand operand)
    (left : TypeExpr) :
    L.Matches ts Eq (joinNext join operand left)
      (joinNext join operand left) :=
  (matches_accept (by cases join <;> rfl)).next fun _ =>
    matches_ite (hOperand.next fun _ => matches_pure rfl)
      (matches_pure rfl)

theorem matches_joinedAbove
    (power : Power)
    (join : TypeJoin)
    {operand : Parser TypeExpr}
    (hOperand : L.Matches ts Eq operand operand) :
    L.Matches ts Eq (joinedAbove power join operand)
      (joinedAbove power join operand) :=
  matches_ite
    (hOperand.next
      (matches_loop (matches_joinNext join hOperand)))
    hOperand

theorem matches_typeExpr (power : Power) :
    L.Matches ts Eq (typeExpr power) (typeExpr power) := by
  rw [typeExpr_eq_layeredType]
  exact matches_joinedAbove power .union
    (matches_joinedAbove power .intersection
      matches_namedType)

theorem matches_optionalType
    {separator : TokenKind}
    (hSeparator : separator.isName = false)
    (fallback : Span) :
    L.Matches ts Eq (optionalType separator fallback)
      (optionalType separator fallback) :=
  (matches_accept hSeparator).next fun _ =>
    matches_ite (matches_typeExpr .loosest)
      (matches_pure rfl)

------------------------------------------------------------
-- Parsers of what is not nested
------------------------------------------------------------

theorem matches_missingExpression {α : Type} :
    L.Matches ts Eq (missingExpression : Parser α)
      missingExpression := by
  refine matches_current.bind fun {a b} hAlike => ?_
  rcases hAlike.cases with rfl | ⟨hLeft, hRight, -, hSpan⟩
  · exact matches_ite (matches_fail rfl rfl rfl)
      (matches_fail rfl rfl rfl)
  · have hOther {t : Token} (hName : t.kind.isName) :
        t.kind ≠ .unexpectedCharacter := by
      intro hKind
      rw [hKind] at hName
      exact absurd hName Bool.false_ne_true
    rw [if_neg (hOther hLeft), if_neg (hOther hRight), hSpan]
    exact matches_fail rfl rfl rfl

/- The name is given back unless `=` stands behind it. -/
theorem matches_argumentName :
    L.Matches ts (Option.Rel Token.Alike) argumentName
      argumentName :=
  matches_checkName.next fun _ =>
    matches_ite
      (matches_consume.bind fun hAlike =>
        (matches_accept rfl).next fun _ =>
          matches_ite (matches_pure (.some hAlike))
            (matches_unconsume.next fun _ =>
              matches_pure .none))
      (matches_pure .none)

/- A parameter starts with its name. -/
theorem matches_declareArgument
    {a b : Token}
    (hAlike : a.Alike b)
    (hIs : a.kind.isName)
    (hMember : a ∈ ts)
    (stop : Span)
    (visibleFrom : Nat)
    (isMutable : Bool) :
    L.Matches ts Eq
      (declare a .argument (a.span.between stop) visibleFrom
        isMutable)
      (declare b .argument (a.span.between stop) visibleFrom
        isMutable) :=
  matches_declare visibleFrom isMutable hAlike
    { isName := hIs
      mem := hMember
      ofArgument := fun _ => rfl
      ofOther := fun hOther => absurd rfl hOther }

theorem matches_lambdaParameter :
    L.Matches ts Eq lambdaParameter lambdaParameter := by
  refine matches_name.bind fun {a b} hName => ?_
  rcases hName with ⟨hAlike, hIs, hMember⟩
  refine (matches_accept rfl).next fun _ => ?_
  rw [← hAlike.span_eq, ← hAlike.name_eq]
  refine matches_ite ?_ ?_
  · refine (matches_typeExpr .logicalOr).next fun type => ?_
    exact (matches_declareArgument hAlike hIs hMember _ _
      _).next fun _ => matches_pure rfl
  · refine (matches_pure rfl).next fun type => ?_
    exact (matches_declareArgument hAlike hIs hMember _ _
      _).next fun _ => matches_pure rfl

theorem matches_intLiteral (token : Token) :
    L.Matches ts Eq (intLiteral token)
      (intLiteral token) := by
  unfold intLiteral
  split
  · exact matches_pure rfl
  · exact matches_fail rfl rfl rfl

theorem matches_importEntry :
    L.Matches ts Eq importEntry importEntry := by
  refine matches_expectName.bind fun {a b} hAlike => ?_
  refine (matches_accept rfl).next fun _ => ?_
  rw [hAlike.name_eq, hAlike.span_eq]
  refine matches_ite ?_ (matches_pure rfl)
  refine matches_expectName.bind fun {c d} hOther => ?_
  rw [hOther.name_eq, hOther.span_eq]
  exact matches_pure rfl

theorem matches_plainPath (path : Expr) :
    L.Matches ts Eq (plainPath path) (plainPath path) := by
  unfold plainPath
  split
  · exact matches_pure rfl
  · exact matches_fail rfl rfl rfl

------------------------------------------------------------
-- Nested expressions and blocks
------------------------------------------------------------

/- Nested expressions and blocks are read alike. -/
structure NestedMatches
    (L : ParserProperty)
    (ts : List Token)
    (nested : Nested) :
    Prop where
  expression :
    ∀ power,
      L.Matches ts Eq (nested.expression power)
        (nested.expression power)
  block :
    ∀ {a b},
      a.Alike b →
        L.Matches ts Eq (nested.block a) (nested.block b)

variable {nested : Nested}

theorem matches_required
    (hNested : L.NestedMatches ts nested)
    (power : Power) :
    L.Matches ts Eq (nested.required power)
      (nested.required power) := by
  refine (hNested.expression power).next fun r => ?_
  cases r with
  | none => exact matches_missingExpression
  | some e => exact matches_pure rfl

/- An expression behind a token, if the token is there. -/
theorem matches_behind
    (hNested : L.NestedMatches ts nested)
    {kind : TokenKind}
    (hKind : kind.isName = false) :
    L.Matches ts Eq
      (do
        if ← accept kind then
          return some (← nested.required .loosest)
        else
          return none)
      (do
        if ← accept kind then
          return some (← nested.required .loosest)
        else
          return none) :=
  (matches_accept hKind).next fun _ =>
    matches_ite
      ((matches_required hNested .loosest).next
        fun _ => matches_pure rfl)
      (matches_pure rfl)

------------------------------------------------------------
-- Arguments and parameters
------------------------------------------------------------

theorem matches_argument
    (hNested : L.NestedMatches ts nested) :
    L.Matches ts Eq (argument nested) (argument nested) := by
  refine matches_argumentName.bind fun {a b} hNames => ?_
  refine (matches_required hNested .loosest).next
    fun value => ?_
  cases hNames with
  | none => exact matches_pure rfl
  | some hAlike =>
      simp only [Option.map_some, hAlike.name_eq,
        hAlike.span_eq]
      exact matches_pure rfl

theorem matches_arguments
    (hNested : L.NestedMatches ts nested) :
    L.Matches ts Eq (arguments nested)
      (arguments nested) := by
  refine (matches_separated rfl rfl
    (matches_argument hNested)).next fun items => ?_
  refine (matches_expect rfl _).bind fun {a b} hAlike => ?_
  rw [hAlike.span_eq]
  exact matches_pure rfl

theorem matches_parameter
    (hNested : L.NestedMatches ts nested) :
    L.Matches ts Eq (parameter nested)
      (parameter nested) := by
  refine matches_name.bind fun {a b} hName => ?_
  rcases hName with ⟨hAlike, hIs, hMember⟩
  refine (matches_expect rfl _).bind fun _ => ?_
  refine (matches_typeExpr .loosest).next fun type => ?_
  refine (matches_behind hNested rfl).next
    fun fallback => ?_
  rw [← hAlike.span_eq, ← hAlike.name_eq]
  exact (matches_declareArgument hAlike hIs hMember _ _
    _).next fun _ => matches_pure rfl

theorem matches_signature
    (hNested : L.NestedMatches ts nested) :
    L.Matches ts Eq (signature nested)
      (signature nested) := by
  refine (matches_expect rfl _).bind fun _ => ?_
  refine (matches_separated rfl rfl
    (matches_parameter hNested)).next fun parameters => ?_
  refine (matches_expect rfl _).bind fun {a b} hAlike => ?_
  rw [hAlike.span_eq]
  exact (matches_optionalType rfl _).next
    fun _ => matches_pure rfl

------------------------------------------------------------
-- Strings
------------------------------------------------------------

/- A token that spells a name is no part of a string. -/
theorem stringPart_of_isName
    {token : Token}
    (hName : token.kind.isName) :
    stringPart nested token =
      fail (.unexpectedStringPart token.value)
        token.span.start := by
  unfold stringPart
  rcases TokenKind.eq_of_isName hName with h | h | h | h
  all_goals rw [h]

theorem matches_stringPart
    (hNested : L.NestedMatches ts nested)
    {a b : Token}
    (hAlike : a.Alike b) :
    L.Matches ts Eq (stringPart nested a)
      (stringPart nested b) := by
  rcases hAlike.cases with rfl | ⟨hLeft, hRight, -, hSpan⟩
  · unfold stringPart
    split
    · exact matches_pure rfl
    · split
      · exact matches_pure rfl
      · exact matches_fail rfl rfl rfl
    · exact (matches_required hNested .loosest).next
        fun _ =>
          (matches_expect rfl _).bind
            fun _ => matches_pure rfl
    · exact matches_fail rfl rfl rfl
    · exact matches_fail rfl rfl rfl
  · rw [stringPart_of_isName hLeft,
      stringPart_of_isName hRight]
    exact matches_fail rfl (congrArg Span.start hSpan) rfl

theorem matches_nextStringPart
    (hNested : L.NestedMatches ts nested) :
    L.Matches ts Eq (nextStringPart nested)
      (nextStringPart nested) :=
  (matches_check rfl).next fun _ =>
    matches_hasMore.next fun _ =>
      matches_ite
        (matches_consume.bind fun hAlike =>
          (matches_stringPart hNested hAlike).next
            fun _ => matches_pure rfl)
        (matches_pure rfl)

theorem matches_stringLiteral
    (hNested : L.NestedMatches ts nested)
    {a b : Token}
    (hAlike : a.Alike b) :
    L.Matches ts Eq (stringLiteral nested a)
      (stringLiteral nested b) := by
  refine (matches_collect
    (matches_nextStringPart hNested)).next fun parts => ?_
  refine (matches_expect rfl _).bind fun {c d} hStop => ?_
  rw [hAlike.span_eq, hStop.span_eq]
  exact matches_pure rfl

------------------------------------------------------------
-- Compound expressions
------------------------------------------------------------

theorem matches_reference
    (hNested : L.NestedMatches ts nested)
    {a b : Token}
    (hAlike : a.Alike b) :
    L.Matches ts Eq (reference nested a)
      (reference nested b) := by
  unfold reference
  rw [hAlike.name_eq, hAlike.span_eq]
  exact (matches_accept rfl).next fun _ =>
    matches_ite
      ((matches_arguments hNested).next
        fun _ => matches_pure rfl)
      (matches_pure rfl)

theorem matches_unary
    (hNested : L.NestedMatches ts nested)
    (token : Token) :
    L.Matches ts Eq (unary nested token)
      (unary nested token) :=
  (matches_required hNested .unary).next
    fun _ => matches_pure rfl

theorem matches_grouping
    (hNested : L.NestedMatches ts nested)
    (token : Token) :
    L.Matches ts Eq (grouping nested token)
      (grouping nested token) := by
  refine (matches_required hNested .loosest).next
    fun inner => ?_
  refine (matches_expect rfl _).bind fun {a b} hStop => ?_
  rw [hStop.span_eq]
  exact matches_pure rfl

theorem matches_conditional
    (hNested : L.NestedMatches ts nested)
    (token : Token) :
    L.Matches ts Eq (conditional nested token)
      (conditional nested token) :=
  (matches_expect rfl _).bind fun _ =>
    (matches_required hNested .loosest).next fun _ =>
      (matches_expect rfl _).bind fun _ =>
        (matches_required hNested .loosest).next fun _ =>
          (matches_behind hNested rfl).next
            fun _ => matches_pure rfl

theorem matches_functionBody
    (hNested : L.NestedMatches ts nested) :
    L.Matches ts Eq (functionBody nested)
      (functionBody nested) := by
  refine (matches_behind hNested rfl).next fun value => ?_
  cases value with
  | some e => exact matches_pure rfl
  | none =>
      exact (matches_check rfl).next fun _ =>
        matches_ite
          (matches_consume.bind fun hAlike =>
            (hNested.block hAlike).next
              fun _ => matches_pure rfl)
          (matches_pure rfl)

theorem matches_functionLiteral
    (hNested : L.NestedMatches ts nested)
    (token : Token) :
    L.Matches ts Eq (functionLiteral nested token)
      (functionLiteral nested token) := by
  have hFail {α : Type} (problem : Problem)
      (hOther : problem.isRedefinition = false) :
      L.Matches ts Eq
        (position >>= fun p => fail problem p : Parser α)
        (position >>= fun p => fail problem p) :=
    matches_position.next fun _ =>
      matches_fail rfl rfl hOther
  refine matches_checkName.next fun _ =>
    matches_ite (hFail _ rfl)
      (matches_inNewScope fun scope => ?_)
  refine (matches_signature hNested).next fun r => ?_
  refine (matches_functionBody hNested).next fun body => ?_
  cases body with
  | none => exact hFail _ rfl
  | some e => exact matches_pure rfl

theorem matches_lambda
    (hNested : L.NestedMatches ts nested)
    (token : Token) :
    L.Matches ts Eq (lambda nested token)
      (lambda nested token) :=
  matches_inNewScope fun _ =>
    (matches_separated rfl rfl
      matches_lambdaParameter).next fun _ =>
        (matches_expect rfl _).bind fun _ =>
          (matches_required hNested .loosest).next
            fun _ => matches_pure rfl

theorem matches_ret
    (hNested : L.NestedMatches ts nested)
    (token : Token) :
    L.Matches ts Eq (ret nested token) (ret nested token) :=
  (hNested.expression .loosest).next
    fun _ => matches_pure rfl

------------------------------------------------------------
-- Extensions
------------------------------------------------------------

theorem matches_binary
    (hNested : L.NestedMatches ts nested)
    (left : Expr)
    {a b : Token}
    (hAlike : a.Alike b)
    (power : Power) :
    L.Matches ts Eq (binary nested left a power)
      (binary nested left b power) := by
  have hOperators :
      a.kind.binaryOperator? = b.kind.binaryOperator? :=
    hAlike.congr (by decide)
  unfold binary
  rw [← hOperators, hAlike.span_eq]
  split
  · exact matches_fail rfl rfl rfl
  · exact (matches_required hNested power).next
      fun _ => matches_pure rfl

theorem matches_assignment
    (hNested : L.NestedMatches ts nested)
    (left : Expr)
    {a b : Token}
    (hAlike : a.Alike b)
    (power : Power) :
    L.Matches ts Eq (assignment nested left a power)
      (assignment nested left b power) := by
  have hOperators :
      a.kind.assignmentOperator? =
        b.kind.assignmentOperator? :=
    hAlike.congr (by decide)
  unfold assignment
  rw [← hOperators, hAlike.span_eq]
  split
  · exact matches_fail rfl rfl rfl
  · exact (matches_required hNested power.lower).next
      fun _ => matches_pure rfl

theorem matches_memberAccess
    (hNested : L.NestedMatches ts nested)
    (left : Expr)
    {a b : Token}
    (hAlike : a.Alike b)
    (power : Power) :
    L.Matches ts Eq (memberAccess nested left a power)
      (memberAccess nested left b power) := by
  have hSafe :
      decide (a.kind = .questionDot) =
        decide (b.kind = .questionDot) :=
    decide_eq_decide.2 (hAlike.kind_iff rfl)
  unfold memberAccess
  rw [hSafe]
  exact matches_checkName.next fun _ =>
    matches_ite
      ((matches_required hNested power).next fun _ =>
        matches_ite (matches_pure rfl)
          (matches_fail rfl rfl rfl))
      (matches_unexpected _)

theorem matches_call
    (hNested : L.NestedMatches ts nested)
    (left : Expr) :
    L.Matches ts Eq (call nested left) (call nested left) :=
  (matches_arguments hNested).next fun _ => matches_pure rfl

------------------------------------------------------------
-- Expressions
------------------------------------------------------------

/- A token that spells a name starts a reference. -/
theorem starter?_of_mem_names :
    ∀ kind ∈ TokenKind.names,
      kind.starter? = TokenKind.identifier.starter? := by
  decide

/- Each of them is read alike behind the same token. -/
theorem matches_started
    (hNested : L.NestedMatches ts nested)
    (starter : Starter)
    (token : Token) :
    L.Matches ts Eq (starter.parser nested token)
      (starter.parser nested token) := by
  have hAlike := Token.Alike.refl token
  cases starter with
  | int => exact matches_intLiteral token
  | boolean => exact matches_pure rfl
  | string => exact matches_stringLiteral hNested hAlike
  | reference => exact matches_reference hNested hAlike
  | unary => exact matches_unary hNested token
  | grouping => exact matches_grouping hNested token
  | block => exact hNested.block hAlike
  | conditional => exact matches_conditional hNested token
  | function => exact matches_functionLiteral hNested token
  | lambda => exact matches_lambda hNested token
  | ret => exact matches_ret hNested token

theorem matches_starter
    (hNested : L.NestedMatches ts nested)
    {starter : Starter}
    {a b : Token}
    (hAlike : a.Alike b)
    (hStart : a.kind.starter? = some starter) :
    L.Matches ts Eq (starter.parser nested a)
      (starter.parser nested b) := by
  rcases hAlike.cases with rfl | ⟨hLeft, -⟩
  · exact matches_started hNested starter a
  · rw [starter?_of_mem_names _
      (TokenKind.mem_names_of_isName hLeft)] at hStart
    cases hStart
    exact matches_reference hNested hAlike

theorem matches_extender
    (hNested : L.NestedMatches ts nested)
    (extender : Extender)
    (left : Expr)
    {a b : Token}
    (hAlike : a.Alike b)
    (power : Power) :
    L.Matches ts Eq (extender.parser nested left a power)
      (extender.parser nested left b power) := by
  cases extender with
  | binary => exact matches_binary hNested left hAlike power
  | assignment =>
      exact matches_assignment hNested left hAlike power
  | member =>
      exact matches_memberAccess hNested left hAlike power
  | call => exact matches_call hNested left

/- A token that spells a name extends no expression. -/
theorem extender?_of_mem_names :
    ∀ kind ∈ TokenKind.names,
      kind.extender? = TokenKind.identifier.extender? := by
  simp [TokenKind.names, TokenKind.extender?]

theorem matches_extend
    (hNested : L.NestedMatches ts nested)
    (power : Power)
    (left : Expr) :
    L.Matches ts Eq (extend nested power left)
      (extend nested power left) := by
  refine matches_current.bind fun {a b} hAlike => ?_
  have hExtenders : a.kind.extender? = b.kind.extender? :=
    hAlike.congr extender?_of_mem_names
  rw [← hExtenders]
  split
  · exact matches_pure rfl
  · rename_i extender q hKind
    exact matches_ite
      (matches_consume.bind fun hOperator =>
        (matches_extender hNested extender left hOperator
          q).next fun _ => matches_pure rfl)
      (matches_pure rfl)

theorem matches_expression
    (hNested : L.NestedMatches ts nested)
    (power : Power) :
    L.Matches ts Eq (expression nested power)
      (expression nested power) := by
  refine matches_consume.bind fun {a b} hAlike => ?_
  have hStarters : a.kind.starter? = b.kind.starter? :=
    hAlike.congr starter?_of_mem_names
  rw [← hStarters]
  cases hStart : a.kind.starter? with
  | none =>
      exact matches_unconsume.next fun _ => matches_pure rfl
  | some starter =>
      exact (matches_starter hNested hAlike hStart).next
        fun first =>
          (matches_loop (matches_extend hNested power)
            first).next fun _ => matches_pure rfl

------------------------------------------------------------
-- Declarations
------------------------------------------------------------

/- Other definitions start with the word before the name. -/
theorem matches_declareBehindWord
    {word name name' : Token}
    {kind : DefinitionKind}
    (hKind : kind ≠ .argument)
    (hAlike : name.Alike name')
    (hIs : name.kind.isName)
    (hBehind :
      ∃ front rest, ts = front ++ word :: name :: rest)
    (stop : Span)
    (visibleFrom : Nat)
    (isMutable : Bool) :
    L.Matches ts Eq
      (declare name kind (word.span.between stop) visibleFrom
        isMutable)
      (declare name' kind (word.span.between stop) visibleFrom
        isMutable) := by
  rcases hBehind with ⟨front, rest, hTokens⟩
  refine matches_declare visibleFrom isMutable hAlike
    { isName := hIs
      mem := ?_
      ofArgument := fun hIs => absurd hIs hKind
      ofOther := fun _ =>
        ⟨front, word, rest, hTokens, rfl⟩ }
  rw [hTokens]
  exact List.mem_append_right _
    (List.mem_cons_of_mem _ List.mem_cons_self)

theorem takes_consume
    {s u : ParserState}
    {a : Token}
    (hRun : consume.outcome s = (.ok a, u)) :
    a = s.token ∧ u = s.next := by
  cases hRun
  exact ⟨rfl, rfl⟩

theorem matches_variableDecl
    (hNested : L.NestedMatches ts nested)
    (kind : DefinitionKind)
    (hKind : kind ≠ .argument) :
    L.Matches ts Eq (variableDecl nested kind)
      (variableDecl nested kind) := by
  refine matches_wordAndName matches_consume takes_consume
    fun {word word' name name'} hWord hName hIs hBehind => ?_
  have hMutable :
      decide (word.kind = .kwVar) =
        decide (word'.kind = .kwVar) :=
    decide_eq_decide.2 (hWord.kind_iff rfl)
  rw [← hMutable, ← hWord.span_eq, ← hName.span_eq,
    ← hName.name_eq]
  refine (matches_optionalType rfl _).next fun type => ?_
  refine (matches_behind hNested rfl).next fun value => ?_
  refine (matches_expect rfl _).bind fun {a b} hStop => ?_
  rw [← hStop.span_eq]
  exact (matches_declareBehindWord hKind hName hIs hBehind _ _
    _).next fun _ => matches_pure rfl

theorem matches_namedFunctionBody
    (hNested : L.NestedMatches ts nested) :
    L.Matches ts Eq (namedFunctionBody nested)
      (namedFunctionBody nested) := by
  refine (matches_behind hNested rfl).next fun value => ?_
  cases value with
  | some e =>
      exact (matches_expect rfl _).bind
        fun _ => matches_pure rfl
  | none =>
      exact (matches_check rfl).next fun _ =>
        matches_ite
          (matches_consume.bind fun hAlike =>
            (hNested.block hAlike).next
              fun _ => matches_pure rfl)
          ((matches_accept rfl).next
            fun _ => matches_pure rfl)

theorem matches_functionDecl
    (hNested : L.NestedMatches ts nested) :
    L.Matches ts Eq (functionDecl nested)
      (functionDecl nested) := by
  refine matches_wordAndName (matches_expect rfl _)
    (fun hRun => (outcome_expect_iff.1 hRun).2)
    fun {word word' name name'} hWord hName hIs hBehind => ?_
  rw [← hWord.span_eq, ← hName.span_eq, ← hName.name_eq]
  refine Matches.next (matches_inNewScope fun scope =>
    (matches_signature hNested).next fun _ =>
      (matches_namedFunctionBody hNested).next
        fun _ => matches_pure rfl) fun r => ?_
  refine matches_previous.bind fun {a b} hStop => ?_
  rw [← hStop.span_eq]
  exact (matches_declareBehindWord (by decide) hName hIs
    hBehind _ _ _).next fun _ => matches_pure rfl

------------------------------------------------------------
-- Statements
------------------------------------------------------------

theorem matches_expressionStatement
    (hNested : L.NestedMatches ts nested) :
    L.Matches ts Eq (expressionStatement nested)
      (expressionStatement nested) :=
  (matches_required hNested .loosest).next fun _ =>
    (matches_accept rfl).next fun _ =>
      matches_ite (matches_pure rfl)
        (matches_ite (matches_pure rfl)
          ((matches_check rfl).next fun _ =>
            matches_ite (matches_pure rfl)
              (matches_unexpected _)))

theorem matches_nextIsName :
    L.Matches ts Eq nextIsName nextIsName :=
  matches_consume.bind fun _ =>
    matches_checkName.next fun _ =>
      matches_unconsume.next fun _ => matches_pure rfl

theorem matches_statement
    (hNested : L.NestedMatches ts nested) :
    L.Matches ts Eq (statement nested)
      (statement nested) := by
  have hVariable :=
    matches_variableDecl hNested .localVariable (by decide)
  have hExpression := matches_expressionStatement hNested
  refine matches_current.bind fun {a b} hAlike => ?_
  rcases hAlike.cases with rfl | ⟨hLeft, hRight, -⟩
  · split
    · exact hVariable.next fun _ => matches_pure rfl
    · exact hVariable.next fun _ => matches_pure rfl
    · exact matches_nextIsName.next fun _ =>
        matches_ite
          ((matches_functionDecl hNested).next
            fun _ => matches_pure rfl)
          hExpression
    · exact hExpression
  · rcases TokenKind.eq_of_isName hLeft with h | h | h | h
    all_goals
      rcases TokenKind.eq_of_isName hRight with i | i | i | i
      all_goals
        rw [h, i]
        exact hExpression

/- Checkpoints of blocks are no names. -/
theorem blockCheckpoint_eq
    {s t : TokenStream}
    (hAlike : s.Alike t) :
    blockCheckpoint s = blockCheckpoint t := by
  unfold blockCheckpoint
  rw [hAlike.checkAny_eq (by decide),
    decide_eq_decide.2 (hAlike.previous.kind_iff rfl)]

theorem matches_nextStatement
    (hNested : L.NestedMatches ts nested) :
    L.Matches ts Eq (nextStatement nested)
      (nextStatement nested) :=
  (matches_check rfl).next fun _ =>
    matches_hasMore.next fun _ =>
      matches_ite
        ((matches_recovering blockCheckpoint_eq
          (matches_statement hNested)).next
            fun _ => matches_pure rfl)
        (matches_pure rfl)

theorem matches_block
    (hNested : L.NestedMatches ts nested)
    {a b : Token}
    (hAlike : a.Alike b) :
    L.Matches ts Eq (block nested a) (block nested b) := by
  refine matches_inNewScope fun scope => ?_
  refine (matches_collect
    (matches_nextStatement hNested)).next fun items => ?_
  refine (matches_expect rfl _).bind fun {c d} hStop => ?_
  rw [hAlike.span_eq, hStop.span_eq]
  exact matches_pure rfl

------------------------------------------------------------
-- Imports and declarations
------------------------------------------------------------

theorem matches_importFrom
    (hNested : L.NestedMatches ts nested) :
    L.Matches ts Eq (importFrom nested)
      (importFrom nested) := by
  refine (matches_expect rfl _).bind
    fun {word word'} hWord => ?_
  refine (matches_expect rfl _).bind fun hQuote => ?_
  refine (matches_stringLiteral hNested hQuote).next
    fun path => ?_
  refine (matches_expect rfl _).bind fun _ => ?_
  refine (matches_separated rfl rfl
    matches_importEntry).next fun entries => ?_
  refine (matches_expect rfl _).bind fun {a b} hStop => ?_
  rw [hWord.span_eq, hStop.span_eq]
  exact (matches_plainPath path).next
    fun _ => matches_pure rfl

/- Checkpoints of programs are no names. -/
theorem topLevelCheckpoint_eq
    {s t : TokenStream}
    (hAlike : s.Alike t) :
    topLevelCheckpoint s = topLevelCheckpoint t :=
  hAlike.checkAny_eq (by decide)

theorem matches_nextImport
    (hNested : L.NestedMatches ts nested) :
    L.Matches ts Eq (nextImport nested)
      (nextImport nested) :=
  matches_hasMore.next fun _ =>
    (matches_check rfl).next fun _ =>
      matches_ite
        ((matches_recovering topLevelCheckpoint_eq
          (matches_importFrom hNested)).next
            fun _ => matches_pure rfl)
        (matches_pure rfl)

theorem matches_declaration
    (hNested : L.NestedMatches ts nested) :
    L.Matches ts Eq (declaration nested)
      (declaration nested) := by
  have hProperty :=
    matches_variableDecl hNested .property (by decide)
  have hFail (problem : Problem)
      (hOther : problem.isRedefinition = false) :
      L.Matches ts Eq
        (position >>= fun p =>
          fail problem p : Parser Declaration)
        (position >>= fun p => fail problem p) :=
    matches_position.next fun _ =>
      matches_fail rfl rfl hOther
  refine matches_current.bind fun {a b} hAlike => ?_
  rcases hAlike.cases with rfl | ⟨hLeft, hRight, -⟩
  · split
    · exact (matches_functionDecl hNested).next
        fun _ => matches_pure rfl
    · exact hProperty.next fun _ => matches_pure rfl
    · exact hProperty.next fun _ => matches_pure rfl
    · exact hFail _ rfl
    · exact matches_unexpected _
    · exact hFail _ rfl
  · rcases TokenKind.eq_of_isName hLeft with h | h | h | h
    all_goals
      rcases TokenKind.eq_of_isName hRight with i | i | i | i
      all_goals
        rw [h, i]
        exact hFail _ rfl

theorem matches_nextDeclaration
    (hNested : L.NestedMatches ts nested) :
    L.Matches ts Eq (nextDeclaration nested)
      (nextDeclaration nested) :=
  matches_hasMore.next fun _ =>
    matches_ite
      ((matches_recovering topLevelCheckpoint_eq
        (matches_declaration hNested)).next
          fun _ => matches_pure rfl)
      (matches_pure rfl)

------------------------------------------------------------
-- All depths of nesting
------------------------------------------------------------

theorem nestedMatches_nestedWithin :
    ∀ depth, L.NestedMatches ts (nestedWithin depth)
  | 0 =>
      { expression := fun _ => matches_pure rfl
        block := fun _ => matches_missingExpression }
  | depth + 1 =>
      have hNested := nestedMatches_nestedWithin depth
      { expression := matches_expression hNested
        block := matches_block hNested }

end ParserProperty

------------------------------------------------------------
-- Programs
------------------------------------------------------------

namespace Grammar

open SourceCheck.Parser
open SourceCheck.ParserState

/-
  What stands in a program, and where its text ends: all
  that a program is made of but its scope and its symbols.
-/
abbrev ProgramItems :=
  List (Option Import) × List (Option Declaration) × Span

/- Read what stands in a program. -/
def programItems (nested : Nested) :
    Parser ProgramItems := do
  let imports ← collect (nextImport nested)
  let declarations ← collect (nextDeclaration nested)
  let stop ← expect .eof "end of file"
  return (imports, declarations, stop.span)

/- The program of the items, without those that failed. -/
def programOf
    (items : ProgramItems)
    (scope : ScopeId)
    (symbols : Symbols) :
    Program :=
  let imports := items.1.filterMap id
  let declarations := items.2.1.filterMap id
  ⟨imports, declarations, scope, symbols,
    programSpan imports declarations items.2.2⟩

/- The symbols are taken behind all else. -/
theorem program_eq (nested : Nested) :
    program nested =
      inNewScope fun scope =>
        programItems nested >>= fun items =>
          takeSymbols >>= fun symbols =>
            pure (programOf items scope symbols) := by
  unfold program programItems
  simp only [bind_assoc, pure_bind]
  rfl

theorem outcome_program
    (nested : Nested)
    (s : ParserState) :
    (program nested).outcome s =
      match (programItems nested).outcome s.opened with
      | (.ok items, u) =>
          (.ok (programOf items s.newScope u.symbols),
            (u.withSymbols .empty).closed)
      | (.error d, u) => (.error d, u.closed) := by
  rw [program_eq, outcome_inNewScope, outcome_bind]
  rcases (programItems nested).outcome s.opened with
    ⟨d | items, u⟩
  · rfl
  · rfl

end Grammar

theorem ParserProperty.matches_programItems
    {L : ParserProperty}
    {ts : List Token}
    {nested : Nested}
    (hNested : L.NestedMatches ts nested) :
    L.Matches ts Eq (Grammar.programItems nested)
      (Grammar.programItems nested) := by
  refine (matches_collect
    (matches_nextImport hNested)).next fun imports => ?_
  refine (matches_collect
    (matches_nextDeclaration hNested)).next
      fun declarations => ?_
  refine (matches_expect rfl _).bind fun {a b} hStop => ?_
  rw [hStop.span_eq]
  exact matches_pure rfl

end SourceCheck
