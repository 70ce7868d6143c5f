import SourceCheck.Proofs.Operators.Following
import SourceCheck.Proofs.Syntax.Program

/-
  The parser gives what has a derivation.

  Where a phrase has a derivation, the parser of the phrase
  gives its tree and stops behind it.  Each token costs a
  loop one step, and nests an expression and a block at most,
  so that twice as much depth as tokens is enough.

  Key definitions include:
    * `TypePhrase.Runs`
    * `Phrase.Runs`
    * `Phrase.Yields`

  Key theorems include:
    * `DerivesType.runs`
    * `Derives.runs`
    * `Derives.unique`
-/

namespace SourceCheck

open SourceCheck.Parser
open SourceCheck.Grammar

variable {s t u v : ParserState}

------------------------------------------------------------
-- Written types
------------------------------------------------------------

/- Operands under the joins, the loosest first. -/
def joinedTypes : List TypeJoin → Parser TypeExpr
  | [] => namedType
  | join :: joins => joined join (joinedTypes joins)

theorem typeExpr_eq (power : Power) :
    typeExpr power = joinedTypes (joinsAbove power) := by
  rw [typeExpr_eq_layeredType]
  cases power <;> rfl

/- A type behind a separator, or no type. -/
def typeBehind
    (separator : TokenKind)
    (power : Power)
    (fallback : Span) :
    Parser TypeExpr := do
  if ← accept separator then
    typeExpr power
  else
    return .new .absent fallback

/- The parser of the phrase gives the type. -/
def TypePhrase.Runs
    (s : ParserState)
    (x : TypeExpr)
    (t : ParserState) :
    TypePhrase → Prop
  | .operand joins => (joinedTypes joins).outcome s = (.ok x, t)
  | .extensions join joins left =>
      ∀ budget : List Token,
        s.left ≤ budget.length →
          (loopWithin (joinNext join (joinedTypes joins))
              budget left).outcome s =
            (.ok x, t)
  | .behind separator power fallback =>
      (typeBehind separator power fallback).outcome s =
        (.ok x, t)

theorem outcome_joinNext_none
    {join : TypeJoin}
    {operand : Parser TypeExpr}
    {left : TypeExpr}
    (hStop : s.token.kind ≠ join.token) :
    (joinNext join operand left).outcome s =
      (.ok none, s) := by
  unfold joinNext
  rw [outcome_bind, outcome_accept, if_neg hStop]
  rfl

theorem outcome_joinNext_some
    {join : TypeJoin}
    {operand : Parser TypeExpr}
    {left x : TypeExpr}
    (hJoin : s.token.kind = join.token)
    (hRight : operand.outcome s.next = (.ok x, t)) :
    (joinNext join operand left).outcome s =
      (.ok (some (join.combine left x)), t) := by
  unfold joinNext
  rw [outcome_bind, outcome_accept, if_pos hJoin]
  dsimp only
  rw [if_pos rfl, outcome_bind, hRight]
  rfl

theorem DerivesType.runs
    {phrase : TypePhrase}
    {x : TypeExpr}
    (hDerives : DerivesType phrase s x t) :
    phrase.Runs s x t := by
  induction hDerives with
  | @name s hName =>
      change namedType.outcome s = _
      unfold namedType
      rw [outcome_bind, outcome_checkName, hName]
      rfl
  | @joined join joins s x t y u hFirst _ ihFirst ihMore =>
      change (Grammar.joined join (joinedTypes joins)).outcome
        s = _
      change (joinedTypes joins).outcome s = _ at ihFirst
      unfold Grammar.joined loop
      rw [outcome_bind, ihFirst]
      dsimp only
      rw [outcome_bind, outcome_get]
      exact ihMore t.stream.ahead (Nat.le_refl _)
  | stop hStop =>
      exact fun budget _ =>
        outcome_loopWithin_none
          (outcome_joinNext_none hStop) budget
  | @more join joins left s x t y u hJoin hRight _ ihRight
      ihMore =>
      intro budget hBudget
      have hMore : s.token.kind ≠ .eof := by
        rw [hJoin]
        cases join <;> decide
      have hPassed := ParserState.left_next hMore
      have hLeft := hRight.left_le
      refine outcome_loopWithin_some
        (outcome_joinNext_some hJoin ihRight)
        (fun fewer hFewer => ?_) (by omega)
      exact ihMore fewer (by omega)
  | @present separator power fallback s x t hThere _ ih =>
      change (typeBehind separator power fallback).outcome s =
        _
      unfold typeBehind
      rw [outcome_bind, outcome_accept, if_pos hThere,
        typeExpr_eq]
      exact ih
  | @absent separator power fallback s hNone =>
      change (typeBehind separator power fallback).outcome s =
        _
      unfold typeBehind
      rw [outcome_bind, outcome_accept, if_neg hNone]
      rfl

------------------------------------------------------------
-- Literals
------------------------------------------------------------

variable {nested : Nested}
variable {token : Token}
variable {e f : Expr}

theorem outcome_textPart
    (hText : token.kind = .stringContent) :
    (stringPart nested token).outcome s =
      (.ok (.text token.value token.span), s) := by
  unfold stringPart
  rw [hText]
  rfl

theorem outcome_escapePart
    {c : Char}
    (hEscape : token.kind = .escapeSequence)
    (hChar : unescape? token.value = some c) :
    (stringPart nested token).outcome s =
      (.ok (.text c.toString token.span), s) := by
  unfold stringPart
  rw [hEscape]
  dsimp only
  rw [hChar]
  rfl

theorem outcome_embeddedPart
    (hOpen : token.kind = .stringTemplateStart)
    (hExpr :
      (nested.expression .loosest).outcome s =
        (.ok (some e), t))
    (hClose : t.token.kind = .stringTemplateEnd) :
    (stringPart nested token).outcome s =
      (.ok (.embedded e), t.next) := by
  unfold stringPart
  rw [hOpen]
  dsimp only
  rw [outcome_bind, outcome_required hExpr]
  dsimp only
  rw [outcome_bind, outcome_expect hClose]
  rfl

theorem outcome_nextStringPart_none
    (hStop :
      s.token.kind = .stringEnd ∨ s.token.kind = .eof) :
    (nextStringPart nested).outcome s = (.ok none, s) := by
  unfold nextStringPart
  rw [outcome_unlessEnd, if_neg]
  · rfl
  · rintro ⟨hNotEnd, hMore⟩
    exact hStop.elim hNotEnd hMore

theorem outcome_nextStringPart_some
    {part : StringPart}
    (hMore :
      s.token.kind ≠ .stringEnd ∧ s.token.kind ≠ .eof)
    (hPart :
      (stringPart nested s.token).outcome s.next =
        (.ok part, t)) :
    (nextStringPart nested).outcome s =
      (.ok (some part), t) := by
  unfold nextStringPart
  rw [outcome_unlessEnd, if_pos hMore, outcome_bind,
    outcome_consume]
  dsimp only
  rw [outcome_bind, hPart]
  rfl

theorem outcome_stringLiteral
    {parts : List StringPart}
    (hParts :
      (collectWithin (nextStringPart nested)
          s.stream.ahead).outcome s =
        (.ok parts, t))
    (hClose : t.token.kind = .stringEnd) :
    (stringLiteral nested token).outcome s =
      (.ok
        (.new (stringForm parts)
          (token.span.between t.token.span)),
        t.next) := by
  unfold stringLiteral collect
  rw [bind_assoc, outcome_bind, outcome_get]
  dsimp only
  rw [outcome_bind, hParts]
  dsimp only
  rw [outcome_bind, outcome_expect hClose]
  rfl

------------------------------------------------------------
-- Expressions behind a token
------------------------------------------------------------

/- An expression behind a token, if the token is there. -/
def valueBehind
    (nested : Nested)
    (kind : TokenKind) :
    Parser (Option Expr) := do
  if ← accept kind then
    return some (← nested.required .loosest)
  else
    return none

theorem assigned_eq (nested : Nested) :
    assigned nested = valueBehind nested .assignment :=
  rfl

theorem elseBranch_eq (nested : Nested) :
    elseBranch nested = valueBehind nested .kwElse :=
  rfl

theorem outcome_behind_some
    {kind : TokenKind}
    (hThere : s.token.kind = kind)
    (hValue :
      (nested.expression .loosest).outcome s.next =
        (.ok (some e), t)) :
    (valueBehind nested kind).outcome s = (.ok (some e), t) := by
  unfold valueBehind
  rw [outcome_bind, outcome_accept, if_pos hThere]
  dsimp only
  rw [if_pos rfl, outcome_bind, outcome_required hValue]
  rfl

theorem outcome_behind_none
    {kind : TokenKind}
    (hNone : s.token.kind ≠ kind) :
    (valueBehind nested kind).outcome s = (.ok none, s) := by
  unfold valueBehind
  rw [outcome_bind, outcome_accept, if_neg hNone]
  rfl

------------------------------------------------------------
-- Compound expressions
------------------------------------------------------------

theorem outcome_conditional
    {o : Option Expr}
    (hOpen : s.token.kind = .openParen)
    (hCondition :
      (nested.expression .loosest).outcome s.next =
        (.ok (some e), t))
    (hClose : t.token.kind = .closeParen)
    (hThen :
      (nested.expression .loosest).outcome t.next =
        (.ok (some f), u))
    (hElse :
      (valueBehind nested .kwElse).outcome u = (.ok o, v)) :
    (Grammar.conditional nested token).outcome s =
      (.ok
        (.new (.conditional e f o)
          (token.span.between
            ((o.map (·.span)).getD f.span))),
        v) := by
  unfold Grammar.conditional
  rw [outcome_bind, outcome_expect hOpen]
  dsimp only
  rw [outcome_bind, outcome_required hCondition]
  dsimp only
  rw [outcome_bind, outcome_expect hClose]
  dsimp only
  rw [outcome_bind, outcome_required hThen]
  dsimp only
  rw [elseBranch_eq, outcome_bind, hElse]
  rfl

/- A body is a value behind `=`, or a block. -/
theorem outcome_bodyValue
    (hAssign : s.token.kind = .assignment)
    (hValue :
      (nested.expression .loosest).outcome s.next =
        (.ok (some e), t)) :
    (functionBody nested).outcome s = (.ok (some e), t) := by
  unfold functionBody
  rw [assigned_eq, outcome_bind,
    outcome_behind_some hAssign hValue]
  rfl

theorem outcome_bodyBlock
    (hOpen : s.token.kind = .openCurly)
    (hBlock :
      (nested.block s.token).outcome s.next = (.ok e, t)) :
    (functionBody nested).outcome s = (.ok (some e), t) := by
  have hNone : s.token.kind ≠ .assignment := by
    rw [hOpen]
    decide
  unfold functionBody
  rw [assigned_eq, outcome_bind, outcome_behind_none hNone]
  dsimp only
  rw [outcome_bind, outcome_check, decide_eq_true hOpen]
  dsimp only
  rw [if_pos rfl, outcome_bind, outcome_consume]
  dsimp only
  rw [outcome_bind, hBlock]
  rfl

theorem outcome_functionLiteral
    {ps : List Parameter}
    {x : TypeExpr}
    (hNone : ¬ s.token.kind.isName)
    (hSignature :
      (signature nested).outcome s.opened = (.ok (ps, x), t))
    (hBody :
      (functionBody nested).outcome t = (.ok (some e), u)) :
    (Grammar.functionLiteral nested token).outcome s =
      (.ok
        (.new (.function ps x e s.newScope)
          (token.span.between e.span)),
        u.closed) := by
  unfold Grammar.functionLiteral
  rw [outcome_bind, outcome_checkName]
  dsimp only
  rw [if_neg hNone, outcome_inNewScope, outcome_bind,
    hSignature]
  dsimp only
  rw [outcome_bind, hBody]
  rfl

theorem outcome_lambda
    {ps : List Parameter}
    (hItems :
      (separated .comma .pipe lambdaParameter).outcome
          s.opened =
        (.ok ps, t))
    (hClose : t.token.kind = .pipe)
    (hBody :
      (nested.expression .loosest).outcome t.next =
        (.ok (some e), u)) :
    (Grammar.lambda nested token).outcome s =
      (.ok
        (.new (.lambda ps e s.newScope)
          (token.span.between e.span)),
        u.closed) := by
  unfold Grammar.lambda
  rw [outcome_inNewScope, outcome_bind, hItems]
  dsimp only
  rw [outcome_bind, outcome_expect hClose]
  dsimp only
  rw [outcome_bind, outcome_required hBody]
  rfl

theorem outcome_ret
    {o : Option Expr}
    (hValue :
      (nested.expression .loosest).outcome s = (.ok o, t)) :
    (Grammar.ret nested token).outcome s =
      (.ok
        (.new (.ret o)
          (token.span.between
            ((o.map (·.span)).getD token.span))),
        t) := by
  unfold Grammar.ret
  rw [outcome_bind, hValue]
  rfl

------------------------------------------------------------
-- Parameters
------------------------------------------------------------

theorem outcome_expectName
    (hName : s.token.kind.isName) :
    expectName.outcome s = (.ok s.token, s.next) := by
  unfold expectName
  rw [outcome_bind, outcome_checkName]
  dsimp only
  rw [if_pos hName]
  rfl

/- A definition is made as the parser declares it. -/
theorem outcome_declare_of
    {name : Token}
    {kind : DefinitionKind}
    {span : Span}
    {visibleFrom : Nat}
    {isMutable : Bool}
    {id : DefinitionId}
    (hDeclares :
      s.Declares
        ⟨name.name, kind, span, visibleFrom, isMutable, none⟩
        id t) :
    (declare name kind span visibleFrom isMutable).outcome s =
      (.ok id, t) := by
  rcases hDeclares with ⟨rfl, scope, hHead, hFree, rfl⟩
  rcases List.head?_eq_some_iff.1 hHead with
    ⟨scopes, hScopes⟩
  rw [outcome_declare, hScopes]
  dsimp only
  unfold ParserState.declared
  rw [if_neg (ne_true_of_eq_false hFree)]

theorem outcome_parameter
    {x : TypeExpr}
    {o : Option Expr}
    {span : Span}
    {id : DefinitionId}
    (hName : s.token.kind.isName)
    (hColon : s.next.token.kind = .colon)
    (hType :
      (typeExpr .loosest).outcome s.next.next = (.ok x, t))
    (hFallback :
      (valueBehind nested .assignment).outcome t = (.ok o, u))
    (hSpan :
      span =
        s.token.span.between
          ((o.map (·.span)).getD x.span))
    (hDeclares :
      u.Declares
        ⟨s.token.name, .argument, span, span.stop.offset,
          false, none⟩
        id v) :
    (Grammar.parameter nested).outcome s =
      (.ok ⟨s.token.name, x, o, id, span⟩, v) := by
  subst hSpan
  unfold Grammar.parameter
  rw [outcome_bind, outcome_expectName hName]
  dsimp only
  rw [outcome_bind, outcome_expect hColon]
  dsimp only
  rw [outcome_bind, hType]
  dsimp only
  rw [assigned_eq, outcome_bind, hFallback]
  dsimp only
  rw [outcome_bind, outcome_declare_of hDeclares]
  rfl

theorem outcome_lambdaParameter
    {x : TypeExpr}
    {span : Span}
    {id : DefinitionId}
    (hName : s.token.kind.isName)
    (hType :
      (typeBehind .colon .logicalOr s.token.span).outcome
          s.next =
        (.ok x, t))
    (hSpan : span = s.token.span.between x.span)
    (hDeclares :
      t.Declares
        ⟨s.token.name, .argument, span,
          s.token.span.start.offset, false, none⟩
        id u) :
    Grammar.lambdaParameter.outcome s =
      (.ok ⟨s.token.name, x, none, id, span⟩, u) := by
  subst hSpan
  unfold typeBehind at hType
  unfold Grammar.lambdaParameter
  rw [outcome_bind, outcome_accept] at hType
  rw [outcome_bind, outcome_expectName hName]
  dsimp only
  rw [outcome_bind, outcome_accept]
  by_cases hThere : s.next.token.kind = .colon
  · rw [if_pos hThere] at hType ⊢
    dsimp only at hType ⊢
    rw [if_pos rfl] at hType ⊢
    rw [outcome_bind, hType]
    dsimp only
    rw [outcome_bind, outcome_declare_of hDeclares]
    rfl
  · rw [if_neg hThere] at hType ⊢
    cases hType
    dsimp only
    rw [if_neg Bool.false_ne_true, outcome_bind,
      outcome_pure]
    dsimp only
    rw [outcome_bind, outcome_declare_of hDeclares]
    rfl

theorem outcome_signature
    {ps : List Parameter}
    {x : TypeExpr}
    (hOpen : s.token.kind = .openParen)
    (hItems :
      (separated .comma .closeParen
          (Grammar.parameter nested)).outcome s.next =
        (.ok ps, t))
    (hClose : t.token.kind = .closeParen)
    (hType :
      (typeBehind .arrow .loosest t.token.span).outcome
          t.next =
        (.ok x, u)) :
    (signature nested).outcome s = (.ok (ps, x), u) := by
  unfold signature
  rw [outcome_bind, outcome_expect hOpen]
  dsimp only
  rw [outcome_bind, hItems]
  dsimp only
  rw [outcome_bind, outcome_expect hClose]
  change Parser.outcome
    (do
      let returnType ←
        typeBehind .arrow .loosest t.token.span
      return (ps, returnType)) t.next = _
  rw [outcome_bind, hType]
  rfl

theorem outcome_importEntry
    (hName : s.token.kind.isName)
    (hNone : s.next.token.kind ≠ .kwAs) :
    importEntry.outcome s =
      (.ok ⟨s.token.name, none, s.token.span⟩, s.next) := by
  unfold importEntry
  rw [outcome_bind, outcome_expectName hName]
  dsimp only
  rw [outcome_bind, outcome_accept, if_neg hNone]
  rfl

theorem outcome_importEntry_renamed
    (hName : s.token.kind.isName)
    (hAs : s.next.token.kind = .kwAs)
    (hNewName : s.next.next.token.kind.isName) :
    importEntry.outcome s =
      (.ok
        ⟨s.token.name, some s.next.next.token.name,
          s.token.span.between s.next.next.token.span⟩,
        s.next.next.next) := by
  unfold importEntry
  rw [outcome_bind, outcome_expectName hName]
  dsimp only
  rw [outcome_bind, outcome_accept, if_pos hAs]
  dsimp only
  rw [if_pos rfl, outcome_bind, outcome_expectName hNewName]
  rfl

------------------------------------------------------------
-- Declarations
------------------------------------------------------------

theorem outcome_variableDecl
    {kind : DefinitionKind}
    {x : TypeExpr}
    {o : Option Expr}
    {span : Span}
    {id : DefinitionId}
    (hName : s.next.token.kind.isName)
    (hType :
      (typeBehind .colon .loosest s.next.token.span).outcome
          s.next.next =
        (.ok x, t))
    (hInitializer :
      (valueBehind nested .assignment).outcome t = (.ok o, u))
    (hStop : u.token.kind = .semicolon)
    (hSpan : span = s.token.span.between u.token.span)
    (hDeclares :
      u.next.Declares
        ⟨s.next.token.name, kind, span, span.stop.offset,
          s.token.kind = .kwVar, none⟩
        id v) :
    (variableDecl nested kind).outcome s =
      (.ok
        ⟨s.token.kind = .kwVar, s.next.token.name, x, o, id,
          span⟩,
        v) := by
  subst hSpan
  unfold variableDecl
  rw [outcome_bind, outcome_consume]
  dsimp only
  rw [outcome_bind, outcome_expectName hName]
  dsimp only
  change Parser.outcome
    (typeBehind .colon .loosest s.next.token.span >>=
      fun type => _) s.next.next = _
  rw [outcome_bind, hType]
  dsimp only
  rw [assigned_eq, outcome_bind, hInitializer]
  dsimp only
  rw [outcome_bind, outcome_expect hStop]
  dsimp only
  rw [outcome_bind, outcome_declare_of hDeclares]
  rfl

theorem outcome_namedValue
    (hAssign : s.token.kind = .assignment)
    (hValue :
      (nested.expression .loosest).outcome s.next =
        (.ok (some e), t))
    (hStop : t.token.kind = .semicolon) :
    (namedFunctionBody nested).outcome s =
      (.ok (some e), t.next) := by
  unfold namedFunctionBody
  rw [assigned_eq, outcome_bind,
    outcome_behind_some hAssign hValue]
  dsimp only
  rw [outcome_bind, outcome_expect hStop]
  rfl

theorem outcome_namedBlock
    (hOpen : s.token.kind = .openCurly)
    (hBlock :
      (nested.block s.token).outcome s.next = (.ok e, t)) :
    (namedFunctionBody nested).outcome s =
      (.ok (some e), t) := by
  have hNone : s.token.kind ≠ .assignment := by
    rw [hOpen]
    decide
  unfold namedFunctionBody
  rw [assigned_eq, outcome_bind, outcome_behind_none hNone]
  dsimp only
  rw [outcome_bind, outcome_check, decide_eq_true hOpen]
  dsimp only
  rw [if_pos rfl, outcome_bind, outcome_consume]
  dsimp only
  rw [outcome_bind, hBlock]
  rfl

/- A function without a body may end with a semicolon. -/
theorem outcome_namedNone
    (hAssign : s.token.kind ≠ .assignment)
    (hOpen : s.token.kind ≠ .openCurly) :
    (namedFunctionBody nested).outcome s =
      (.ok none,
        if s.token.kind = .semicolon then s.next else s) := by
  unfold namedFunctionBody
  rw [assigned_eq, outcome_bind, outcome_behind_none hAssign]
  dsimp only
  rw [outcome_bind, outcome_check, decide_eq_false hOpen]
  dsimp only
  rw [if_neg Bool.false_ne_true, outcome_bind,
    outcome_accept]
  by_cases hStop : s.token.kind = .semicolon
  · rw [if_pos hStop, if_pos hStop]
    rfl
  · rw [if_neg hStop, if_neg hStop]
    rfl

theorem outcome_functionDecl
    {ps : List Parameter}
    {x : TypeExpr}
    {o : Option Expr}
    {span : Span}
    {id : DefinitionId}
    (hKeyword : s.token.kind = .kwFun)
    (hName : s.next.token.kind.isName)
    (hSignature :
      (signature nested).outcome s.next.next.opened =
        (.ok (ps, x), t))
    (hBody : (namedFunctionBody nested).outcome t = (.ok o, u))
    (hSpan :
      span = s.token.span.between u.stream.previous.span)
    (hDeclares :
      u.closed.Declares
        ⟨s.next.token.name, .function, span,
          s.next.token.span.start.offset, false, none⟩
        id v) :
    (functionDecl nested).outcome s =
      (.ok
        ⟨s.next.token.name, ps, x, o,
          s.next.next.newScope, id, span⟩,
        v) := by
  subst hSpan
  unfold functionDecl
  rw [outcome_bind, outcome_expect hKeyword]
  dsimp only
  rw [outcome_bind, outcome_expectName hName]
  dsimp only
  rw [outcome_bind, outcome_inNewScope, outcome_bind,
    hSignature]
  dsimp only
  rw [outcome_bind, hBody]
  dsimp only
  rw [outcome_pure]
  dsimp only
  unfold previous
  rw [outcome_bind, outcome_look]
  dsimp only
  rw [outcome_bind]
  erw [outcome_declare_of hDeclares]
  rfl

------------------------------------------------------------
-- Statements
------------------------------------------------------------

theorem outcome_endedStatement
    (hExpr :
      (nested.expression .loosest).outcome s =
        (.ok (some e), t))
    (hStop : t.token.kind = .semicolon) :
    (expressionStatement nested).outcome s =
      (.ok (.expression e), t.next) := by
  unfold expressionStatement
  rw [outcome_bind, outcome_required hExpr]
  dsimp only
  rw [outcome_bind, outcome_accept, if_pos hStop]
  rfl

theorem outcome_openStatement
    (hExpr :
      (nested.expression .loosest).outcome s =
        (.ok (some e), t))
    (hNone : t.token.kind ≠ .semicolon)
    (hStop :
      e.endsWithBlock ∨ t.token.kind = .closeCurly) :
    (expressionStatement nested).outcome s =
      (.ok (.expression e), t) := by
  unfold expressionStatement
  rw [outcome_bind, outcome_required hExpr]
  dsimp only
  rw [outcome_bind, outcome_accept, if_neg hNone]
  dsimp only
  rw [if_neg Bool.false_ne_true]
  by_cases hBlock : e.endsWithBlock
  · rw [if_pos hBlock]
    rfl
  · have hClose := hStop.resolve_left hBlock
    rw [if_neg hBlock, outcome_bind, outcome_check,
      decide_eq_true hClose]
    rfl

theorem outcome_variableStatement
    {d : VariableDecl}
    (hKeyword :
      s.token.kind = .kwVal ∨ s.token.kind = .kwVar)
    (hVariable :
      (variableDecl nested .localVariable).outcome s =
        (.ok d, t)) :
    (statement nested).outcome s = (.ok (.variable d), t) := by
  unfold statement
  rw [outcome_bind, outcome_current]
  dsimp only
  rcases hKeyword with hVal | hVar
  · rw [hVal]
    dsimp only
    rw [outcome_bind, hVariable]
    rfl
  · rw [hVar]
    dsimp only
    rw [outcome_bind, hVariable]
    rfl

theorem outcome_functionStatement
    {d : FunctionDecl}
    (hKeyword : s.AtFunction)
    (hFunction :
      (functionDecl nested).outcome s = (.ok d, t)) :
    (statement nested).outcome s = (.ok (.function d), t) := by
  have hMore : s.token.kind ≠ .eof := by
    rw [hKeyword.1]
    decide
  have hAhead :=
    TokenStream.ahead_ne_nil_of_hasMore
      (decide_eq_true hMore)
  unfold statement
  rw [outcome_bind, outcome_current]
  dsimp only
  rw [hKeyword.1]
  dsimp only
  rw [outcome_bind, outcome_nextIsName hAhead, hKeyword.2]
  dsimp only
  rw [if_pos rfl, outcome_bind, hFunction]
  rfl

/- Other statements are expressions. -/
theorem outcome_statement
    (hVal : s.token.kind ≠ .kwVal)
    (hVar : s.token.kind ≠ .kwVar)
    (hFunction : ¬ s.AtFunction) :
    (statement nested).outcome s =
      (expressionStatement nested).outcome s := by
  unfold statement
  rw [outcome_bind, outcome_current]
  dsimp only
  split
  · exact absurd ‹_› hVal
  · exact absurd ‹_› hVar
  · rename_i hFun
    have hMore : s.token.kind ≠ .eof := by
      rw [hFun]
      decide
    have hAhead :=
      TokenStream.ahead_ne_nil_of_hasMore
        (decide_eq_true hMore)
    have hNone : s.next.token.kind.isName = false :=
      eq_false_of_ne_true fun hName =>
        hFunction ⟨hFun, hName⟩
    rw [outcome_bind, outcome_nextIsName hAhead, hNone]
    rfl
  · rfl

theorem outcome_nextStatement_none
    (hStop :
      s.token.kind = .closeCurly ∨ s.token.kind = .eof) :
    (nextStatement nested).outcome s = (.ok none, s) := by
  unfold nextStatement
  rw [outcome_unlessEnd, if_neg]
  · rfl
  · rintro ⟨hNotEnd, hMore⟩
    exact hStop.elim hNotEnd hMore

theorem outcome_nextStatement_some
    {x : Statement}
    (hSome : s.token.kind ≠ .closeCurly)
    (hGoesOn : s.token.kind ≠ .eof)
    (hStatement :
      (statement nested).outcome s = (.ok x, t)) :
    (nextStatement nested).outcome s =
      (.ok (some (some x)), t) := by
  unfold nextStatement
  rw [outcome_unlessEnd, if_pos ⟨hSome, hGoesOn⟩,
    outcome_bind, outcome_recovering, hStatement]
  rfl

theorem outcome_block
    {xs : List Statement}
    (hStatements :
      (collectWithin (nextStatement nested)
          s.opened.stream.ahead).outcome s.opened =
        (.ok (xs.map some), t))
    (hClose : t.token.kind = .closeCurly) :
    (block nested token).outcome s =
      (.ok
        (.new (.block xs s.newScope)
          (token.span.between t.token.span)),
        t.next.closed) := by
  have hAll : (xs.map some).filterMap id = xs := by
    rw [List.filterMap_map]
    exact List.filterMap_some
  unfold block collect
  rw [outcome_inNewScope, bind_assoc, outcome_bind,
    outcome_get]
  dsimp only
  rw [outcome_bind, hStatements]
  dsimp only
  rw [outcome_bind, outcome_expect hClose]
  dsimp only
  rw [hAll]
  rfl

------------------------------------------------------------
-- Derivations
------------------------------------------------------------

/- The parser of an item. -/
def Item.parser (nested : Nested) : (i : Item) → Parser i.Result
  | .argument => Grammar.argument nested
  | .parameter => Grammar.parameter nested
  | .lambdaParameter => Grammar.lambdaParameter
  | .entry => importEntry

/-
  The parser of the phrase gives the tree, with enough depth
  and enough budget for all tokens that are left.
-/
def Phrase.Runs :
    (phrase : Phrase) →
      ParserState → phrase.Result → ParserState → Prop
  | .expression p, s, e, t =>
      ∀ depth,
        2 * s.left < depth →
          ((nestedWithin depth).expression p).outcome s =
            (.ok (some e), t)
  | .extensions p left, s, e, t =>
      ∀ depth (budget : List Token),
        2 * s.left < depth →
          s.left ≤ budget.length →
            (loopWithin (extend (nestedWithin depth) p)
                budget left).outcome s =
              (.ok e, t)
  | .start starter token, s, e, t =>
      ∀ depth,
        2 * s.left + 1 < depth →
          (starter.parser (nestedWithin depth)
              token).outcome s =
            (.ok e, t)
  | .extension extender left operator q, s, e, t =>
      ∀ depth,
        2 * s.left < depth →
          (extender.parser (nestedWithin depth) left operator
              q).outcome s =
            (.ok e, t)
  | .behind kind, s, o, t =>
      ∀ depth,
        2 * s.left < depth →
          (valueBehind (nestedWithin depth) kind).outcome s =
            (.ok o, t)
  | .item i, s, x, t =>
      ∀ depth,
        2 * s.left < depth →
          (i.parser (nestedWithin depth)).outcome s =
            (.ok x, t)
  | .items i, s, xs, t =>
      ∀ depth,
        2 * s.left < depth →
          (separated .comma i.terminator
              (i.parser (nestedWithin depth))).outcome s =
            (.ok xs, t)
  | .moreItems i, s, xs, t =>
      ∀ depth (budget : List Token),
        2 * s.left < depth →
          s.left ≤ budget.length →
            (collectWithin
                (nextItem .comma i.terminator
                  (i.parser (nestedWithin depth)))
                budget).outcome s =
              (.ok xs, t)
  | .signature, s, r, t =>
      ∀ depth,
        2 * s.left < depth →
          (Grammar.signature (nestedWithin depth)).outcome s =
            (.ok r, t)
  | .body, s, e, t =>
      ∀ depth,
        2 * s.left < depth →
          (functionBody (nestedWithin depth)).outcome s =
            (.ok (some e), t)
  | .namedBody, s, o, t =>
      ∀ depth,
        2 * s.left < depth →
          (namedFunctionBody (nestedWithin depth)).outcome s =
            (.ok o, t)
  | .parts, s, xs, t =>
      ∀ depth (budget : List Token),
        2 * s.left < depth →
          s.left ≤ budget.length →
            (collectWithin
                (nextStringPart (nestedWithin depth))
                budget).outcome s =
              (.ok xs, t)
  | .block token, s, e, t =>
      ∀ depth,
        2 * s.left + 1 < depth →
          ((nestedWithin depth).block token).outcome s =
            (.ok e, t)
  | .statements, s, xs, t =>
      ∀ depth (budget : List Token),
        2 * s.left < depth →
          s.left ≤ budget.length →
            (collectWithin
                (nextStatement (nestedWithin depth))
                budget).outcome s =
              (.ok (xs.map some), t)
  | .statement, s, x, t =>
      ∀ depth,
        2 * s.left < depth →
          (Grammar.statement (nestedWithin depth)).outcome s =
            (.ok x, t)
  | .variableDecl kind, s, d, t =>
      ∀ depth,
        2 * s.left < depth →
          (Grammar.variableDecl (nestedWithin depth)
              kind).outcome s =
            (.ok d, t)
  | .functionDecl, s, d, t =>
      ∀ depth,
        2 * s.left < depth →
          (Grammar.functionDecl (nestedWithin depth)).outcome s =
            (.ok d, t)

/-
  The parser gives the tree of the phrase, if tokens are
  left behind it.
-/
def Phrase.Yields
    (phrase : Phrase)
    (s : ParserState)
    (r : phrase.Result)
    (t : ParserState) :
    Prop :=
  0 < t.left → phrase.Runs s r t

/- A token of a kind that is not the last is passed. -/
theorem left_next_of_kind
    {kind : TokenKind}
    (hKind : s.token.kind = kind)
    (hMore : kind ≠ .eof) :
    s.next.left < s.left :=
  ParserState.left_next (by rw [hKind]; exact hMore)

/-
  One budget is for the first part, and one for the
  others.
-/
theorem Phrase.Yields.expression
    {power : Power}
    {starter : Starter}
    {first e : Expr}
    (hStart : s.token.kind.starter? = some starter)
    (hFirst : Derives (.start starter s.token) s.next first t)
    (hMore : Derives (.extensions power first) t e u)
    (ihFirst :
      Phrase.Yields (.start starter s.token) s.next first t)
    (ihMore : Phrase.Yields (.extensions power first) t e u) :
    Phrase.Yields (.expression power) s e u := by
  intro hLeft depth hDepth
  have hPassed :=
    ParserState.left_next (ne_eof_of_starter hStart)
  have hStop := hFirst.left_le
  have hEnd := hMore.left_le
  dsimp only [Phrase.least] at hStop hEnd
  cases depth with
  | zero => exact absurd hDepth (Nat.not_lt_zero _)
  | succ depth =>
      exact outcome_expression hStart
        (ihFirst (by omega) depth (by omega))
        (ihMore hLeft depth _ (by omega) (Nat.le_refl _))

theorem Phrase.Yields.more
    {power : Power}
    {left : Expr}
    {extender : Extender}
    {q : Power}
    {e f : Expr}
    (hOperator : s.token.kind.extender? = some (extender, q))
    (hTight : power < q)
    (hExtension :
      Derives (.extension extender left s.token q) s.next e
        t)
    (hMore : Derives (.extensions power e) t f u)
    (ihExtension :
      Phrase.Yields (.extension extender left s.token q)
        s.next e t)
    (ihMore : Phrase.Yields (.extensions power e) t f u) :
    Phrase.Yields (.extensions power left) s f u := by
  intro hLeft depth budget hDepth hBudget
  have hPassed :=
    ParserState.left_next (ne_eof_of_extender hOperator)
  have hStop := hExtension.left_le
  have hEnd := hMore.left_le
  dsimp only [Phrase.least] at hStop hEnd
  refine outcome_loopWithin_some
    (outcome_extend_some hOperator hTight
      (ihExtension (by omega) depth (by omega)))
    (fun fewer hFewer => ?_) (by omega)
  exact ihMore hLeft depth fewer (by omega) (by omega)

theorem Phrase.Yields.conditional
    {token : Token}
    {condition thenBranch : Expr}
    {elseBranch : Option Expr}
    (hOpen : s.token.kind = .openParen)
    (hCondition :
      Derives (.expression .loosest) s.next condition t)
    (hClose : t.token.kind = .closeParen)
    (hThen :
      Derives (.expression .loosest) t.next thenBranch u)
    (hElse : Derives (.behind .kwElse) u elseBranch v)
    (ihCondition :
      Phrase.Yields (.expression .loosest) s.next condition
        t)
    (ihThen :
      Phrase.Yields (.expression .loosest) t.next thenBranch
        u)
    (ihElse :
      Phrase.Yields (.behind .kwElse) u elseBranch v) :
    Phrase.Yields (.start .conditional token) s
      (.new (.conditional condition thenBranch elseBranch)
        (token.span.between
          ((elseBranch.map (·.span)).getD thenBranch.span)))
      v := by
  intro hLeft depth hDepth
  have hPassed := left_next_of_kind hOpen nofun
  have hOver := left_next_of_kind hClose nofun
  have hStop := hCondition.left_le
  have hEnd := hThen.left_le
  have hLast := hElse.left_le
  dsimp only [Phrase.least] at hStop hEnd hLast
  exact outcome_conditional hOpen
    (ihCondition (by omega) depth (by omega)) hClose
    (ihThen (by omega) depth (by omega))
    (ihElse hLeft depth (by omega))

/- The scope of a function takes no token. -/
theorem Phrase.Yields.functionLiteral
    {token : Token}
    {parameters : List Parameter}
    {returnType : TypeExpr}
    {body : Expr}
    (hNone : ¬ s.token.kind.isName)
    (hSignature :
      Derives .signature s.opened (parameters, returnType)
        t)
    (hBody : Derives .body t body u)
    (ihSignature :
      Phrase.Yields .signature s.opened
        (parameters, returnType) t)
    (ihBody : Phrase.Yields .body t body u) :
    Phrase.Yields (.start .function token) s
      (.new
        (.function parameters returnType body s.newScope)
        (token.span.between body.span))
      u.closed := by
  intro hLeft depth hDepth
  have hStop := hSignature.left_le
  have hEnd := hBody.left_le
  rw [ParserState.left_opened] at hStop
  rw [ParserState.left_closed] at hLeft
  dsimp only [Phrase.least] at hStop hEnd
  exact outcome_functionLiteral hNone
    (ihSignature (by omega) depth
      (by rw [ParserState.left_opened]; omega))
    (ihBody hLeft depth (by omega))

theorem Phrase.Yields.lambda
    {token : Token}
    {parameters : List Parameter}
    {body : Expr}
    (hItems :
      Derives (.items .lambdaParameter) s.opened parameters
        t)
    (hClose : t.token.kind = .pipe)
    (hBody : Derives (.expression .loosest) t.next body u)
    (ihItems :
      Phrase.Yields (.items .lambdaParameter) s.opened
        parameters t)
    (ihBody :
      Phrase.Yields (.expression .loosest) t.next body u) :
    Phrase.Yields (.start .lambda token) s
      (.new (.lambda parameters body s.newScope)
        (token.span.between body.span))
      u.closed := by
  intro hLeft depth hDepth
  have hOver := left_next_of_kind hClose nofun
  have hStop := hItems.left_le
  have hEnd := hBody.left_le
  rw [ParserState.left_opened] at hStop
  rw [ParserState.left_closed] at hLeft
  dsimp only [Phrase.least] at hStop hEnd
  exact outcome_lambda
    (ihItems (by omega) depth
      (by rw [ParserState.left_opened]; omega))
    hClose (ihBody hLeft depth (by omega))

------------------------------------------------------------
-- Items of lists
------------------------------------------------------------

theorem Phrase.Yields.parameter
    {type : TypeExpr}
    {fallback : Option Expr}
    {span : Span}
    {id : DefinitionId}
    (hName : s.token.kind.isName)
    (hColon : s.next.token.kind = .colon)
    (hType :
      DerivesType (.operand (joinsAbove .loosest))
        s.next.next type t)
    (hSpan :
      span =
        s.token.span.between
          ((fallback.map (·.span)).getD type.span))
    (hDeclares :
      u.Declares
        ⟨s.token.name, .argument, span, span.stop.offset,
         false, none⟩
        id v)
    (ih : Phrase.Yields (.behind .assignment) t fallback u) :
    Phrase.Yields (.item .parameter) s
      ⟨s.token.name, type, fallback, id, span⟩ v := by
  intro hLeft depth hDepth
  have hFirst := s.left_next_le
  have hSecond := s.next.left_next_le
  have hStop := hType.left_le
  have hEnd := hDeclares.left_eq
  exact outcome_parameter hName hColon
    ((congrArg (Parser.outcome · _)
      (typeExpr_eq .loosest)).trans hType.runs)
    (ih (by omega) depth (by omega)) hSpan hDeclares

theorem Phrase.Yields.nextItem
    {i : Item}
    {x : i.Result}
    {xs : List i.Result}
    (hComma : s.token.kind = .comma)
    (hSome : s.next.token.kind ≠ i.terminator)
    (hItem : Derives (.item i) s.next x t)
    (hMore : Derives (.moreItems i) t xs u)
    (ihItem : Phrase.Yields (.item i) s.next x t)
    (ihMore : Phrase.Yields (.moreItems i) t xs u) :
    Phrase.Yields (.moreItems i) s (x :: xs) u := by
  intro hLeft depth budget hDepth hBudget
  have hPassed := left_next_of_kind hComma nofun
  have hStop := hItem.left_le
  have hEnd := hMore.left_le
  dsimp only [Phrase.least] at hStop hEnd
  refine outcome_collectWithin_some
    (outcome_nextItem_some hComma hSome
      (ihItem (by omega) depth (by omega)))
    (fun fewer hFewer => ?_) (by omega)
  exact ihMore hLeft depth fewer (by omega) (by omega)

theorem Phrase.Yields.namedNone
    (hStop : s.token.kind = .semicolon) :
    Phrase.Yields .namedBody s none s.next := by
  intro _ _ _
  have hNone :
      s.token.kind ≠ .assignment ∧
        s.token.kind ≠ .openCurly := by
    rw [hStop]
    decide
  refine (outcome_namedNone hNone.1 hNone.2).trans ?_
  rw [if_pos hStop]

theorem Phrase.Yields.escapePart
    {c : Char}
    {parts : List StringPart}
    (hEscape : s.token.kind = .escapeSequence)
    (hChar : unescape? s.token.value = some c)
    (ih : Phrase.Yields .parts s.next parts t) :
    Phrase.Yields .parts s
      (.text c.toString s.token.span :: parts) t := by
  intro hLeft depth budget hDepth hBudget
  have hPassed := left_next_of_kind hEscape nofun
  refine outcome_collectWithin_some
    (outcome_nextStringPart_some
      (by rw [hEscape]; decide)
      (outcome_escapePart hEscape hChar))
    (fun fewer hFewer => ?_) (by omega)
  exact ih hLeft depth fewer (by omega) (by omega)

------------------------------------------------------------
-- Strings, blocks and statements
------------------------------------------------------------

theorem Phrase.Yields.embeddedPart
    {e : Expr}
    {parts : List StringPart}
    (hOpen : s.token.kind = .stringTemplateStart)
    (hExpr : Derives (.expression .loosest) s.next e t)
    (hClose : t.token.kind = .stringTemplateEnd)
    (hMore : Derives .parts t.next parts u)
    (ihExpr : Phrase.Yields (.expression .loosest) s.next e t)
    (ihMore : Phrase.Yields .parts t.next parts u) :
    Phrase.Yields .parts s (.embedded e :: parts) u := by
  intro hLeft depth budget hDepth hBudget
  have hPassed := left_next_of_kind hOpen nofun
  have hOver := left_next_of_kind hClose nofun
  have hStop := hExpr.left_le
  have hEnd := hMore.left_le
  dsimp only [Phrase.least] at hStop hEnd
  refine outcome_collectWithin_some
    (outcome_nextStringPart_some
      (by rw [hOpen]; decide)
      (outcome_embeddedPart hOpen
        (ihExpr (by omega) depth (by omega)) hClose))
    (fun fewer hFewer => ?_) (by omega)
  exact ihMore hLeft depth fewer (by omega) (by omega)

/- Blocks need a budget of their own, as expressions do. -/
theorem Phrase.Yields.block
    {start : Token}
    {statements : List Statement}
    (hClose : t.token.kind = .closeCurly)
    (ih : Phrase.Yields .statements s.opened statements t) :
    Phrase.Yields (.block start) s
      (.new (.block statements s.newScope)
        (start.span.between t.token.span))
      t.next.closed := by
  intro hLeft depth hDepth
  have hEnd := left_next_of_kind hClose nofun
  rw [ParserState.left_closed] at hLeft
  cases depth with
  | zero => exact absurd hDepth (Nat.not_lt_zero _)
  | succ depth =>
      exact outcome_block
        (ih (by omega) depth _
          (by rw [ParserState.left_opened]; omega)
          (Nat.le_refl _))
        hClose

theorem Phrase.Yields.someStatements
    {x : Statement}
    {xs : List Statement}
    (hSome : s.token.kind ≠ .closeCurly)
    (hGoesOn : s.token.kind ≠ .eof)
    (hFirst : Derives .statement s x t)
    (hMore : Derives .statements t xs u)
    (ihFirst : Phrase.Yields .statement s x t)
    (ihMore : Phrase.Yields .statements t xs u) :
    Phrase.Yields .statements s (x :: xs) u := by
  intro hLeft depth budget hDepth hBudget
  have hStop := hFirst.left_le
  have hEnd := hMore.left_le
  dsimp only [Phrase.least] at hStop hEnd
  refine outcome_collectWithin_some
    (outcome_nextStatement_some hSome hGoesOn
      (ihFirst (by omega) depth hDepth))
    (fun fewer hFewer => ?_) (by omega)
  exact ihMore hLeft depth fewer (by omega) (by omega)

------------------------------------------------------------
-- Declarations
------------------------------------------------------------

theorem Phrase.Yields.variableDecl
    {kind : DefinitionKind}
    {type : TypeExpr}
    {initializer : Option Expr}
    {span : Span}
    {id : DefinitionId}
    (hName : s.next.token.kind.isName)
    (hType :
      DerivesType
        (.behind .colon .loosest s.next.token.span)
        s.next.next type t)
    (hStop : u.token.kind = .semicolon)
    (hSpan : span = s.token.span.between u.token.span)
    (hDeclares :
      u.next.Declares
        ⟨s.next.token.name, kind, span, span.stop.offset,
         s.token.kind = .kwVar, none⟩
        id v)
    (ih :
      Phrase.Yields (.behind .assignment) t initializer u) :
    Phrase.Yields (.variableDecl kind) s
      ⟨s.token.kind = .kwVar, s.next.token.name, type,
       initializer, id, span⟩
      v := by
  intro hLeft depth hDepth
  have hFirst := s.left_next_le
  have hSecond := s.next.left_next_le
  have hTyped := hType.left_le
  have hOver := left_next_of_kind hStop nofun
  have hEnd := hDeclares.left_eq
  exact outcome_variableDecl hName hType.runs
    (ih (by omega) depth (by omega)) hStop hSpan
    hDeclares

/- The parts of a function need no more than its tokens. -/
theorem Phrase.Yields.functionDecl
    {parameters : List Parameter}
    {returnType : TypeExpr}
    {body : Option Expr}
    {span : Span}
    {id : DefinitionId}
    (hKeyword : s.token.kind = .kwFun)
    (hName : s.next.token.kind.isName)
    (hSignature :
      Derives .signature s.next.next.opened
        (parameters, returnType) t)
    (hBody : Derives .namedBody t body u)
    (hSpan :
      span = s.token.span.between u.stream.previous.span)
    (hDeclares :
      u.closed.Declares
        ⟨s.next.token.name, .function, span,
         s.next.token.span.start.offset, false, none⟩
        id v)
    (ihSignature :
      Phrase.Yields .signature s.next.next.opened
        (parameters, returnType) t)
    (ihBody : Phrase.Yields .namedBody t body u) :
    Phrase.Yields .functionDecl s
      ⟨s.next.token.name, parameters, returnType, body,
       s.next.next.newScope, id, span⟩
      v := by
  intro hLeft depth hDepth
  have hFirst := s.left_next_le
  have hSecond := s.next.left_next_le
  have hStop := hSignature.left_le
  have hLast := hBody.left_le
  have hEnd := hDeclares.left_eq
  rw [ParserState.left_opened] at hStop
  rw [ParserState.left_closed] at hEnd
  dsimp only [Phrase.least] at hStop hLast
  exact outcome_functionDecl hKeyword hName
    (ihSignature (by omega) depth
      (by rw [ParserState.left_opened]; omega))
    (ihBody (by omega) depth (by omega)) hSpan hDeclares

------------------------------------------------------------
-- Whole derivations
------------------------------------------------------------

/- The parser gives what is derived, if tokens are left. -/
theorem Derives.runs
    {phrase : Phrase}
    {r : phrase.Result}
    (hDerives : Derives phrase s r t) :
    phrase.Yields s r t := by
  induction hDerives with
  | expression hStart hFirst hMore ihFirst ihMore =>
      exact .expression hStart hFirst hMore ihFirst ihMore
  | stop hStop =>
      exact fun _ _ budget _ _ =>
        outcome_loopWithin_none (outcome_extend_none hStop)
          budget
  | more hOperator hTight hExtension hMore ihExtension
      ihMore =>
      exact .more hOperator hTight hExtension hMore
        ihExtension ihMore
  | int hForm => exact fun _ _ _ => outcome_intLiteral hForm
  | boolean => exact fun _ _ _ => rfl
  | @string token s parts t _ hClose ih =>
      intro hLeft depth hDepth
      have hPassed := left_next_of_kind hClose nofun
      exact outcome_stringLiteral
        (ih (by omega) depth _ (by omega) (Nat.le_refl _))
        hClose
  | reference hNone =>
      exact fun _ _ _ => outcome_reference hNone
  | @invocation token s arguments t hOpen _ hClose ih =>
      intro hLeft depth hDepth
      have hPassed := left_next_of_kind hOpen nofun
      have hEnd := left_next_of_kind hClose nofun
      exact outcome_invocation hOpen
        (ih (by omega) depth (by omega)) hClose
  | unary _ ih =>
      exact fun hLeft depth hDepth =>
        outcome_unary (ih hLeft depth (by omega))
  | grouping _ hClose ih =>
      intro hLeft depth hDepth
      have hEnd := left_next_of_kind hClose nofun
      exact outcome_grouping
        (ih (by omega) depth (by omega)) hClose
  | startBlock _ ih => exact ih
  | conditional hOpen hCondition hClose hThen hElse
      ihCondition ihThen ihElse =>
      exact .conditional hOpen hCondition hClose hThen hElse
        ihCondition ihThen ihElse
  | functionLiteral hNone hSignature hBody ihSignature
      ihBody =>
      exact .functionLiteral hNone hSignature hBody
        ihSignature ihBody
  | lambda hItems hClose hBody ihItems ihBody =>
      exact .lambda hItems hClose hBody ihItems ihBody
  | retValue _ ih =>
      exact fun hLeft depth hDepth =>
        outcome_ret (ih hLeft depth (by omega))
  | @retNothing token s hNone =>
      intro hLeft depth hDepth
      cases depth with
      | zero => exact absurd hDepth (Nat.not_lt_zero _)
      | succ depth =>
          exact outcome_ret
            (outcome_expression_none hNone
              (List.ne_nil_of_length_pos hLeft))
  | binary hIs _ ih =>
      exact fun hLeft depth hDepth =>
        outcome_binary hIs (ih hLeft depth hDepth)
  | assignment hIs _ ih =>
      exact fun hLeft depth hDepth =>
        outcome_assignment hIs (ih hLeft depth hDepth)
  | member hName _ hIs ih =>
      exact fun hLeft depth hDepth =>
        outcome_memberAccess hName (ih hLeft depth hDepth)
          hIs
  | call _ hClose ih =>
      intro hLeft depth hDepth
      have hEnd := left_next_of_kind hClose nofun
      exact outcome_call (ih (by omega) depth hDepth) hClose
  | @present kind s e t hThere _ ih =>
      intro hLeft depth hDepth
      have hNext := s.left_next_le
      exact outcome_behind_some hThere
        (ih hLeft depth (by omega))
  | absent hNone =>
      exact fun _ _ _ => outcome_behind_none hNone
  | @named s value t hNamed _ ih =>
      intro hLeft depth hDepth
      have hFirst := s.left_next_le
      have hSecond := s.next.left_next_le
      exact outcome_argument
        (outcome_argumentName_some hNamed)
        (ih hLeft depth (by omega))
  | positional hNone _ ih =>
      exact fun hLeft depth hDepth =>
        outcome_argument (outcome_argumentName_none hNone)
          (ih hLeft depth hDepth)
  | parameter hName hColon hType _ hSpan hDeclares ih =>
      exact .parameter hName hColon hType hSpan hDeclares ih
  | lambdaParameter hName hType hSpan hDeclares =>
      exact fun _ _ _ =>
        outcome_lambdaParameter hName hType.runs hSpan
          hDeclares
  | entry hName hNone =>
      exact fun _ _ _ => outcome_importEntry hName hNone
  | renamedEntry hName hAs hNewName =>
      exact fun _ _ _ =>
        outcome_importEntry_renamed hName hAs hNewName
  | noItems hNone =>
      exact fun _ _ _ => outcome_separated_none hNone
  | @someItems i s x t xs u hSome hFirst hMore ihFirst
      ihMore =>
      intro hLeft depth hDepth
      have hStop := hFirst.left_le
      have hEnd := hMore.left_le
      dsimp only [Phrase.least] at hStop hEnd
      exact outcome_separated_some hSome
        (ihFirst (by omega) depth hDepth)
        (ihMore hLeft depth _ (by omega) (Nat.le_refl _))
  | lastItem hNone =>
      exact fun _ _ budget _ _ =>
        outcome_collectWithin_none
          (outcome_nextItem_none hNone) budget
  | trailingComma hComma hNone =>
      exact fun _ _ budget _ _ =>
        outcome_collectWithin_none
          (outcome_nextItem_trailing hComma hNone) budget
  | nextItem hComma hSome hItem hMore ihItem ihMore =>
      exact .nextItem hComma hSome hItem hMore ihItem ihMore
  | @signature s ps t x u hOpen hItems hClose hType ih =>
      intro hLeft depth hDepth
      have hPassed := left_next_of_kind hOpen nofun
      have hOver := left_next_of_kind hClose nofun
      exact outcome_signature hOpen
        (ih (by omega) depth (by omega)) hClose hType.runs
  | @bodyValue s e t hAssign _ ih =>
      intro hLeft depth hDepth
      have hNext := s.left_next_le
      exact outcome_bodyValue hAssign
        (ih hLeft depth (by omega))
  | @bodyBlock s e t hOpen _ ih =>
      intro hLeft depth hDepth
      have hPassed := left_next_of_kind hOpen nofun
      exact outcome_bodyBlock hOpen
        (ih hLeft depth (by omega))
  | @namedValue s e t hAssign _ hStop ih =>
      intro hLeft depth hDepth
      have hNext := s.left_next_le
      have hEnd := left_next_of_kind hStop nofun
      exact outcome_namedValue hAssign
        (ih (by omega) depth (by omega)) hStop
  | @namedBlock s e t hOpen _ ih =>
      intro hLeft depth hDepth
      have hPassed := left_next_of_kind hOpen nofun
      exact outcome_namedBlock hOpen
        (ih hLeft depth (by omega))
  | namedNone hStop => exact .namedNone hStop
  | @namedNothing s hNone =>
      intro _ _ _
      rw [List.mem_cons, List.mem_cons, List.mem_singleton,
        not_or, not_or] at hNone
      refine (outcome_namedNone hNone.1 hNone.2.1).trans ?_
      rw [if_neg hNone.2.2]
  | noParts hStop =>
      exact fun _ _ budget _ _ =>
        outcome_collectWithin_none
          (outcome_nextStringPart_none hStop) budget
  | @textPart s parts t hText _ ih =>
      intro hLeft depth budget hDepth hBudget
      have hPassed := left_next_of_kind hText nofun
      refine outcome_collectWithin_some
        (outcome_nextStringPart_some
          (by rw [hText]; decide) (outcome_textPart hText))
        (fun fewer hFewer => ?_) (by omega)
      exact ih hLeft depth fewer (by omega) (by omega)
  | escapePart hEscape hChar _ ih =>
      exact .escapePart hEscape hChar ih
  | embeddedPart hOpen hExpr hClose hMore ihExpr ihMore =>
      exact .embeddedPart hOpen hExpr hClose hMore ihExpr
        ihMore
  | block _ hClose ih => exact .block hClose ih
  | noStatements hStop =>
      exact fun _ _ budget _ _ =>
        outcome_collectWithin_none
          (outcome_nextStatement_none hStop) budget
  | someStatements hSome hGoesOn hFirst hMore ihFirst ihMore =>
      exact .someStatements hSome hGoesOn hFirst hMore
        ihFirst ihMore
  | variableStatement hKeyword _ ih =>
      exact fun hLeft depth hDepth =>
        outcome_variableStatement hKeyword
          (ih hLeft depth hDepth)
  | functionStatement hKeyword _ ih =>
      exact fun hLeft depth hDepth =>
        outcome_functionStatement hKeyword
          (ih hLeft depth hDepth)
  | endedStatement hVal hVar hFunction _ hStop ih =>
      intro hLeft depth hDepth
      have hEnd := left_next_of_kind hStop nofun
      exact (outcome_statement hVal hVar hFunction).trans
        (outcome_endedStatement
          (ih (by omega) depth hDepth) hStop)
  | openStatement hVal hVar hFunction _ hNone hStop ih =>
      exact fun hLeft depth hDepth =>
        (outcome_statement hVal hVar hFunction).trans
          (outcome_openStatement (ih hLeft depth hDepth)
            hNone hStop)
  | variableDecl _ hName hType _ hStop hSpan hDeclares ih =>
      exact .variableDecl hName hType hStop hSpan hDeclares
        ih
  | functionDecl hKeyword hName hSignature hBody hSpan
      hDeclares ihSignature ihBody =>
      exact .functionDecl hKeyword hName hSignature hBody
        hSpan hDeclares ihSignature ihBody

/- No phrase stands for two trees at one state. -/
theorem Derives.unique
    {phrase : Phrase}
    {r r' : phrase.Result}
    {t' : ParserState}
    (hFirst : Derives phrase s r t)
    (hSecond : Derives phrase s r' t')
    (hLeft : 0 < t.left)
    (hLeft' : 0 < t'.left) :
    r = r' ∧ t = t' := by
  have hRun := hFirst.runs hLeft
  have hRun' := hSecond.runs hLeft'
  have hBudget : s.left ≤ s.stream.ahead.length :=
    Nat.le_refl _
  cases phrase with
  | extensions p left =>
      cases (hRun _ _ (Nat.lt_succ_self _) hBudget).symm.trans
        (hRun' _ _ (Nat.lt_succ_self _) hBudget)
      exact ⟨rfl, rfl⟩
  | moreItems i =>
      cases (hRun _ _ (Nat.lt_succ_self _) hBudget).symm.trans
        (hRun' _ _ (Nat.lt_succ_self _) hBudget)
      exact ⟨rfl, rfl⟩
  | parts =>
      cases (hRun _ _ (Nat.lt_succ_self _) hBudget).symm.trans
        (hRun' _ _ (Nat.lt_succ_self _) hBudget)
      exact ⟨rfl, rfl⟩
  | statements =>
      have hBoth :=
        (hRun _ _ (Nat.lt_succ_self _) hBudget).symm.trans
          (hRun' _ _ (Nat.lt_succ_self _) hBudget)
      rcases Prod.ext_iff.1 hBoth with ⟨hTrees, hStates⟩
      exact ⟨List.map_injective_iff.2
          (fun _ _ hSome => Option.some.inj hSome)
          (Except.ok.inj hTrees),
        hStates⟩
  | _ =>
      cases (hRun (2 * s.left + 2) (by omega)).symm.trans
        (hRun' (2 * s.left + 2) (by omega))
      exact ⟨rfl, rfl⟩

end SourceCheck
