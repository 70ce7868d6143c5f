import SourceCheck.Grammar.Program
import SourceCheck.Proofs.Parsing.Run

/-
  The grammar as a relation.

  A derivation of a phrase leads from the state before the
  phrase to the state behind it and says which tree the
  phrase stands for.  It has one rule for each way to read a
  phrase, with what the next tokens have to be, and neither
  budgets nor failures.

  Key definitions include:
    * `DerivesType`
    * `Phrase`
    * `Derives`

  Key theorems include:
    * `DerivesType.left_le`
    * `Derives.left_le`
-/

namespace SourceCheck

------------------------------------------------------------
-- Written types
------------------------------------------------------------

/- The joins that bind more tightly, the loosest first. -/
def joinsAbove (power : Power) : List TypeJoin :=
  [TypeJoin.union, .intersection].filter
    fun join => power < join.power

/- The parts of written types. -/
inductive TypePhrase where
  | operand (joins : List TypeJoin)
  | extensions
      (join : TypeJoin)
      (joins : List TypeJoin)
      (left : TypeExpr)
  | behind
      (separator : TokenKind)
      (power : Power)
      (fallback : Span)

/- The phrase stands for the type between two states. -/
inductive DerivesType :
    TypePhrase →
      ParserState → TypeExpr → ParserState → Prop where
  | name {s}
      (hName : s.token.kind.isName) :
      DerivesType (.operand []) s
        (.new (.named s.token.name) s.token.span) s.next
  | joined {join joins s x t y u}
      (hFirst : DerivesType (.operand joins) s x t)
      (hMore : DerivesType (.extensions join joins x) t y u) :
      DerivesType (.operand (join :: joins)) s y u
  | stop {join joins left s}
      (hStop : s.token.kind ≠ join.token) :
      DerivesType (.extensions join joins left) s left s
  | more {join joins left s x t y u}
      (hJoin : s.token.kind = join.token)
      (hRight : DerivesType (.operand joins) s.next x t)
      (hMore :
        DerivesType
          (.extensions join joins (join.combine left x))
          t y u) :
      DerivesType (.extensions join joins left) s y u
  | present {separator power fallback s x t}
      (hThere : s.token.kind = separator)
      (hType :
        DerivesType (.operand (joinsAbove power))
          s.next x t) :
      DerivesType (.behind separator power fallback) s x t
  | absent {separator power fallback s}
      (hNone : s.token.kind ≠ separator) :
      DerivesType (.behind separator power fallback) s
        (.new .absent fallback) s

/- Types never give tokens back. -/
theorem DerivesType.left_le
    {phrase : TypePhrase}
    {s t : ParserState}
    {x : TypeExpr}
    (hDerives : DerivesType phrase s x t) :
    t.left ≤ s.left := by
  induction hDerives with
  | @name s _ => exact s.left_next_le
  | joined _ _ ihFirst ihMore => omega
  | stop _ => exact Nat.le_refl _
  | @more _ _ _ s _ _ _ _ _ _ _ ihRight ihMore =>
      have hNext := s.left_next_le
      omega
  | @present _ _ _ s _ _ _ _ ih =>
      have hNext := s.left_next_le
      omega
  | absent _ => exact Nat.le_refl _

------------------------------------------------------------
-- Phrases
------------------------------------------------------------

/- What is written in lists with commas. -/
inductive Item where
  | argument
  | parameter
  | lambdaParameter
  | entry

namespace Item

/- The trees of items. -/
abbrev Result : Item → Type
  | argument => Argument
  | parameter => Parameter
  | lambdaParameter => Parameter
  | entry => ImportEntry

/- The token behind a list of items. -/
def terminator : Item → TokenKind
  | argument => .closeParen
  | parameter => .closeParen
  | lambdaParameter => .pipe
  | entry => .closeCurly

end Item

/- The parts of programs that lie within each other. -/
inductive Phrase where
  | expression (power : Power)
  | extensions (power : Power) (left : Expr)
  | start (starter : Starter) (token : Token)
  | extension
      (extender : Extender)
      (left : Expr)
      (operator : Token)
      (power : Power)
  | behind (kind : TokenKind)
  | item (i : Item)
  | items (i : Item)
  | moreItems (i : Item)
  | signature
  | body
  | namedBody
  | parts
  | block (start : Token)
  | statements
  | statement
  | variableDecl (kind : DefinitionKind)
  | functionDecl

namespace Phrase

/- The trees that phrases stand for. -/
abbrev Result : Phrase → Type
  | .expression _ => Expr
  | .extensions _ _ => Expr
  | .start _ _ => Expr
  | .extension _ _ _ _ => Expr
  | .behind _ => Option Expr
  | .item i => i.Result
  | .items i => List i.Result
  | .moreItems i => List i.Result
  | .signature => List Parameter × TypeExpr
  | .body => Expr
  | .namedBody => Option Expr
  | .parts => List StringPart
  | .block _ => Expr
  | .statements => List Statement
  | .statement => Statement
  | .variableDecl _ => VariableDecl
  | .functionDecl => FunctionDecl

/- How many tokens a phrase has at least. -/
def least : Phrase → Nat
  | .expression _ => 1
  | .statement => 1
  | .variableDecl _ => 1
  | .functionDecl => 1
  | _ => 0

end Phrase

/- The token extends no expression above the power. -/
def TokenKind.EndsAbove
    (kind : TokenKind)
    (power : Power) :
    Prop :=
  ∀ extender operatorPower,
    kind.extender? = some (extender, operatorPower) →
      ¬ power < operatorPower

/- At the state an argument with a name starts. -/
def ParserState.AtNamed (s : ParserState) : Prop :=
  s.token.kind.isName ∧ s.next.token.kind = .assignment

/- At the state the name of a declared function follows. -/
def ParserState.AtFunction (s : ParserState) : Prop :=
  s.token.kind = .kwFun ∧ s.next.token.kind.isName

------------------------------------------------------------
-- Derivations
------------------------------------------------------------

/- The phrase stands for the tree between two states. -/
inductive Derives :
    (phrase : Phrase) →
      ParserState → phrase.Result → ParserState → Prop where
  -- Expressions.
  | expression {power starter s first t e u}
      (hStart : s.token.kind.starter? = some starter)
      (hFirst :
        Derives (.start starter s.token) s.next first t)
      (hMore : Derives (.extensions power first) t e u) :
      Derives (.expression power) s e u
  | stop {power left s}
      (hStop : s.token.kind.EndsAbove power) :
      Derives (.extensions power left) s left s
  | more {power left extender q s e t f u}
      (hOperator :
        s.token.kind.extender? = some (extender, q))
      (hTight : power < q)
      (hExtension :
        Derives (.extension extender left s.token q)
          s.next e t)
      (hMore : Derives (.extensions power e) t f u) :
      Derives (.extensions power left) s f u
  -- Literals, behind their first token.
  | int {token form s}
      (hForm : intForm? token.value = some form) :
      Derives (.start .int token) s
        (.new form token.span) s
  | boolean {token s} :
      Derives (.start .boolean token) s
        (.new (.boolean (token.kind = .kwTrue)) token.span) s
  | string {token s parts t}
      (hParts : Derives .parts s parts t)
      (hClose : t.token.kind = .stringEnd) :
      Derives (.start .string token) s
        (.new (stringForm parts)
          (token.span.between t.token.span))
        t.next
  -- Names and calls of names, behind the name.
  | reference {token s}
      (hNone : s.token.kind ≠ .openParen) :
      Derives (.start .reference token) s
        (.reference token.name token.span) s
  | invocation {token s arguments t}
      (hOpen : s.token.kind = .openParen)
      (hItems : Derives (.items .argument) s.next arguments t)
      (hClose : t.token.kind = .closeParen) :
      Derives (.start .reference token) s
        (.invocation token.name arguments
          (token.span.between t.token.span))
        t.next
  -- Compound expressions, behind their first token.
  | unary {token s operand t}
      (hOperand : Derives (.expression .unary) s operand t) :
      Derives (.start .unary token) s
        (.new
          (.unary
            (if token.kind = .kwNot then .not else .negate)
            operand)
          (token.span.between operand.span))
        t
  | grouping {token s inner t}
      (hInner : Derives (.expression .loosest) s inner t)
      (hClose : t.token.kind = .closeParen) :
      Derives (.start .grouping token) s
        (.new (.parenthesized inner)
          (token.span.between t.token.span))
        t.next
  | startBlock {token s e t}
      (hBlock : Derives (.block token) s e t) :
      Derives (.start .block token) s e t
  | conditional
      {token s condition t thenBranch u elseBranch v}
      (hOpen : s.token.kind = .openParen)
      (hCondition :
        Derives (.expression .loosest) s.next condition t)
      (hClose : t.token.kind = .closeParen)
      (hThen :
        Derives (.expression .loosest) t.next thenBranch u)
      (hElse : Derives (.behind .kwElse) u elseBranch v) :
      Derives (.start .conditional token) s
        (.new (.conditional condition thenBranch elseBranch)
          (token.span.between
            ((elseBranch.map (·.span)).getD
              thenBranch.span)))
        v
  | functionLiteral {token s parameters returnType t body u}
      (hNone : ¬ s.token.kind.isName)
      (hSignature :
        Derives .signature s.opened
          (parameters, returnType) t)
      (hBody : Derives .body t body u) :
      Derives (.start .function token) s
        (.new
          (.function parameters returnType body s.newScope)
          (token.span.between body.span))
        u.closed
  | lambda {token s parameters t body u}
      (hItems :
        Derives (.items .lambdaParameter) s.opened
          parameters t)
      (hClose : t.token.kind = .pipe)
      (hBody : Derives (.expression .loosest) t.next body u) :
      Derives (.start .lambda token) s
        (.new (.lambda parameters body s.newScope)
          (token.span.between body.span))
        u.closed
  | retValue {token s value t}
      (hValue : Derives (.expression .loosest) s value t) :
      Derives (.start .ret token) s
        (.new (.ret (some value))
          (token.span.between value.span))
        t
  | retNothing {token s}
      (hNone : s.token.kind.starter? = none) :
      Derives (.start .ret token) s
        (.new (.ret none) (token.span.between token.span)) s
  -- Extensions, behind their operator.
  | binary {left operator q o s right t}
      (hOperator : operator.kind.binaryOperator? = some o)
      (hRight : Derives (.expression q) s right t) :
      Derives (.extension .binary left operator q) s
        (.new (.binary left o right)
          (left.span.between right.span))
        t
  | assignment {left operator q o s value t}
      (hOperator : operator.kind.assignmentOperator? = some o)
      (hValue : Derives (.expression q.lower) s value t) :
      Derives (.extension .assignment left operator q) s
        (.new (.assignment left o value)
          (left.span.between value.span))
        t
  | member {left operator q s right t}
      (hName : s.token.kind.isName)
      (hRight : Derives (.expression q) s right t)
      (hIs : right.isReferenceOrInvocation) :
      Derives (.extension .member left operator q) s
        (.new
          (.access left (operator.kind = .questionDot) right)
          (left.span.between right.span))
        t
  | call {left operator q s arguments t}
      (hItems : Derives (.items .argument) s arguments t)
      (hClose : t.token.kind = .closeParen) :
      Derives (.extension .call left operator q) s
        (.new (.call left arguments)
          (left.span.between t.token.span))
        t.next
  -- An expression behind a token, if the token is there.
  | present {kind s e t}
      (hThere : s.token.kind = kind)
      (hValue : Derives (.expression .loosest) s.next e t) :
      Derives (.behind kind) s (some e) t
  | absent {kind s}
      (hNone : s.token.kind ≠ kind) :
      Derives (.behind kind) s none s
  -- Items of lists.
  | named {s value t}
      (hNamed : s.AtNamed)
      (hValue :
        Derives (.expression .loosest) s.next.next value t) :
      Derives (.item .argument) s
        ⟨some s.token.name, value,
          s.token.span.between value.span⟩
        t
  | positional {s value t}
      (hNone : ¬ s.AtNamed)
      (hValue : Derives (.expression .loosest) s value t) :
      Derives (.item .argument) s
        ⟨none, value, value.span.between value.span⟩ t
  | parameter {s type t fallback u span id v}
      (hName : s.token.kind.isName)
      (hColon : s.next.token.kind = .colon)
      (hType :
        DerivesType (.operand (joinsAbove .loosest))
          s.next.next type t)
      (hFallback : Derives (.behind .assignment) t fallback u)
      (hSpan :
        span =
          s.token.span.between
            ((fallback.map (·.span)).getD type.span))
      (hDeclares :
        u.Declares
          ⟨s.token.name, .argument, span, span.stop.offset,
            false, none⟩
          id v) :
      Derives (.item .parameter) s
        ⟨s.token.name, type, fallback, id, span⟩ v
  | lambdaParameter {s type t span id u}
      (hName : s.token.kind.isName)
      (hType :
        DerivesType
          (.behind .colon .logicalOr s.token.span)
          s.next type t)
      (hSpan : span = s.token.span.between type.span)
      (hDeclares :
        t.Declares
          ⟨s.token.name, .argument, span,
            s.token.span.start.offset, false, none⟩
          id u) :
      Derives (.item .lambdaParameter) s
        ⟨s.token.name, type, none, id, span⟩ u
  | entry {s}
      (hName : s.token.kind.isName)
      (hNone : s.next.token.kind ≠ .kwAs) :
      Derives (.item .entry) s
        ⟨s.token.name, none, s.token.span⟩ s.next
  | renamedEntry {s}
      (hName : s.token.kind.isName)
      (hAs : s.next.token.kind = .kwAs)
      (hNewName : s.next.next.token.kind.isName) :
      Derives (.item .entry) s
        ⟨s.token.name, some s.next.next.token.name,
          s.token.span.between s.next.next.token.span⟩
        s.next.next.next
  | noItems {i : Item} {s}
      (hNone : s.token.kind = i.terminator) :
      Derives (.items i) s [] s
  | someItems {i : Item} {s x t xs u}
      (hSome : s.token.kind ≠ i.terminator)
      (hFirst : Derives (.item i) s x t)
      (hMore : Derives (.moreItems i) t xs u) :
      Derives (.items i) s (x :: xs) u
  | lastItem {i : Item} {s}
      (hNone : s.token.kind ≠ .comma) :
      Derives (.moreItems i) s [] s
  | trailingComma {i : Item} {s}
      (hComma : s.token.kind = .comma)
      (hNone : s.next.token.kind = i.terminator) :
      Derives (.moreItems i) s [] s.next
  | nextItem {i : Item} {s x t xs u}
      (hComma : s.token.kind = .comma)
      (hSome : s.next.token.kind ≠ i.terminator)
      (hItem : Derives (.item i) s.next x t)
      (hMore : Derives (.moreItems i) t xs u) :
      Derives (.moreItems i) s (x :: xs) u
  -- Signatures and bodies of functions.
  | signature {s parameters t returnType u}
      (hOpen : s.token.kind = .openParen)
      (hItems :
        Derives (.items .parameter) s.next parameters t)
      (hClose : t.token.kind = .closeParen)
      (hType :
        DerivesType (.behind .arrow .loosest t.token.span)
          t.next returnType u) :
      Derives .signature s (parameters, returnType) u
  | bodyValue {s e t}
      (hAssign : s.token.kind = .assignment)
      (hValue : Derives (.expression .loosest) s.next e t) :
      Derives .body s e t
  | bodyBlock {s e t}
      (hOpen : s.token.kind = .openCurly)
      (hBlock : Derives (.block s.token) s.next e t) :
      Derives .body s e t
  | namedValue {s e t}
      (hAssign : s.token.kind = .assignment)
      (hValue : Derives (.expression .loosest) s.next e t)
      (hStop : t.token.kind = .semicolon) :
      Derives .namedBody s (some e) t.next
  | namedBlock {s e t}
      (hOpen : s.token.kind = .openCurly)
      (hBlock : Derives (.block s.token) s.next e t) :
      Derives .namedBody s (some e) t
  | namedNone {s}
      (hStop : s.token.kind = .semicolon) :
      Derives .namedBody s none s.next
  | namedNothing {s}
      (hNone :
        s.token.kind ∉
          [TokenKind.assignment, .openCurly, .semicolon]) :
      Derives .namedBody s none s
  -- Parts of strings.
  | noParts {s}
      (hStop :
        s.token.kind = .stringEnd ∨ s.token.kind = .eof) :
      Derives .parts s [] s
  | textPart {s parts t}
      (hText : s.token.kind = .stringContent)
      (hMore : Derives .parts s.next parts t) :
      Derives .parts s
        (.text s.token.value s.token.span :: parts) t
  | escapePart {s c parts t}
      (hEscape : s.token.kind = .escapeSequence)
      (hChar : unescape? s.token.value = some c)
      (hMore : Derives .parts s.next parts t) :
      Derives .parts s
        (.text c.toString s.token.span :: parts) t
  | embeddedPart {s e t parts u}
      (hOpen : s.token.kind = .stringTemplateStart)
      (hExpr : Derives (.expression .loosest) s.next e t)
      (hClose : t.token.kind = .stringTemplateEnd)
      (hMore : Derives .parts t.next parts u) :
      Derives .parts s (.embedded e :: parts) u
  -- Blocks, behind their brace, and statements.
  | block {start s statements t}
      (hStatements : Derives .statements s.opened statements t)
      (hClose : t.token.kind = .closeCurly) :
      Derives (.block start) s
        (.new (.block statements s.newScope)
          (start.span.between t.token.span))
        t.next.closed
  | noStatements {s}
      (hStop :
        s.token.kind = .closeCurly ∨ s.token.kind = .eof) :
      Derives .statements s [] s
  | someStatements {s x t xs u}
      (hSome : s.token.kind ≠ .closeCurly)
      (hGoesOn : s.token.kind ≠ .eof)
      (hFirst : Derives .statement s x t)
      (hMore : Derives .statements t xs u) :
      Derives .statements s (x :: xs) u
  | variableStatement {s v t}
      (hKeyword :
        s.token.kind = .kwVal ∨ s.token.kind = .kwVar)
      (hVariable : Derives (.variableDecl .localVariable) s v t) :
      Derives .statement s (.variable v) t
  | functionStatement {s f t}
      (hKeyword : s.AtFunction)
      (hFunction : Derives .functionDecl s f t) :
      Derives .statement s (.function f) t
  | endedStatement {s e t}
      (hVal : s.token.kind ≠ .kwVal)
      (hVar : s.token.kind ≠ .kwVar)
      (hFunction : ¬ s.AtFunction)
      (hExpr : Derives (.expression .loosest) s e t)
      (hStop : t.token.kind = .semicolon) :
      Derives .statement s (.expression e) t.next
  | openStatement {s e t}
      (hVal : s.token.kind ≠ .kwVal)
      (hVar : s.token.kind ≠ .kwVar)
      (hFunction : ¬ s.AtFunction)
      (hExpr : Derives (.expression .loosest) s e t)
      (hNone : t.token.kind ≠ .semicolon)
      (hStop :
        e.endsWithBlock ∨ t.token.kind = .closeCurly) :
      Derives .statement s (.expression e) t
  -- Declarations.
  | variableDecl {kind s type t initializer u span id v}
      (hKeyword : s.token.kind ≠ .eof)
      (hName : s.next.token.kind.isName)
      (hType :
        DerivesType
          (.behind .colon .loosest s.next.token.span)
          s.next.next type t)
      (hInitializer :
        Derives (.behind .assignment) t initializer u)
      (hStop : u.token.kind = .semicolon)
      (hSpan : span = s.token.span.between u.token.span)
      (hDeclares :
        u.next.Declares
          ⟨s.next.token.name, kind, span, span.stop.offset,
            s.token.kind = .kwVar, none⟩
          id v) :
      Derives (.variableDecl kind) s
        ⟨s.token.kind = .kwVar, s.next.token.name, type,
          initializer, id, span⟩
        v
  | functionDecl
      {s parameters returnType t body u span id v}
      (hKeyword : s.token.kind = .kwFun)
      (hName : s.next.token.kind.isName)
      (hSignature :
        Derives .signature s.next.next.opened
          (parameters, returnType) t)
      (hBody : Derives .namedBody t body u)
      (hSpan :
        span = s.token.span.between u.stream.previous.span)
      (hDeclares :
        u.closed.Declares
          ⟨s.next.token.name, .function, span,
            s.next.token.span.start.offset, false, none⟩
          id v) :
      Derives .functionDecl s
        ⟨s.next.token.name, parameters, returnType, body,
          s.next.next.newScope, id, span⟩
        v

/- No phrase gives tokens back. -/
theorem Derives.left_le
    {phrase : Phrase}
    {s t : ParserState}
    {r : phrase.Result}
    (hDerives : Derives phrase s r t) :
    t.left + phrase.least ≤ s.left := by
  have hNext := ParserState.left_next_le
  have hType := @DerivesType.left_le
  have hDeclared := @ParserState.Declares.left_eq
  induction hDerives with
  | expression hStart _ _ ihFirst ihMore =>
      have hPassed :=
        ParserState.left_next (Parser.ne_eof_of_starter hStart)
      dsimp only [Phrase.least] at ihFirst ihMore ⊢
      omega
  | variableDecl hKeyword _ hTyped _ _ _ hDeclares ih =>
      have hPassed := ParserState.left_next hKeyword
      dsimp only [Phrase.least] at ih ⊢
      grind
  | functionDecl hKeyword _ _ _ _ hDeclares ihFirst ihMore =>
      have hPassed :=
        ParserState.left_next (by rw [hKeyword]; decide)
      dsimp only [Phrase.least] at ihFirst ihMore ⊢
      grind
  | _ =>
      dsimp only [Phrase.least] at *
      grind

end SourceCheck
