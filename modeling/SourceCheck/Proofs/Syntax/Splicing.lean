import SourceCheck.Proofs.Syntax.Passage

/-
  Derivations and the tokens behind them.

  A phrase is read in the same way whatever tokens stand far
  behind it.  The token right behind a phrase may be another
  one too, if neither of the two goes on the phrase: the end
  of the text goes on nothing, and the first word of a
  declaration goes on no declaration.

  Key definitions include:
    * `Splice`
    * `ParserState.spliced`
    * `Phrase.EndsBefore`
    * `Phrase.Splices`

  Key theorems include:
    * `DerivesType.spliced`
    * `Derives.spliced`
-/

namespace SourceCheck

open SourceCheck.Parser

------------------------------------------------------------
-- Other tokens
------------------------------------------------------------

/- Other tokens in the place of the last ones. -/
structure Splice where
  count : Nat
  tokens : List Token
  last : Token
  kind_last : last.kind = .eof

namespace Splice

/- The kind of the first token that is put in place. -/
def kind (x : Splice) : TokenKind :=
  (x.tokens.headD x.last).kind

/-
  The tokens up to the state stay, and if no other ones stay
  then what is given holds.
-/
def Keeps
    (x : Splice)
    (s : ParserState)
    (atEnd : Prop) :
    Prop :=
  x.count ≤ s.left ∧ (s.left = x.count → atEnd)

variable {x : Splice}
variable {s : ParserState}
variable {p q : Prop}

theorem Keeps.le (hKeeps : x.Keeps s p) :
    x.count ≤ s.left :=
  hKeeps.1

/- Before tokens that stay there is nothing to show. -/
theorem keeps_of_lt (hInside : x.count < s.left) :
    x.Keeps s p :=
  ⟨Nat.le_of_lt hInside,
    fun hEnd => absurd hEnd (Nat.ne_of_gt hInside)⟩

theorem Keeps.imp
    (hKeeps : x.Keeps s p)
    (hImp : p → q) :
    x.Keeps s q :=
  ⟨hKeeps.1, fun hEnd => hImp (hKeeps.2 hEnd)⟩

/- What is kept up to a state is kept up to earlier ones. -/
theorem Keeps.mono
    {t : ParserState}
    (hKeeps : x.Keeps t p)
    (hLeft : t.left ≤ s.left) :
    x.Keeps s p :=
  ⟨Nat.le_trans hKeeps.1 hLeft, fun hEnd =>
    hKeeps.2 (Nat.le_antisymm (hEnd ▸ hLeft) hKeeps.1)⟩

/- What never is the end is before it. -/
theorem Keeps.lt
    (hKeeps : x.Keeps s p)
    (hNot : ¬ p) :
    x.count < s.left :=
  Nat.lt_of_le_of_ne hKeeps.1
    fun hEnd => hNot (hKeeps.2 hEnd.symm)

/- A token before the last state that is kept stays. -/
theorem Keeps.inside
    {t : ParserState}
    (hKeeps : x.Keeps t p)
    (hLeft : t.left ≤ s.next.left)
    (hMore : s.token.kind ≠ .eof) :
    x.count < s.left :=
  Nat.lt_of_le_of_lt (Nat.le_trans hKeeps.1 hLeft)
    (ParserState.left_next hMore)

theorem Keeps.insideOf
    {t : ParserState}
    {kind : TokenKind}
    (hKeeps : x.Keeps t p)
    (hLeft : t.left ≤ s.next.left)
    (hKind : s.token.kind = kind)
    (hMore : kind ≠ .eof) :
    x.count < s.left :=
  hKeeps.inside hLeft (by rw [hKind]; exact hMore)

end Splice

namespace ParserState

variable {x : Splice}
variable {s t : ParserState}

/- The state with other tokens in the place of the last. -/
def spliced (s : ParserState) (x : Splice) : ParserState :=
  { s with
    stream :=
      { s.stream with
        ahead :=
          s.stream.ahead.take (s.left - x.count) ++ x.tokens
        last := x.last
        kind_last := x.kind_last } }

theorem next_of_ahead
    {token : Token}
    {rest : List Token}
    (hAhead : s.stream.ahead = token :: rest) :
    s.next =
      { s with
        stream :=
          { s.stream with
            before := token :: s.stream.before
            ahead := rest } } := by
  unfold next TokenStream.consume
  rw [hAhead]

/- The tokens before the others stay. -/
theorem ahead_spliced
    (hInside : x.count < s.left) :
    ∃ token rest,
      s.stream.ahead = token :: rest ∧
        (s.spliced x).stream.ahead =
          token ::
            (rest.take (rest.length - x.count) ++
              x.tokens) := by
  unfold spliced left at *
  cases hAhead : s.stream.ahead with
  | nil =>
      rw [hAhead] at hInside
      cases hInside
  | cons token rest =>
      rw [hAhead, List.length_cons] at hInside
      refine ⟨token, rest, rfl, ?_⟩
      rw [List.length_cons,
        Nat.succ_sub (Nat.le_of_lt_succ hInside)]
      rfl

theorem token_spliced
    (hInside : x.count < s.left) :
    (s.spliced x).token = s.token := by
  rcases ahead_spliced hInside with
    ⟨token, rest, hAhead, hSpliced⟩
  rw [token_of_ahead hAhead, token_of_ahead hSpliced]

theorem next_spliced
    (hInside : x.count < s.left) :
    (s.spliced x).next = s.next.spliced x := by
  rcases ahead_spliced hInside with
    ⟨token, rest, hAhead, hSpliced⟩
  have hNext := ahead_next hAhead
  rw [next_of_ahead hSpliced]
  unfold spliced left
  rw [hNext, next_of_ahead hAhead]

/- Where a token stays, those before it do. -/
theorem lt_left_of_lt_next
    (hInside : x.count < s.next.left) :
    x.count < s.left :=
  Nat.lt_of_lt_of_le hInside s.left_next_le

theorem token_next_spliced
    (hInside : x.count < s.next.left) :
    (s.spliced x).next.token = s.next.token := by
  rw [next_spliced (lt_left_of_lt_next hInside),
    token_spliced hInside]

theorem next_next_spliced
    (hInside : x.count < s.next.left) :
    (s.spliced x).next.next = s.next.next.spliced x := by
  rw [next_spliced (lt_left_of_lt_next hInside),
    next_spliced hInside]

/- And then the others come. -/
theorem kind_spliced
    (hEnd : s.left = x.count) :
    (s.spliced x).token.kind = x.kind := by
  unfold spliced token TokenStream.current
  rw [hEnd, Nat.sub_self]
  rfl

/- What holds of a token that stays, and of the others. -/
theorem holds_spliced
    {p : TokenKind → Prop}
    (hKeeps : x.Keeps s (p x.kind))
    (hToken : p s.token.kind) :
    p (s.spliced x).token.kind := by
  rcases Nat.eq_or_lt_of_le hKeeps.1 with hEnd | hInside
  · rw [kind_spliced hEnd.symm]
    exact hKeeps.2 hEnd.symm
  · rw [token_spliced hInside]
    exact hToken

theorem opened_spliced (s : ParserState) (x : Splice) :
    (s.spliced x).opened = s.opened.spliced x :=
  rfl

theorem closed_spliced (s : ParserState) (x : Splice) :
    (s.spliced x).closed = s.closed.spliced x :=
  rfl

/- Definitions are made in the same way. -/
theorem Declares.spliced
    {d : Definition}
    {id : DefinitionId}
    (hDeclares : s.Declares d id t)
    (x : Splice) :
    (s.spliced x).Declares d id (t.spliced x) := by
  rcases hDeclares with ⟨hId, scope, hHead, hFree, rfl⟩
  exact ⟨hId, scope, hHead, hFree, rfl⟩

/- What was taken stays as well. -/
theorem previous_spliced
    (hBefore : s.stream.before ≠ []) :
    (s.spliced x).stream.previous = s.stream.previous := by
  unfold TokenStream.previous
  change s.stream.before.headD _ = _
  cases hTaken : s.stream.before with
  | nil => exact absurd hTaken hBefore
  | cons token taken => rfl

/- A name and the token behind it stay. -/
theorem atNamed_spliced
    (hInside : x.count < s.next.left) :
    (s.spliced x).AtNamed ↔ s.AtNamed := by
  unfold AtNamed
  rw [token_next_spliced hInside,
    token_spliced (lt_left_of_lt_next hInside)]

theorem atFunction_spliced
    (hInside : x.count < s.next.left) :
    (s.spliced x).AtFunction ↔ s.AtFunction := by
  unfold AtFunction
  rw [token_next_spliced hInside,
    token_spliced (lt_left_of_lt_next hInside)]

/- A step passes one token at most. -/
theorem left_le_next (s : ParserState) :
    s.left ≤ s.next.left + 1 := by
  unfold left next TokenStream.consume
  cases hAhead : s.stream.ahead with
  | nil => simp
  | cons t ts => simp

/- With a token of a phrase the one behind it stays. -/
theorem lt_next_of_lt
    (hInside : x.count < t.left)
    (hLeft : t.left + 1 ≤ s.left) :
    x.count < s.next.left :=
  Nat.lt_of_lt_of_le hInside
    (Nat.le_of_succ_le_succ
      (Nat.le_trans hLeft s.left_le_next))

/- Tokens that were taken are not given back. -/
theorem Crosses.before_ne
    {a b : List Bracket}
    (hCrosses : s.Crosses a t b)
    (hBefore : s.stream.before ≠ []) :
    t.stream.before ≠ [] := by
  rcases hCrosses with ⟨ts, hPasses, -⟩
  rw [hPasses.before_eq]
  exact List.append_ne_nil_of_right_ne_nil _ hBefore

end ParserState

open ParserState

------------------------------------------------------------
-- Written types
------------------------------------------------------------

/-
  Kinds of tokens that go on no declaration: the words that
  start the next one, and the end of the text.
-/
def TokenKind.isBreak (kind : TokenKind) : Bool :=
  [TokenKind.kwFun, .kwVal, .kwVar, .eof].contains kind

theorem joinToken_ne_of_isBreak
    {kind : TokenKind}
    (hBreak : kind.isBreak)
    (join : TypeJoin) :
    kind ≠ join.token := by
  rintro rfl
  cases join <;> cases hBreak

/- The separator of the phrase starts no declaration. -/
def TypePhrase.IsInner : TypePhrase → Prop
  | .behind separator _ _ => ¬ separator.isBreak
  | _ => True

variable {s t u v : ParserState}
variable {x : Splice}

theorem DerivesType.spliced
    {phrase : TypePhrase}
    {y : TypeExpr}
    (hDerives : DerivesType phrase s y t) :
    phrase.IsInner →
      x.Keeps t x.kind.isBreak →
        DerivesType phrase (s.spliced x) y
          (t.spliced x) := by
  induction hDerives with
  | @name s hName =>
      intro _ hKeeps
      have hInside : x.count < s.left :=
        Nat.lt_of_le_of_lt hKeeps.le
          (left_next (ne_eof_of_isName hName))
      rw [← next_spliced hInside,
        ← token_spliced (x := x) hInside]
      exact .name (by rwa [token_spliced hInside])
  | joined _ hMore ihFirst ihMore =>
      exact fun _ hKeeps =>
        .joined (ihFirst trivial (hKeeps.mono hMore.left_le))
          (ihMore trivial hKeeps)
  | @stop join joins left s hStop =>
      intro _ hKeeps
      exact .stop (holds_spliced (p := (· ≠ join.token))
        (hKeeps.imp (joinToken_ne_of_isBreak · join)) hStop)
  | @more join joins left s t y z u hJoin hRight hMore ihRight
      ihMore =>
      intro _ hKeeps
      have hRest := hKeeps.mono hMore.left_le
      have hInside : x.count < s.left := by
        have hPassed : s.next.left < s.left := by
          apply left_next
          rw [hJoin]
          cases join <;> decide
        have hLeft := hRight.left_le
        have hCount := hRest.le
        omega
      have hFirst := ihRight trivial hRest
      rw [← next_spliced hInside] at hFirst
      exact .more (by rwa [token_spliced hInside]) hFirst
        (ihMore trivial hKeeps)
  | @present separator power fallback s y t hThere hType ih =>
      intro hInner hKeeps
      have hInside :=
        hKeeps.insideOf hType.left_le hThere
          (by rintro rfl; exact hInner rfl)
      have hFirst := ih trivial hKeeps
      rw [← next_spliced hInside] at hFirst
      exact .present (by rwa [token_spliced hInside]) hFirst
  | @absent separator power fallback s hNone =>
      intro hInner hKeeps
      refine .absent (holds_spliced (p := (· ≠ separator))
        (hKeeps.imp ?_) hNone)
      rintro hBreak rfl
      exact hInner hBreak

------------------------------------------------------------
-- Phrases
------------------------------------------------------------

/-
  The phrase may end before a token of the kind, whatever
  token it ended before.  Expressions only may at the end of
  the text; parts of lists and statements of blocks never
  are the last thing that is read.
-/
def Phrase.EndsBefore (kind : TokenKind) : Phrase → Prop
  | .expression _ => kind = .eof
  | .extensions _ _ => kind = .eof
  | .start _ _ => kind = .eof
  | .extension _ _ _ _ => kind = .eof
  | .behind separator => kind = .eof ∧ separator ≠ .eof
  | .body => kind = .eof
  | .block _ => True
  | .signature => kind.isBreak
  | .namedBody => kind.isBreak
  | .functionDecl => kind.isBreak
  | .variableDecl _ => True
  | _ => False

/-
  The phrase stands for its tree whatever tokens come behind
  it, if it may end before the first of them.
-/
def Phrase.Splices
    (x : Splice)
    (phrase : Phrase)
    (s : ParserState)
    (r : phrase.Result)
    (t : ParserState) :
    Prop :=
  x.Keeps t (phrase.EndsBefore x.kind) →
    Derives phrase (s.spliced x) r (t.spliced x)

------------------------------------------------------------
-- Expressions
------------------------------------------------------------

theorem Phrase.Splices.expression
    {power : Power}
    {starter : Starter}
    {first e : Expr}
    (hStart : s.token.kind.starter? = some starter)
    (hFirst : Derives (.start starter s.token) s.next first t)
    (hMore : Derives (.extensions power first) t e u)
    (ihFirst :
      Phrase.Splices x (.start starter s.token) s.next first
        t)
    (ihMore :
      Phrase.Splices x (.extensions power first) t e u) :
    Phrase.Splices x (.expression power) s e u := by
  intro hKeeps
  have hRest := hKeeps.mono hMore.left_le
  have hInside :=
    hRest.inside hFirst.left_le (ne_eof_of_starter hStart)
  have hFirst := ihFirst hRest
  rw [← next_spliced hInside,
    ← token_spliced (x := x) hInside] at hFirst
  exact .expression (by rwa [token_spliced hInside])
    hFirst (ihMore hKeeps)

theorem Phrase.Splices.more
    {power : Power}
    {left : Expr}
    {extender : Extender}
    {q : Power}
    {e f : Expr}
    (hOperator : s.token.kind.extender? = some (extender, q))
    (hTight : power < q)
    (hExtension :
      Derives (.extension extender left s.token q) s.next e
        t)
    (hMore : Derives (.extensions power e) t f u)
    (ihExtension :
      Phrase.Splices x (.extension extender left s.token q)
        s.next e t)
    (ihMore : Phrase.Splices x (.extensions power e) t f u) :
    Phrase.Splices x (.extensions power left) s f u := by
  intro hKeeps
  have hRest := hKeeps.mono hMore.left_le
  have hInside :=
    hRest.inside hExtension.left_le
      (ne_eof_of_extender hOperator)
  have hFirst := ihExtension hRest
  rw [← next_spliced hInside,
    ← token_spliced (x := x) hInside] at hFirst
  exact .more (by rwa [token_spliced hInside]) hTight
    hFirst (ihMore hKeeps)

theorem Phrase.Splices.string
    {token : Token}
    {parts : List StringPart}
    (hClose : t.token.kind = .stringEnd)
    (ih : Phrase.Splices x .parts s parts t) :
    Phrase.Splices x (.start .string token) s
      (.new (stringForm parts)
        (token.span.between t.token.span))
      t.next := by
  intro hKeeps
  have hInside :=
    hKeeps.insideOf (Nat.le_refl _) hClose nofun
  rw [← next_spliced hInside,
    ← token_spliced (x := x) hInside]
  exact .string (ih (Splice.keeps_of_lt hInside))
    (by rwa [token_spliced hInside])

theorem Phrase.Splices.invocation
    {token : Token}
    {arguments : List Argument}
    (hOpen : s.token.kind = .openParen)
    (hItems : Derives (.items .argument) s.next arguments t)
    (hClose : t.token.kind = .closeParen)
    (ih :
      Phrase.Splices x (.items .argument) s.next arguments
        t) :
    Phrase.Splices x (.start .reference token) s
      (.invocation token.name arguments
        (token.span.between t.token.span))
      t.next := by
  intro hKeeps
  have hInside :=
    hKeeps.insideOf (Nat.le_refl _) hClose nofun
  have hRest := Splice.keeps_of_lt (p := False) hInside
  have hFirst :=
    hRest.insideOf hItems.left_le hOpen nofun
  have hMiddle := ih hRest
  rw [← next_spliced hFirst] at hMiddle
  rw [← next_spliced hInside,
    ← token_spliced (x := x) hInside]
  exact .invocation (by rwa [token_spliced hFirst])
    hMiddle (by rwa [token_spliced hInside])

theorem Phrase.Splices.grouping
    {token : Token}
    {inner : Expr}
    (hClose : t.token.kind = .closeParen)
    (ih : Phrase.Splices x (.expression .loosest) s inner t) :
    Phrase.Splices x (.start .grouping token) s
      (.new (.parenthesized inner)
        (token.span.between t.token.span))
      t.next := by
  intro hKeeps
  have hInside :=
    hKeeps.insideOf (Nat.le_refl _) hClose nofun
  rw [← next_spliced hInside,
    ← token_spliced (x := x) hInside]
  exact .grouping (ih (Splice.keeps_of_lt hInside))
    (by rwa [token_spliced hInside])

/- The branches stay, and so does all before them. -/
theorem Phrase.Splices.conditional
    {token : Token}
    {condition thenBranch : Expr}
    {elseBranch : Option Expr}
    (hOpen : s.token.kind = .openParen)
    (hCondition :
      Derives (.expression .loosest) s.next condition t)
    (hClose : t.token.kind = .closeParen)
    (hThen :
      Derives (.expression .loosest) t.next thenBranch u)
    (hElse : Derives (.behind .kwElse) u elseBranch v)
    (ihCondition :
      Phrase.Splices x (.expression .loosest) s.next
        condition t)
    (ihThen :
      Phrase.Splices x (.expression .loosest) t.next
        thenBranch u)
    (ihElse :
      Phrase.Splices x (.behind .kwElse) u elseBranch v) :
    Phrase.Splices x (.start .conditional token) s
      (.new (.conditional condition thenBranch elseBranch)
        (token.span.between
          ((elseBranch.map (·.span)).getD thenBranch.span)))
      v := by
  intro hKeeps
  have hLast := hKeeps.mono hElse.left_le
  have hInside :=
    hLast.insideOf
      (Nat.le_of_lt hThen.left_le) hClose nofun
  have hRest := Splice.keeps_of_lt (p := False) hInside
  have hFirst :=
    hRest.insideOf
      (Nat.le_of_lt hCondition.left_le) hOpen nofun
  have hMiddle := ihCondition (hRest.imp False.elim)
  rw [← next_spliced hFirst] at hMiddle
  have hBranch := ihThen hLast
  rw [← next_spliced hInside] at hBranch
  exact .conditional (by rwa [token_spliced hFirst])
    hMiddle (by rwa [token_spliced hInside]) hBranch
    (ihElse (hKeeps.imp fun hEnd => ⟨hEnd, nofun⟩))

/- What a function has behind its word may be its end. -/
theorem Phrase.Splices.functionLiteral
    {token : Token}
    {parameters : List Parameter}
    {returnType : TypeExpr}
    {body : Expr}
    (hNone : ¬ s.token.kind.isName)
    (hSignature :
      Derives .signature s.opened (parameters, returnType)
        t)
    (hBody : Derives .body t body u)
    (ihSignature :
      Phrase.Splices x .signature s.opened
        (parameters, returnType) t)
    (ihBody : Phrase.Splices x .body t body u) :
    Phrase.Splices x (.start .function token) s
      (.new
        (.function parameters returnType body s.newScope)
        (token.span.between body.span))
      u.closed := by
  intro hKeeps
  have hRest : x.Keeps t (x.kind = .eof) :=
    hKeeps.mono hBody.left_le
  have hStart : x.Keeps s (x.kind = .eof) :=
    hRest.mono hSignature.left_le
  refine .functionLiteral
    (holds_spliced (p := fun kind => ¬ kind.isName)
      (hStart.imp ?_) hNone)
    (ihSignature (hRest.imp ?_)) (ihBody hKeeps)
  · intro hEnd
    rw [hEnd]
    decide
  · intro hEnd
    unfold Phrase.EndsBefore
    rw [hEnd]
    decide

theorem Phrase.Splices.lambda
    {token : Token}
    {parameters : List Parameter}
    {body : Expr}
    (hClose : t.token.kind = .pipe)
    (hBody : Derives (.expression .loosest) t.next body u)
    (ihItems :
      Phrase.Splices x (.items .lambdaParameter) s.opened
        parameters t)
    (ihBody :
      Phrase.Splices x (.expression .loosest) t.next body
        u) :
    Phrase.Splices x (.start .lambda token) s
      (.new (.lambda parameters body s.newScope)
        (token.span.between body.span))
      u.closed := by
  intro hKeeps
  have hInside :=
    Splice.Keeps.insideOf (t := u) hKeeps
      (Nat.le_of_lt hBody.left_le) hClose nofun
  have hRest := ihBody hKeeps
  rw [← next_spliced hInside] at hRest
  exact .lambda (s := s.spliced x)
    (ihItems (Splice.keeps_of_lt hInside))
    (by rwa [token_spliced hInside]) hRest

theorem Phrase.Splices.retNothing
    {token : Token}
    (hNone : s.token.kind.starter? = none) :
    Phrase.Splices x (.start .ret token) s
      (.new (.ret none) (token.span.between token.span))
      s := by
  intro hKeeps
  refine .retNothing
    (holds_spliced (p := (·.starter? = none))
      (hKeeps.imp ?_) hNone)
  intro hEnd
  rw [hEnd]
  rfl

theorem Phrase.Splices.call
    {left : Expr}
    {operator : Token}
    {q : Power}
    {arguments : List Argument}
    (hClose : t.token.kind = .closeParen)
    (ih : Phrase.Splices x (.items .argument) s arguments t) :
    Phrase.Splices x (.extension .call left operator q) s
      (.new (.call left arguments)
        (left.span.between t.token.span))
      t.next := by
  intro hKeeps
  have hInside :=
    hKeeps.insideOf (Nat.le_refl _) hClose nofun
  rw [← next_spliced hInside,
    ← token_spliced (x := x) hInside]
  exact .call (ih (Splice.keeps_of_lt hInside))
    (by rwa [token_spliced hInside])

theorem Phrase.Splices.present
    {kind : TokenKind}
    {e : Expr}
    (hThere : s.token.kind = kind)
    (hValue : Derives (.expression .loosest) s.next e t)
    (ih :
      Phrase.Splices x (.expression .loosest) s.next e t) :
    Phrase.Splices x (.behind kind) s (some e) t := by
  intro hKeeps
  have hInside : x.count < s.left :=
    lt_left_of_lt_next
      (Nat.lt_of_le_of_lt hKeeps.le hValue.left_le)
  have hRest := ih (hKeeps.imp And.left)
  rw [← next_spliced hInside] at hRest
  exact .present (by rwa [token_spliced hInside]) hRest

------------------------------------------------------------
-- Items of lists
------------------------------------------------------------

theorem Phrase.Splices.named
    {value : Expr}
    (hNamed : s.AtNamed)
    (hValue :
      Derives (.expression .loosest) s.next.next value t)
    (ih :
      Phrase.Splices x (.expression .loosest) s.next.next
        value t) :
    Phrase.Splices x (.item .argument) s
      ⟨some s.token.name, value,
       s.token.span.between value.span⟩
      t := by
  intro hKeeps
  have hInside : x.count < s.next.left :=
    lt_left_of_lt_next
      (Nat.lt_of_le_of_lt hKeeps.le hValue.left_le)
  have hFirst := lt_left_of_lt_next hInside
  have hRest := ih (hKeeps.imp False.elim)
  rw [← next_spliced hInside, ← next_spliced hFirst]
    at hRest
  rw [← token_spliced (x := x) hFirst]
  exact .named ((atNamed_spliced hInside).2 hNamed) hRest

theorem Phrase.Splices.positional
    {value : Expr}
    (hNone : ¬ s.AtNamed)
    (hValue : Derives (.expression .loosest) s value t)
    (ih : Phrase.Splices x (.expression .loosest) s value t) :
    Phrase.Splices x (.item .argument) s
      ⟨none, value, value.span.between value.span⟩ t := by
  intro hKeeps
  have hInside :=
    lt_next_of_lt (hKeeps.lt id) hValue.left_le
  exact .positional
    (fun hNamed =>
      hNone ((atNamed_spliced hInside).1 hNamed))
    (ih (hKeeps.imp False.elim))

/- A parameter is declared behind its own tokens. -/
theorem Phrase.Splices.parameter
    {type : TypeExpr}
    {fallback : Option Expr}
    {span : Span}
    {n : DefinitionId}
    (hName : s.token.kind.isName)
    (hColon : s.next.token.kind = .colon)
    (hType :
      DerivesType (.operand (joinsAbove .loosest))
        s.next.next type t)
    (hFallback : Derives (.behind .assignment) t fallback u)
    (hSpan :
      span =
        s.token.span.between
          ((fallback.map (·.span)).getD type.span))
    (hDeclares :
      u.Declares
        ⟨s.token.name, .argument, span, span.stop.offset,
         false, none⟩
        n v)
    (ih :
      Phrase.Splices x (.behind .assignment) t fallback u) :
    Phrase.Splices x (.item .parameter) s
      ⟨s.token.name, type, fallback, n, span⟩ v := by
  intro hKeeps
  have hCount : x.count < u.left := by
    rw [← hDeclares.left_eq]
    exact hKeeps.lt id
  have hTyped : x.count < t.left :=
    Nat.lt_of_lt_of_le hCount hFallback.left_le
  have hInside : x.count < s.next.left :=
    lt_left_of_lt_next
      (Nat.lt_of_lt_of_le hTyped hType.left_le)
  have hFirst := lt_left_of_lt_next hInside
  have hRest :=
    hType.spliced (x := x) trivial
      (Splice.keeps_of_lt hTyped)
  rw [← next_spliced hInside, ← next_spliced hFirst]
    at hRest
  have hDeclared := hDeclares.spliced x
  rw [← token_spliced (x := x) hFirst] at hDeclared hSpan
  rw [← token_spliced (x := x) hFirst]
  exact .parameter (by rwa [token_spliced hFirst])
    (by rwa [token_next_spliced hInside])
    hRest (ih (Splice.keeps_of_lt hCount)) hSpan
    hDeclared

theorem Phrase.Splices.lambdaParameter
    {type : TypeExpr}
    {span : Span}
    {n : DefinitionId}
    (hName : s.token.kind.isName)
    (hType :
      DerivesType (.behind .colon .logicalOr s.token.span)
        s.next type t)
    (hSpan : span = s.token.span.between type.span)
    (hDeclares :
      t.Declares
        ⟨s.token.name, .argument, span,
         s.token.span.start.offset, false, none⟩
        n u) :
    Phrase.Splices x (.item .lambdaParameter) s
      ⟨s.token.name, type, none, n, span⟩ u := by
  intro hKeeps
  have hCount : x.count < t.left := by
    rw [← hDeclares.left_eq]
    exact hKeeps.lt id
  have hFirst : x.count < s.left :=
    lt_left_of_lt_next
      (Nat.lt_of_lt_of_le hCount hType.left_le)
  have hRest :=
    hType.spliced (x := x) Bool.false_ne_true
      (Splice.keeps_of_lt hCount)
  have hDeclared := hDeclares.spliced x
  rw [← next_spliced hFirst,
    ← token_spliced (x := x) hFirst] at hRest
  rw [← token_spliced (x := x) hFirst] at hDeclared hSpan
  rw [← token_spliced (x := x) hFirst]
  exact .lambdaParameter (by rwa [token_spliced hFirst])
    hRest hSpan hDeclared

theorem Phrase.Splices.entry
    (hName : s.token.kind.isName)
    (hNone : s.next.token.kind ≠ .kwAs) :
    Phrase.Splices x (.item .entry) s
      ⟨s.token.name, none, s.token.span⟩ s.next := by
  intro hKeeps
  have hInside : x.count < s.next.left := hKeeps.lt id
  have hFirst := lt_left_of_lt_next hInside
  rw [← next_spliced hFirst,
    ← token_spliced (x := x) hFirst]
  exact .entry (by rwa [token_spliced hFirst])
    (by rwa [token_next_spliced hInside])

theorem Phrase.Splices.renamedEntry
    (hName : s.token.kind.isName)
    (hAs : s.next.token.kind = .kwAs)
    (hNewName : s.next.next.token.kind.isName) :
    Phrase.Splices x (.item .entry) s
      ⟨s.token.name, some s.next.next.token.name,
       s.token.span.between s.next.next.token.span⟩
      s.next.next.next := by
  intro hKeeps
  have hLast : x.count < s.next.next.left :=
    lt_left_of_lt_next (hKeeps.lt id)
  have hInside : x.count < s.next.left :=
    lt_left_of_lt_next hLast
  have hFirst := lt_left_of_lt_next hInside
  have hNext := next_next_spliced (x := x) hInside
  rw [← next_spliced hLast, ← hNext,
    ← token_spliced (x := x) hFirst,
    ← token_spliced (x := x) hLast, ← hNext]
  exact .renamedEntry (by rwa [token_spliced hFirst])
    (by rwa [token_next_spliced hInside])
    (by rwa [hNext, token_spliced hLast])

theorem Phrase.Splices.trailingComma
    {i : Item}
    (hComma : s.token.kind = .comma)
    (hNone : s.next.token.kind = i.terminator) :
    Phrase.Splices x (.moreItems i) s [] s.next := by
  intro hKeeps
  have hInside : x.count < s.next.left := hKeeps.lt id
  have hFirst := lt_left_of_lt_next hInside
  rw [← next_spliced hFirst]
  exact .trailingComma (by rwa [token_spliced hFirst])
    (by rwa [token_next_spliced hInside])

theorem Phrase.Splices.nextItem
    {i : Item}
    {y : i.Result}
    {ys : List i.Result}
    (hComma : s.token.kind = .comma)
    (hSome : s.next.token.kind ≠ i.terminator)
    (hItem : Derives (.item i) s.next y t)
    (hMore : Derives (.moreItems i) t ys u)
    (ihItem : Phrase.Splices x (.item i) s.next y t)
    (ihMore : Phrase.Splices x (.moreItems i) t ys u) :
    Phrase.Splices x (.moreItems i) s (y :: ys) u := by
  intro hKeeps
  have hRest := hKeeps.mono hMore.left_le
  have hInside :=
    (hRest.mono hItem.left_le).lt id
  have hFirst := lt_left_of_lt_next hInside
  have hMiddle := ihItem hRest
  rw [← next_spliced hFirst] at hMiddle
  exact .nextItem (by rwa [token_spliced hFirst])
    (by rwa [token_next_spliced hInside])
    hMiddle (ihMore hKeeps)

------------------------------------------------------------
-- Functions and strings
------------------------------------------------------------

theorem Phrase.Splices.signature
    {parameters : List Parameter}
    {returnType : TypeExpr}
    (hOpen : s.token.kind = .openParen)
    (hItems : Derives (.items .parameter) s.next parameters t)
    (hClose : t.token.kind = .closeParen)
    (hType :
      DerivesType (.behind .arrow .loosest t.token.span)
        t.next returnType u)
    (ih :
      Phrase.Splices x (.items .parameter) s.next parameters
        t) :
    Phrase.Splices x .signature s (parameters, returnType)
      u := by
  intro hKeeps
  have hInside :=
    hKeeps.insideOf hType.left_le hClose nofun
  have hRest := Splice.keeps_of_lt (p := False) hInside
  have hFirst :=
    hRest.insideOf hItems.left_le hOpen nofun
  have hMiddle := ih hRest
  rw [← next_spliced hFirst] at hMiddle
  have hTyped := hType.spliced Bool.false_ne_true hKeeps
  rw [← next_spliced hInside,
    ← token_spliced (x := x) hInside] at hTyped
  exact .signature (by rwa [token_spliced hFirst])
    hMiddle (by rwa [token_spliced hInside]) hTyped

theorem Phrase.Splices.bodyValue
    {e : Expr}
    (hAssign : s.token.kind = .assignment)
    (hValue : Derives (.expression .loosest) s.next e t)
    (ih :
      Phrase.Splices x (.expression .loosest) s.next e t) :
    Phrase.Splices x .body s e t := by
  intro hKeeps
  have hInside : x.count < s.left :=
    lt_left_of_lt_next
      (Nat.lt_of_le_of_lt hKeeps.le hValue.left_le)
  have hRest := ih hKeeps
  rw [← next_spliced hInside] at hRest
  exact .bodyValue (by rwa [token_spliced hInside]) hRest

theorem Phrase.Splices.bodyBlock
    {e : Expr}
    (hOpen : s.token.kind = .openCurly)
    (hBlock : Derives (.block s.token) s.next e t)
    (ih : Phrase.Splices x (.block s.token) s.next e t) :
    Phrase.Splices x .body s e t := by
  intro hKeeps
  have hInside :=
    hKeeps.insideOf hBlock.left_le hOpen nofun
  have hRest := ih (hKeeps.imp fun _ => trivial)
  rw [← next_spliced hInside,
    ← token_spliced (x := x) hInside] at hRest
  exact .bodyBlock (by rwa [token_spliced hInside]) hRest

theorem Phrase.Splices.namedValue
    {e : Expr}
    (hAssign : s.token.kind = .assignment)
    (hValue : Derives (.expression .loosest) s.next e t)
    (hStop : t.token.kind = .semicolon)
    (ih :
      Phrase.Splices x (.expression .loosest) s.next e t) :
    Phrase.Splices x .namedBody s (some e) t.next := by
  intro hKeeps
  have hInside :=
    hKeeps.insideOf (Nat.le_refl _) hStop nofun
  have hFirst : x.count < s.left :=
    lt_left_of_lt_next
      (Nat.lt_trans hInside hValue.left_le)
  have hRest := ih (Splice.keeps_of_lt hInside)
  rw [← next_spliced hFirst] at hRest
  rw [← next_spliced hInside]
  exact .namedValue (by rwa [token_spliced hFirst]) hRest
    (by rwa [token_spliced hInside])

theorem Phrase.Splices.namedBlock
    {e : Expr}
    (hOpen : s.token.kind = .openCurly)
    (hBlock : Derives (.block s.token) s.next e t)
    (ih : Phrase.Splices x (.block s.token) s.next e t) :
    Phrase.Splices x .namedBody s (some e) t := by
  intro hKeeps
  have hInside :=
    hKeeps.insideOf hBlock.left_le hOpen nofun
  have hRest := ih (hKeeps.imp fun _ => trivial)
  rw [← next_spliced hInside,
    ← token_spliced (x := x) hInside] at hRest
  exact .namedBlock (by rwa [token_spliced hInside]) hRest

theorem Phrase.Splices.namedNothing
    (hNone :
      s.token.kind ∉
        [TokenKind.assignment, .openCurly, .semicolon]) :
    Phrase.Splices x .namedBody s none s := by
  intro hKeeps
  refine .namedNothing
    (holds_spliced
      (p := (· ∉
        [TokenKind.assignment, .openCurly, .semicolon]))
      (hKeeps.imp ?_) hNone)
  unfold Phrase.EndsBefore
  cases x.kind <;> decide

theorem Phrase.Splices.textPart
    {parts : List StringPart}
    (hText : s.token.kind = .stringContent)
    (hMore : Derives .parts s.next parts t)
    (ih : Phrase.Splices x .parts s.next parts t) :
    Phrase.Splices x .parts s
      (.text s.token.value s.token.span :: parts) t := by
  intro hKeeps
  have hInside :=
    hKeeps.insideOf hMore.left_le hText nofun
  have hRest := ih hKeeps
  rw [← next_spliced hInside] at hRest
  rw [← token_spliced (x := x) hInside]
  exact .textPart (by rwa [token_spliced hInside]) hRest

theorem Phrase.Splices.escapePart
    {c : Char}
    {parts : List StringPart}
    (hEscape : s.token.kind = .escapeSequence)
    (hChar : unescape? s.token.value = some c)
    (hMore : Derives .parts s.next parts t)
    (ih : Phrase.Splices x .parts s.next parts t) :
    Phrase.Splices x .parts s
      (.text c.toString s.token.span :: parts) t := by
  intro hKeeps
  have hInside :=
    hKeeps.insideOf hMore.left_le hEscape nofun
  have hRest := ih hKeeps
  rw [← next_spliced hInside] at hRest
  rw [← token_spliced (x := x) hInside]
  exact .escapePart (by rwa [token_spliced hInside])
    (by rwa [token_spliced hInside]) hRest

theorem Phrase.Splices.embeddedPart
    {e : Expr}
    {parts : List StringPart}
    (hOpen : s.token.kind = .stringTemplateStart)
    (hExpr : Derives (.expression .loosest) s.next e t)
    (hClose : t.token.kind = .stringTemplateEnd)
    (hMore : Derives .parts t.next parts u)
    (ihExpr :
      Phrase.Splices x (.expression .loosest) s.next e t)
    (ihMore : Phrase.Splices x .parts t.next parts u) :
    Phrase.Splices x .parts s (.embedded e :: parts) u := by
  intro hKeeps
  have hInside :=
    hKeeps.insideOf hMore.left_le hClose nofun
  have hRest := Splice.keeps_of_lt (p := False) hInside
  have hFirst :=
    hRest.insideOf
      (Nat.le_of_lt hExpr.left_le) hOpen nofun
  have hMiddle := ihExpr (hRest.imp False.elim)
  rw [← next_spliced hFirst] at hMiddle
  have hOthers := ihMore hKeeps
  rw [← next_spliced hInside] at hOthers
  exact .embeddedPart (by rwa [token_spliced hFirst])
    hMiddle (by rwa [token_spliced hInside]) hOthers

------------------------------------------------------------
-- Blocks and statements
------------------------------------------------------------

theorem Phrase.Splices.block
    {start : Token}
    {statements : List Statement}
    (hClose : t.token.kind = .closeCurly)
    (ih :
      Phrase.Splices x .statements s.opened statements t) :
    Phrase.Splices x (.block start) s
      (.new (.block statements s.newScope)
        (start.span.between t.token.span))
      t.next.closed := by
  intro hKeeps
  have hInside :=
    Splice.Keeps.insideOf (t := t.next) hKeeps
      (Nat.le_refl _) hClose nofun
  rw [← closed_spliced, ← next_spliced hInside,
    ← token_spliced (x := x) hInside]
  exact .block (ih (Splice.keeps_of_lt hInside))
    (by rwa [token_spliced hInside])

theorem Phrase.Splices.someStatements
    {y : Statement}
    {ys : List Statement}
    (hSome : s.token.kind ≠ .closeCurly)
    (hGoesOn : s.token.kind ≠ .eof)
    (hFirst : Derives .statement s y t)
    (hMore : Derives .statements t ys u)
    (ihFirst : Phrase.Splices x .statement s y t)
    (ihMore : Phrase.Splices x .statements t ys u) :
    Phrase.Splices x .statements s (y :: ys) u := by
  intro hKeeps
  have hRest := hKeeps.mono hMore.left_le
  have hInside : x.count < s.left :=
    Nat.lt_of_le_of_lt hRest.le hFirst.left_le
  exact .someStatements (by rwa [token_spliced hInside])
    (by rwa [token_spliced hInside]) (ihFirst hRest)
    (ihMore hKeeps)

theorem Phrase.Splices.functionStatement
    {f : FunctionDecl}
    (hKeyword : s.AtFunction)
    (hFunction : Derives .functionDecl s f t)
    (ih : Phrase.Splices x .functionDecl s f t) :
    Phrase.Splices x .statement s (.function f) t := by
  intro hKeeps
  have hInside :=
    lt_next_of_lt (hKeeps.lt id) hFunction.left_le
  exact .functionStatement
    ((atFunction_spliced hInside).2 hKeyword)
    (ih (hKeeps.imp False.elim))

theorem Phrase.Splices.endedStatement
    {e : Expr}
    (hVal : s.token.kind ≠ .kwVal)
    (hVar : s.token.kind ≠ .kwVar)
    (hFunction : ¬ s.AtFunction)
    (hExpr : Derives (.expression .loosest) s e t)
    (hStop : t.token.kind = .semicolon)
    (ih : Phrase.Splices x (.expression .loosest) s e t) :
    Phrase.Splices x .statement s (.expression e)
      t.next := by
  intro hKeeps
  have hEnd :=
    hKeeps.insideOf (Nat.le_refl _) hStop nofun
  have hFirst : x.count < s.left :=
    Nat.lt_trans hEnd hExpr.left_le
  have hInside := lt_next_of_lt hEnd hExpr.left_le
  rw [← next_spliced hEnd]
  exact .endedStatement (by rwa [token_spliced hFirst])
    (by rwa [token_spliced hFirst])
    (fun hThere =>
      hFunction ((atFunction_spliced hInside).1 hThere))
    (ih (Splice.keeps_of_lt hEnd))
    (by rwa [token_spliced hEnd])

theorem Phrase.Splices.openStatement
    {e : Expr}
    (hVal : s.token.kind ≠ .kwVal)
    (hVar : s.token.kind ≠ .kwVar)
    (hFunction : ¬ s.AtFunction)
    (hExpr : Derives (.expression .loosest) s e t)
    (hNone : t.token.kind ≠ .semicolon)
    (hStop : e.endsWithBlock ∨ t.token.kind = .closeCurly)
    (ih : Phrase.Splices x (.expression .loosest) s e t) :
    Phrase.Splices x .statement s (.expression e) t := by
  intro hKeeps
  have hEnd : x.count < t.left := hKeeps.lt id
  have hFirst : x.count < s.left :=
    Nat.lt_trans hEnd hExpr.left_le
  have hInside := lt_next_of_lt hEnd hExpr.left_le
  exact .openStatement (by rwa [token_spliced hFirst])
    (by rwa [token_spliced hFirst])
    (fun hThere =>
      hFunction ((atFunction_spliced hInside).1 hThere))
    (ih (Splice.keeps_of_lt hEnd))
    (by rwa [token_spliced hEnd])
    (by rwa [token_spliced hEnd])

------------------------------------------------------------
-- Declarations
------------------------------------------------------------

theorem Phrase.Splices.variableDecl
    {kind : DefinitionKind}
    {type : TypeExpr}
    {initializer : Option Expr}
    {span : Span}
    {id : DefinitionId}
    (hKeyword : s.token.kind ≠ .eof)
    (hName : s.next.token.kind.isName)
    (hType :
      DerivesType
        (.behind .colon .loosest s.next.token.span)
        s.next.next type t)
    (hInitializer :
      Derives (.behind .assignment) t initializer u)
    (hStop : u.token.kind = .semicolon)
    (hSpan : span = s.token.span.between u.token.span)
    (hDeclares :
      u.next.Declares
        ⟨s.next.token.name, kind, span, span.stop.offset,
         s.token.kind = .kwVar, none⟩
        id v)
    (ih :
      Phrase.Splices x (.behind .assignment) t initializer
        u) :
    Phrase.Splices x (.variableDecl kind) s
      ⟨s.token.kind = .kwVar, s.next.token.name, type,
       initializer, id, span⟩
      v := by
  intro hKeeps
  have hEnd : x.count < u.left :=
    hKeeps.insideOf (Nat.le_of_eq hDeclares.left_eq)
      hStop nofun
  have hTyped : x.count < t.left :=
    Nat.lt_of_lt_of_le hEnd hInitializer.left_le
  have hInside : x.count < s.next.left :=
    lt_left_of_lt_next
      (Nat.lt_of_lt_of_le hTyped hType.left_le)
  have hFirst := lt_left_of_lt_next hInside
  have hToken := token_spliced (x := x) hFirst
  have hOther := token_next_spliced (x := x) hInside
  have hRest :=
    hType.spliced (x := x) Bool.false_ne_true
      (Splice.keeps_of_lt hTyped)
  have hDeclared := hDeclares.spliced x
  rw [← next_spliced hInside, ← next_spliced hFirst,
    ← hOther] at hRest
  rw [← hToken, ← hOther, ← next_spliced hEnd]
    at hDeclared
  rw [← hToken, ← token_spliced (x := x) hEnd] at hSpan
  rw [← hToken, ← hOther]
  exact .variableDecl (by rwa [hToken])
    (by rwa [hOther]) hRest
    (ih (Splice.keeps_of_lt hEnd))
    (by rwa [token_spliced hEnd]) hSpan hDeclared

/-
  The span of a function ends at its last token, which was
  taken and so is not replaced.
-/
theorem Phrase.Splices.functionDecl
    {parameters : List Parameter}
    {returnType : TypeExpr}
    {body : Option Expr}
    {span : Span}
    {id : DefinitionId}
    (hKeyword : s.token.kind = .kwFun)
    (hName : s.next.token.kind.isName)
    (hSignature :
      Derives .signature s.next.next.opened
        (parameters, returnType) t)
    (hBody : Derives .namedBody t body u)
    (hSpan :
      span = s.token.span.between u.stream.previous.span)
    (hDeclares :
      u.closed.Declares
        ⟨s.next.token.name, .function, span,
         s.next.token.span.start.offset, false, none⟩
        id v)
    (ihSignature :
      Phrase.Splices x .signature s.next.next.opened
        (parameters, returnType) t)
    (ihBody : Phrase.Splices x .namedBody t body u) :
    Phrase.Splices x .functionDecl s
      ⟨s.next.token.name, parameters, returnType, body,
       s.next.next.newScope, id, span⟩
      v := by
  intro hKeeps
  have hAfter : x.Keeps u (x.kind.isBreak) :=
    hKeeps.mono (Nat.le_of_eq hDeclares.left_eq)
  have hRest : x.Keeps t (x.kind.isBreak) :=
    hAfter.mono hBody.left_le
  have hInside : x.count < s.next.left :=
    hRest.inside hSignature.left_le
      (ne_eof_of_isName hName)
  have hFirst := lt_left_of_lt_next hInside
  have hToken := token_spliced (x := x) hFirst
  have hOther := token_next_spliced (x := x) hInside
  have hNext := next_next_spliced (x := x) hInside
  have hMiddle := ihSignature hRest
  rw [← opened_spliced, ← hNext] at hMiddle
  have hScope :
      (s.spliced x).next.next.newScope =
        s.next.next.newScope := by
    rw [hNext]
    rfl
  have hTaken : s.next.next.stream.before ≠ [] := by
    have hSolid := isSolid_of_isName hName
    refine (Crosses.solid hSolid []).before_ne ?_
    rw [next_of_ahead
      (ahead_eq (s := s) (by rw [hKeyword]; decide))]
    exact List.cons_ne_nil _ _
  have hBefore : u.stream.before ≠ [] :=
    ((hSignature.crosses trivial []).trans
      (hBody.crosses trivial [])).before_ne hTaken
  have hDeclared := hDeclares.spliced x
  rw [← hOther, ← closed_spliced] at hDeclared
  rw [← hToken, ← previous_spliced (x := x) hBefore]
    at hSpan
  rw [← hOther, ← hScope]
  exact .functionDecl (by rwa [hToken])
    (by rwa [hOther]) hMiddle (ihBody hAfter) hSpan
    hDeclared

------------------------------------------------------------
-- Whole derivations
------------------------------------------------------------

theorem Derives.spliced
    {phrase : Phrase}
    {r : phrase.Result}
    (hDerives : Derives phrase s r t) :
    phrase.Splices x s r t := by
  induction hDerives with
  | expression hStart hFirst hMore ihFirst ihMore =>
      exact .expression hStart hFirst hMore ihFirst ihMore
  | @stop p left s hStop =>
      intro hKeeps
      refine .stop (holds_spliced (p := (·.EndsAbove p))
        (hKeeps.imp ?_) hStop)
      intro hEnd
      rw [hEnd]
      exact nofun
  | more hOperator hTight hExtension hMore ihExtension
      ihMore =>
      exact .more hOperator hTight hExtension hMore
        ihExtension ihMore
  | int hForm => exact fun _ => .int hForm
  | boolean => exact fun _ => .boolean
  | string _ hClose ih => exact .string hClose ih
  | @reference token s hNone =>
      intro hKeeps
      refine .reference (holds_spliced (p := (· ≠ .openParen))
        (hKeeps.imp ?_) hNone)
      intro hEnd
      rw [hEnd]
      exact nofun
  | invocation hOpen hItems hClose ih =>
      exact .invocation hOpen hItems hClose ih
  | unary _ ih => exact fun hKeeps => .unary (ih hKeeps)
  | grouping _ hClose ih => exact .grouping hClose ih
  | startBlock _ ih =>
      exact fun hKeeps =>
        .startBlock (ih (hKeeps.imp fun _ => trivial))
  | conditional hOpen hCondition hClose hThen hElse
      ihCondition ihThen ihElse =>
      exact .conditional hOpen hCondition hClose hThen hElse
        ihCondition ihThen ihElse
  | functionLiteral hNone hSignature hBody ihSignature
      ihBody =>
      exact .functionLiteral hNone hSignature hBody
        ihSignature ihBody
  | lambda _ hClose hBody ihItems ihBody =>
      exact .lambda hClose hBody ihItems ihBody
  | retValue _ ih => exact fun hKeeps => .retValue (ih hKeeps)
  | retNothing hNone => exact .retNothing hNone
  | binary hIs _ ih =>
      exact fun hKeeps => .binary hIs (ih hKeeps)
  | assignment hIs _ ih =>
      exact fun hKeeps => .assignment hIs (ih hKeeps)
  | @member left operator q s right t hName hRight hIs ih =>
      intro hKeeps
      have hInside : x.count < s.left :=
        Nat.lt_of_le_of_lt hKeeps.le hRight.left_le
      exact .member (by rwa [token_spliced hInside])
        (ih hKeeps) hIs
  | call _ hClose ih => exact .call hClose ih
  | present hThere hValue ih =>
      exact .present hThere hValue ih
  | @absent kind s hNone =>
      intro hKeeps
      refine .absent (holds_spliced (p := (· ≠ kind))
        (hKeeps.imp ?_) hNone)
      rintro ⟨hEnd, hOther⟩ rfl
      exact hOther hEnd
  | named hNamed hValue ih => exact .named hNamed hValue ih
  | positional hNone hValue ih =>
      exact .positional hNone hValue ih
  | parameter hName hColon hType hFallback hSpan hDeclares
      ih =>
      exact .parameter hName hColon hType hFallback hSpan
        hDeclares ih
  | lambdaParameter hName hType hSpan hDeclares =>
      exact .lambdaParameter hName hType hSpan hDeclares
  | entry hName hNone => exact .entry hName hNone
  | renamedEntry hName hAs hNewName =>
      exact .renamedEntry hName hAs hNewName
  | @noItems i s hNone =>
      intro hKeeps
      exact .noItems (by rwa [token_spliced (hKeeps.lt id)])
  | @someItems i s y t ys u hSome hFirst hMore ihFirst
      ihMore =>
      intro hKeeps
      have hRest := hKeeps.mono hMore.left_le
      have hInside :=
        (hRest.mono hFirst.left_le).lt id
      exact .someItems (by rwa [token_spliced hInside])
        (ihFirst hRest) (ihMore hKeeps)
  | @lastItem i s hNone =>
      intro hKeeps
      exact .lastItem (by rwa [token_spliced (hKeeps.lt id)])
  | trailingComma hComma hNone =>
      exact .trailingComma hComma hNone
  | nextItem hComma hSome hItem hMore ihItem ihMore =>
      exact .nextItem hComma hSome hItem hMore ihItem ihMore
  | signature hOpen hItems hClose hType ih =>
      exact .signature hOpen hItems hClose hType ih
  | bodyValue hAssign hValue ih =>
      exact .bodyValue hAssign hValue ih
  | bodyBlock hOpen hBlock ih =>
      exact .bodyBlock hOpen hBlock ih
  | namedValue hAssign hValue hStop ih =>
      exact .namedValue hAssign hValue hStop ih
  | namedBlock hOpen hBlock ih =>
      exact .namedBlock hOpen hBlock ih
  | @namedNone s hStop =>
      intro hKeeps
      have hInside :=
        hKeeps.insideOf (Nat.le_refl _) hStop nofun
      rw [← next_spliced hInside]
      exact .namedNone (by rwa [token_spliced hInside])
  | namedNothing hNone => exact .namedNothing hNone
  | @noParts s hStop =>
      intro hKeeps
      exact .noParts (by rwa [token_spliced (hKeeps.lt id)])
  | textPart hText hMore ih =>
      exact .textPart hText hMore ih
  | escapePart hEscape hChar hMore ih =>
      exact .escapePart hEscape hChar hMore ih
  | embeddedPart hOpen hExpr hClose hMore ihExpr ihMore =>
      exact .embeddedPart hOpen hExpr hClose hMore ihExpr
        ihMore
  | block _ hClose ih => exact .block hClose ih
  | @noStatements s hStop =>
      intro hKeeps
      exact .noStatements
        (by rwa [token_spliced (hKeeps.lt id)])
  | someStatements hSome hGoesOn hFirst hMore ihFirst ihMore =>
      exact .someStatements hSome hGoesOn hFirst hMore
        ihFirst ihMore
  | @variableStatement s v t hKeyword hVariable ih =>
      intro hKeeps
      have hInside : x.count < s.left :=
        Nat.lt_of_le_of_lt hKeeps.le hVariable.left_le
      exact .variableStatement
        (by rwa [token_spliced hInside])
        (ih (hKeeps.imp False.elim))
  | functionStatement hKeyword hFunction ih =>
      exact .functionStatement hKeyword hFunction ih
  | endedStatement hVal hVar hFunction hExpr hStop ih =>
      exact .endedStatement hVal hVar hFunction hExpr hStop
        ih
  | openStatement hVal hVar hFunction hExpr hNone hStop ih =>
      exact .openStatement hVal hVar hFunction hExpr hNone
        hStop ih
  | variableDecl hKeyword hName hType hInitializer hStop
      hSpan hDeclares ih =>
      exact .variableDecl hKeyword hName hType hInitializer
        hStop hSpan hDeclares ih
  | functionDecl hKeyword hName hSignature hBody hSpan
      hDeclares ihSignature ihBody =>
      exact .functionDecl hKeyword hName hSignature hBody
        hSpan hDeclares ihSignature ihBody

end SourceCheck
