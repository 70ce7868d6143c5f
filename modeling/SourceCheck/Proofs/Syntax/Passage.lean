import SourceCheck.Proofs.Lexing.Brackets
import SourceCheck.Proofs.Syntax.Derivation

/-
  The tokens that phrases pass.

  A derivation only moves the cursor on, over tokens that may
  stand in an accepted text, and reports nothing.  Brackets
  that are opened in a phrase are closed in it, and none is
  closed in it that was opened before.

  Key definitions include:
    * `ParserState.Passes`
    * `ParserState.Crosses`

  Key theorems include:
    * `DerivesType.crosses`
    * `Derives.crosses`
-/

namespace SourceCheck

open SourceCheck.Parser

------------------------------------------------------------
-- Kinds of tokens
------------------------------------------------------------

theorem isSolid_of_isName
    {kind : TokenKind}
    (hName : kind.isName) :
    kind.isSolid := by
  revert hName
  cases kind <;> decide

theorem isSolid_joinToken (join : TypeJoin) :
    join.token.isSolid := by
  cases join <;> rfl

/- What a starter opens. -/
def Starter.opened : Starter → List Bracket
  | string => [.string]
  | grouping => [.paren]
  | block => [.curly]
  | _ => []

theorem enclose_of_starter
    {kind : TokenKind}
    {starter : Starter}
    (hStart : kind.starter? = some starter)
    (opened : List Bracket) :
    kind.enclose opened = some (starter.opened ++ opened) := by
  cases kind <;> cases hStart <;> rfl

/- What an operator opens. -/
def Extender.opened : Extender → List Bracket
  | call => [.paren]
  | _ => []

theorem enclose_of_extender
    {kind : TokenKind}
    {extender : Extender}
    {power : Power}
    (hOperator : kind.extender? = some (extender, power))
    (opened : List Bracket) :
    kind.enclose opened =
      some (extender.opened ++ opened) := by
  cases kind <;> cases hOperator <;> rfl

------------------------------------------------------------
-- Passing tokens
------------------------------------------------------------

namespace ParserState

/- From one state to the other the tokens are passed. -/
structure Passes
    (s : ParserState)
    (ts : List Token)
    (t : ParserState) :
    Prop where
  ahead_eq : s.stream.ahead = ts ++ t.stream.ahead
  before_eq :
    t.stream.before = ts.reverse ++ s.stream.before
  last_eq : t.stream.last = s.stream.last
  file_eq : t.file = s.file
  diagnostics_eq : t.diagnostics = s.diagnostics

/-
  Tokens are passed behind which other brackets are open than
  before them.
-/
def Crosses
    (s : ParserState)
    (opened : List Bracket)
    (t : ParserState)
    (later : List Bracket) :
    Prop :=
  ∃ ts, s.Passes ts t ∧ bracketsAfter opened ts = some later

variable {s t u : ParserState}
variable {a b c : List Bracket}
variable {bracket : Bracket}

theorem Passes.refl (s : ParserState) : s.Passes [] s :=
  ⟨rfl, rfl, rfl, rfl, rfl⟩

/- Behind tokens that are passed there is a previous one. -/
theorem Passes.before_ne
    {ts : List Token}
    (hPasses : s.Passes ts t)
    (hSome : ts ≠ []) :
    t.stream.before ≠ [] := by
  rw [hPasses.before_eq]
  exact List.append_ne_nil_of_left_ne_nil
    (List.reverse_ne_nil_iff.2 hSome) _

/- The first and the last token that are passed. -/
theorem Passes.ends
    {ts : List Token}
    (hPasses : s.Passes ts t)
    (hSome : ts ≠ []) :
    ts.head? = some s.token ∧
      ts.getLast? = some t.stream.previous := by
  constructor
  · cases ts with
    | nil => exact absurd rfl hSome
    | cons first ts =>
        rw [token_of_ahead hPasses.ahead_eq]
        rfl
  · unfold TokenStream.previous
    rw [hPasses.before_eq,
      ← List.dropLast_concat_getLast hSome,
      List.reverse_concat, List.getLast?_concat]
    rfl

theorem Crosses.refl
    (s : ParserState)
    (a : List Bracket) :
    s.Crosses a s a :=
  ⟨[], .refl s, rfl⟩

theorem Crosses.trans
    (hFirst : s.Crosses a t b)
    (hSecond : t.Crosses b u c) :
    s.Crosses a u c := by
  rcases hFirst with ⟨ts, hPasses, hBrackets⟩
  rcases hSecond with ⟨us, hMore, hLater⟩
  refine ⟨ts ++ us, ⟨?_, ?_, ?_, ?_, ?_⟩, ?_⟩
  · rw [hPasses.ahead_eq, hMore.ahead_eq, List.append_assoc]
  · rw [hMore.before_eq, hPasses.before_eq,
      List.reverse_append, List.append_assoc]
  · exact hMore.last_eq.trans hPasses.last_eq
  · exact hMore.file_eq.trans hPasses.file_eq
  · exact hMore.diagnostics_eq.trans hPasses.diagnostics_eq
  · rw [bracketsAfter_append, hBrackets]
    exact hLater

/- A token is passed, if it may follow. -/
theorem Crosses.next
    (hFollows : s.token.kind.enclose a = some b) :
    s.Crosses a s.next b := by
  have hMore :=
    (TokenKind.not_refused_of_enclose hFollows).2
  have hAhead := ParserState.ahead_eq hMore
  refine ⟨[s.token], ⟨hAhead, ?_, ?_, rfl, rfl⟩, ?_⟩
  · unfold ParserState.next TokenStream.consume
    rw [hAhead]
    rfl
  · unfold ParserState.next TokenStream.consume
    rw [hAhead]
  · unfold bracketsAfter
    rw [List.foldlM_cons, hFollows]
    rfl

/- A token is passed that opens a bracket. -/
theorem Crosses.opening
    {kind : TokenKind}
    (hKind : s.token.kind = kind)
    (a : List Bracket)
    (hOpens : kind.opens? = some bracket) :
    s.Crosses a s.next (bracket :: a) := by
  subst hKind
  exact .next (TokenKind.enclose_of_opens hOpens a)

/- A token is passed at the end, which closes a bracket. -/
theorem Crosses.andClosing
    {kind : TokenKind}
    (hFirst : s.Crosses a t (bracket :: b))
    (hKind : t.token.kind = kind)
    (hCloses : kind.closes? = some bracket) :
    s.Crosses a t.next b := by
  subst hKind
  exact hFirst.trans
    (.next (TokenKind.enclose_of_closes hCloses b))

theorem Crosses.solid
    (hSolid : s.token.kind.isSolid)
    (a : List Bracket) :
    s.Crosses a s.next a :=
  .next (TokenKind.enclose_of_isSolid hSolid a)

theorem Crosses.andSolid
    (hFirst : s.Crosses a t b)
    (hSolid : t.token.kind.isSolid) :
    s.Crosses a t.next b :=
  hFirst.trans (.solid hSolid b)

/- Scopes do not matter to the cursor. -/
theorem Crosses.scoped
    (hInside : s.opened.Crosses a t b) :
    s.Crosses a t.closed b := by
  rcases hInside with ⟨ts, hPasses, hBrackets⟩
  exact ⟨ts,
    ⟨hPasses.ahead_eq, hPasses.before_eq, hPasses.last_eq,
      hPasses.file_eq, hPasses.diagnostics_eq⟩,
    hBrackets⟩

/- Nor do definitions. -/
theorem Crosses.andDeclares
    {d : Definition}
    {id : DefinitionId}
    (hFirst : s.Crosses a t b)
    (hDeclares : t.Declares d id u) :
    s.Crosses a u b := by
  rcases hDeclares.exists_scope with ⟨scope, -, -, rfl⟩
  rcases hFirst with ⟨ts, hPasses, hBrackets⟩
  exact ⟨ts,
    ⟨hPasses.ahead_eq, hPasses.before_eq, hPasses.last_eq,
      hPasses.file_eq, hPasses.diagnostics_eq⟩,
    hBrackets⟩

end ParserState

open ParserState

------------------------------------------------------------
-- What phrases pass
------------------------------------------------------------

/- The token before the phrase is solid, if there is one. -/
def TypePhrase.IsSolid : TypePhrase → Prop
  | .behind separator _ _ => separator.isSolid
  | _ => True

theorem DerivesType.crosses
    {phrase : TypePhrase}
    {s t : ParserState}
    {x : TypeExpr}
    (hDerives : DerivesType phrase s x t) :
    phrase.IsSolid → ∀ a, s.Crosses a t a := by
  induction hDerives with
  | name hName => exact fun _ => .solid (isSolid_of_isName hName)
  | joined _ _ ihFirst ihMore =>
      exact fun _ a =>
        (ihFirst trivial a).trans (ihMore trivial a)
  | stop _ => exact fun _ => .refl _
  | @more join _ _ _ _ _ _ _ hJoin _ _ ihRight ihMore =>
      intro _ a
      have hSolid := isSolid_joinToken join
      rw [← hJoin] at hSolid
      exact ((Crosses.solid hSolid a).trans
        (ihRight trivial a)).trans (ihMore trivial a)
  | present hThere _ ih =>
      intro hSolid a
      rw [← show _ = _ from hThere] at hSolid
      exact (Crosses.solid hSolid a).trans (ih trivial a)
  | absent _ => exact fun _ => .refl _

/- The first token is solid where it may be any. -/
def Phrase.IsSolid : Phrase → ParserState → Prop
  | .behind kind, _ => kind.isSolid
  | .variableDecl _, s => s.token.kind.isSolid
  | _, _ => True

/- What was opened for the phrase. -/
def Phrase.opened : Phrase → List Bracket
  | .start starter _ => starter.opened
  | .extension extender _ _ _ => extender.opened
  | .block _ => [.curly]
  | _ => []

theorem Derives.crosses
    {phrase : Phrase}
    {s t : ParserState}
    {r : phrase.Result}
    (hDerives : Derives phrase s r t) :
    phrase.IsSolid s →
      ∀ a, s.Crosses (phrase.opened ++ a) t a := by
  have hSolid {kind : TokenKind} {s : ParserState}
      (hKind : s.token.kind = kind)
      (hSolid : kind.isSolid) :
      s.token.kind.isSolid := by
    rw [hKind]
    exact hSolid
  induction hDerives with
  | expression hStart _ _ ihFirst ihMore =>
      intro _ a
      exact ((Crosses.next (enclose_of_starter hStart a)).trans
        (ihFirst trivial a)).trans (ihMore trivial a)
  | stop _ => exact fun _ => .refl _
  | more hOperator _ _ _ ihExtension ihMore =>
      intro _ a
      exact ((Crosses.next
        (enclose_of_extender hOperator a)).trans
          (ihExtension trivial a)).trans (ihMore trivial a)
  | int _ => exact fun _ => .refl _
  | boolean => exact fun _ => .refl _
  | string _ hClose ih =>
      exact fun _ a =>
        (ih trivial (.string :: a)).andClosing hClose rfl
  | reference _ => exact fun _ => .refl _
  | invocation hOpen _ hClose ih =>
      intro _ a
      exact ((Crosses.opening hOpen a rfl).trans
        (ih trivial (.paren :: a))).andClosing hClose rfl
  | unary _ ih => exact ih
  | grouping _ hClose ih =>
      exact fun _ a =>
        (ih trivial (.paren :: a)).andClosing hClose rfl
  | startBlock _ ih => exact ih
  | conditional hOpen _ hClose _ _ ihCondition ihThen ihElse =>
      intro _ a
      have hCondition :=
        (Crosses.opening hOpen a rfl).trans
          (ihCondition trivial (.paren :: a))
      exact ((hCondition.andClosing hClose rfl).trans
        (ihThen trivial a)).trans (ihElse rfl a)
  | functionLiteral _ _ _ ihSignature ihBody =>
      exact fun _ a =>
        .scoped ((ihSignature trivial a).trans
          (ihBody trivial a))
  | lambda _ hClose _ ihItems ihBody =>
      intro _ a
      have hItems :=
        (ihItems trivial a).andSolid (hSolid hClose rfl)
      exact .scoped (hItems.trans (ihBody trivial a))
  | retValue _ ih => exact ih
  | retNothing _ => exact fun _ => .refl _
  | binary _ _ ih => exact ih
  | assignment _ _ ih => exact ih
  | member _ _ _ ih => exact ih
  | call _ hClose ih =>
      exact fun _ a =>
        (ih trivial (.paren :: a)).andClosing hClose rfl
  | present hThere _ ih =>
      exact fun hKind a =>
        (Crosses.solid (hSolid hThere hKind) a).trans
          (ih trivial a)
  | absent _ => exact fun _ => .refl _
  | named hNamed _ ih =>
      intro _ a
      have hName :=
        Crosses.solid (isSolid_of_isName hNamed.1) a
      exact (hName.andSolid (hSolid hNamed.2 rfl)).trans
        (ih trivial a)
  | positional _ _ ih => exact ih
  | parameter hName hColon hType _ _ hDeclares ih =>
      intro _ a
      have hTyped :=
        ((Crosses.solid (isSolid_of_isName hName) a).andSolid
          (hSolid hColon rfl)).trans (hType.crosses trivial a)
      exact (hTyped.trans (ih rfl a)).andDeclares hDeclares
  | lambdaParameter hName hType _ hDeclares =>
      intro _ a
      exact ((Crosses.solid (isSolid_of_isName hName) a).trans
        (hType.crosses rfl a)).andDeclares hDeclares
  | entry hName _ =>
      exact fun _ => .solid (isSolid_of_isName hName)
  | renamedEntry hName hAs hNewName =>
      intro _ a
      have hFirst := Crosses.solid (isSolid_of_isName hName) a
      exact (hFirst.andSolid (hSolid hAs rfl)).andSolid
        (isSolid_of_isName hNewName)
  | noItems _ => exact fun _ => .refl _
  | someItems _ _ _ ihFirst ihMore =>
      exact fun _ a =>
        (ihFirst trivial a).trans (ihMore trivial a)
  | lastItem _ => exact fun _ => .refl _
  | trailingComma hComma _ =>
      exact fun _ => .solid (hSolid hComma rfl)
  | nextItem hComma _ _ _ ihItem ihMore =>
      intro _ a
      exact ((Crosses.solid (hSolid hComma rfl) a).trans
        (ihItem trivial a)).trans (ihMore trivial a)
  | signature hOpen _ hClose hType ih =>
      intro _ a
      have hItems :=
        (Crosses.opening hOpen a rfl).trans
          (ih trivial (.paren :: a))
      exact (hItems.andClosing hClose rfl).trans
        (hType.crosses rfl a)
  | bodyValue hAssign _ ih =>
      exact fun _ a =>
        (Crosses.solid (hSolid hAssign rfl) a).trans
          (ih trivial a)
  | bodyBlock hOpen _ ih =>
      exact fun _ a =>
        (Crosses.opening hOpen a rfl).trans (ih trivial a)
  | namedValue hAssign _ hStop ih =>
      intro _ a
      exact ((Crosses.solid (hSolid hAssign rfl) a).trans
        (ih trivial a)).andSolid (hSolid hStop rfl)
  | namedBlock hOpen _ ih =>
      exact fun _ a =>
        (Crosses.opening hOpen a rfl).trans (ih trivial a)
  | namedNone hStop =>
      exact fun _ => .solid (hSolid hStop rfl)
  | namedNothing _ => exact fun _ => .refl _
  | noParts _ => exact fun _ => .refl _
  | textPart hText _ ih =>
      exact fun _ a =>
        (Crosses.solid (hSolid hText rfl) a).trans
          (ih trivial a)
  | escapePart hEscape _ _ ih =>
      exact fun _ a =>
        (Crosses.solid (hSolid hEscape rfl) a).trans
          (ih trivial a)
  | embeddedPart hOpen _ hClose _ ihExpr ihMore =>
      intro _ a
      have hExpr :=
        (Crosses.opening hOpen a rfl).trans
          (ihExpr trivial (.template :: a))
      exact (hExpr.andClosing hClose rfl).trans
        (ihMore trivial a)
  | block _ hClose ih =>
      exact fun _ a =>
        .scoped ((ih trivial (.curly :: a)).andClosing
          hClose rfl)
  | noStatements _ => exact fun _ => .refl _
  | someStatements _ _ _ _ ihFirst ihMore =>
      exact fun _ a =>
        (ihFirst trivial a).trans (ihMore trivial a)
  | variableStatement hKeyword _ ih =>
      intro _
      refine ih ?_
      rcases hKeyword with hVal | hVar
      · exact hSolid hVal rfl
      · exact hSolid hVar rfl
  | functionStatement _ _ ih => exact ih
  | endedStatement _ _ _ _ hStop ih =>
      exact fun _ a =>
        (ih trivial a).andSolid (hSolid hStop rfl)
  | openStatement _ _ _ _ _ _ ih => exact ih
  | variableDecl _ hName hType _ hStop _ hDeclares ih =>
      intro hKeyword a
      have hNamed :=
        (Crosses.solid hKeyword a).andSolid
          (isSolid_of_isName hName)
      have hValue :=
        (hNamed.trans (hType.crosses rfl a)).trans (ih rfl a)
      exact (hValue.andSolid (hSolid hStop rfl)).andDeclares
        hDeclares
  | functionDecl hKeyword hName _ _ _ hDeclares ihSignature
      ihBody =>
      intro _ a
      have hNamed :=
        (Crosses.solid (hSolid hKeyword rfl) a).andSolid
          (isSolid_of_isName hName)
      have hInside :=
        (ihSignature trivial a).trans (ihBody trivial a)
      exact (hNamed.trans (.scoped hInside)).andDeclares
        hDeclares

end SourceCheck
