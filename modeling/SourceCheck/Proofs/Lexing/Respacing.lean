import SourceCheck.Proofs.Lexing.Appending
import SourceCheck.Proofs.Lexing.Division
import SourceCheck.Proofs.Lexing.Rules

/-
  Texts that are spaced anew.

  The tokens of a text are enough to write a text with the
  same tokens: one blank stands between two tokens, unless
  the first of them leaves a string open innermost.  In code
  a blank ends every token but those that no longer text
  could change.  In a string nothing may be put between two
  tokens, and what a token of it is depends on no more than
  the text up to the next quote or backslash.

  Key definitions include:
    * `textView`
    * `respaced`

  Key theorems include:
    * `textLexeme_textView`
    * `lexeme_of_tail`
    * `Lexer.respaces`
    * `words_tokenize_respaced`
-/

namespace SourceCheck

------------------------------------------------------------
-- What is seen of a string
------------------------------------------------------------

/-
  The text up to the next quote or backslash, and that
  character.
-/
def textView (cs : List Char) : List Char :=
  cs.takeWhile isContentPart ++
    (cs.dropWhile isContentPart).take 1

theorem textView_cons (c : Char) (cs : List Char) :
    textView (c :: cs) =
      c :: if isContentPart c then textView cs else [] := by
  unfold textView
  rw [List.takeWhile_cons, List.dropWhile_cons]
  split <;> rfl

/- Texts that look alike do so behind any other text. -/
theorem textView_append
    {cs ds : List Char}
    (hSame : textView cs = textView ds)
    (front : List Char) :
    textView (front ++ cs) = textView (front ++ ds) := by
  induction front with
  | nil => exact hSame
  | cons c front ih =>
      rw [List.cons_append, List.cons_append, textView_cons,
        textView_cons, ih]

/- What is seen is the start of the text. -/
theorem exists_textView (cs : List Char) :
    ∃ post, cs = textView cs ++ post := by
  refine ⟨(cs.dropWhile isContentPart).drop 1, ?_⟩
  unfold textView
  rw [List.append_assoc, List.take_append_drop,
    List.takeWhile_append_dropWhile]

/- The text of a string is ended by a break. -/
theorem mem_breaks_of_dropWhile
    {d : Char}
    {cs post : List Char}
    (hDrop : cs.dropWhile isContentPart = d :: post) :
    d = '"' ∨ d = '\\' := by
  have hEnd := List.head?_dropWhile_not isContentPart cs
  rw [hDrop] at hEnd
  simp only [List.head?_cons, isContentPart,
    Bool.and_eq_false_iff, bne_eq_false_iff_eq] at hEnd
  exact hEnd.symm

/- A backslash begins nothing longer than what is seen. -/
theorem more_backslashLexeme_view (cs : List Char) :
    (backslashLexeme cs).more ≤ (textView cs).length := by
  have hParts :
      cs.takeWhile isContentPart ++
          cs.dropWhile isContentPart = cs :=
    List.takeWhile_append_dropWhile
  unfold textView
  cases hDrop : cs.dropWhile isContentPart with
  | nil =>
      rw [hDrop, List.append_nil] at hParts
      rw [hParts, List.take_nil, List.append_nil]
      exact more_backslashLexeme_le cs
  | cons d post =>
      rw [hDrop] at hParts
      have hQuote := mem_breaks_of_dropWhile hDrop
      have hBreak : d ∈ breaks := by
        rcases hQuote with rfl | rfl <;> decide
      cases hRun : cs.takeWhile isContentPart with
      | nil =>
          rw [hRun] at hParts
          rw [← hParts]
          rcases hQuote with rfl | rfl <;> exact Nat.le_refl 1
      | cons e run =>
          rw [hRun] at hParts
          have hShort :=
            more_backslashLexeme_break hBreak e run post
          rw [hParts] at hShort
          rw [List.length_append, List.length_cons]
          exact Nat.le_trans hShort (Nat.le_add_right _ _)

/- A lexeme of a string depends on what is seen only. -/
theorem textLexeme_textView (c : Char) (cs : List Char) :
    textLexeme c (textView cs) = textLexeme c cs := by
  obtain ⟨post, hText⟩ := exists_textView cs
  have hShort :
      (textLexeme c cs).more ≤ (textView cs).length := by
    unfold textLexeme
    split
    · exact Nat.zero_le _
    split
    · exact more_backslashLexeme_view cs
    · unfold textView
      rw [List.length_append]
      exact Nat.le_add_right _ _
  have hOwn :
      (textLexeme c (textView cs ++ post)).more ≤
        (textView cs).length := by
    rw [← hText]
    exact hShort
  rw [textLexeme_cut hOwn, ← hText]

/-
  A lexeme of a string stays if what follows it is another
  text that looks alike.  If it leaves the string, then any
  text may follow it.
-/
theorem textLexeme_respaced
    {c : Char}
    {cs post tail : List Char}
    {kind : TokenKind}
    {es : List Enclosure}
    (hMore : (textLexeme c (cs ++ post)).more = cs.length)
    (hKind : (textLexeme c (cs ++ post)).kind = some kind)
    (hText :
      Mode.ofEnclosures (Enclosure.after kind (.text :: es)) =
          .text →
        textView tail = textView post) :
    textLexeme c (cs ++ tail) = textLexeme c (cs ++ post) := by
  have hView
      (hInside :
        kind = .stringContent ∨ kind = .escapeSequence ∨
          kind = .unexpectedCharacter) :
      textLexeme c (cs ++ tail) =
        textLexeme c (cs ++ post) := by
    have hSame : textView tail = textView post := by
      apply hText
      rcases hInside with rfl | rfl | rfl <;> rfl
    rw [← textLexeme_textView, textView_append hSame,
      textLexeme_textView]
  by_cases hQuote : c = '"'
  · unfold textLexeme
    rw [if_pos hQuote, if_pos hQuote]
  by_cases hSlash : c = '\\'
  · subst hSlash
    have hBackslash (ds : List Char) :
        textLexeme '\\' ds = backslashLexeme ds :=
      rfl
    rw [hBackslash] at hMore hKind
    rcases backslashLexeme_cases (cs ++ post) with
      ⟨hHead, hLexeme⟩ | ⟨-, ⟨more, hLexeme⟩ | hLexeme⟩
    · -- The brace of the template is the whole lexeme.
      rw [hLexeme] at hMore
      obtain ⟨d, rfl⟩ := List.length_eq_one_iff.1 hMore.symm
      cases Option.some.inj hHead
      rfl
    · rw [hLexeme] at hKind
      cases hKind
      exact hView (.inr (.inl rfl))
    · rw [hLexeme] at hKind
      cases hKind
      exact hView (.inr (.inr rfl))
  · unfold textLexeme at hKind
    rw [if_neg hQuote, if_neg hSlash] at hKind
    cases hKind
    exact hView (.inl rfl)

/- A character of a string that stands for itself is text. -/
theorem kind_of_isContentPart
    {es : List Enclosure}
    {c : Char}
    (hMode : Mode.ofEnclosures es = .text)
    (hContent : isContentPart c)
    (cs : List Char) :
    (lexeme es c cs).kind = some .stringContent := by
  have hOther : c ≠ '\\' ∧ c ≠ '"' := by
    simpa [isContentPart] using hContent
  cases es with
  | nil => cases hMode
  | cons e es =>
      cases e with
      | template _ => cases hMode
      | text =>
          change (textLexeme c cs).kind = _
          unfold textLexeme
          rw [if_neg hOther.2, if_neg hOther.1]
          rfl

/-
  What is seen of a string from a token on stays if what
  follows the token looks alike.
-/
theorem textView_of_tail
    {es : List Enclosure}
    {c : Char}
    {cs post tail : List Char}
    {kind : TokenKind}
    (hMode : Mode.ofEnclosures es = .text)
    (hKind : (lexeme es c (cs ++ post)).kind = some kind)
    (hText :
      Mode.ofEnclosures (Enclosure.after kind es) = .text →
        textView tail = textView post) :
    textView (c :: (cs ++ tail)) =
      textView (c :: (cs ++ post)) := by
  by_cases hContent : isContentPart c
  · -- The text goes on behind the token.
    rw [kind_of_isContentPart hMode hContent] at hKind
    cases hKind
    have hInside :
        Enclosure.after .stringContent es = es := by
      cases es <;> rfl
    have hSight := hText (by rw [hInside, hMode])
    exact textView_append hSight (c :: cs)
  · rw [textView_cons, textView_cons, if_neg hContent,
      if_neg hContent]

------------------------------------------------------------
-- What is seen of code
------------------------------------------------------------

theorem codeLexeme_quote (cs : List Char) :
    codeLexeme '"' cs = .token .stringStart 0 := by
  cases cs <;> rfl

/- No other symbol of code opens a string. -/
theorem eq_quote_of_symbol
    {c : Char}
    {cs : List Char}
    (hKind : (symbol c cs).kind = some .stringStart) :
    c = '"' := by
  have hDouble :
      ∀ x ∈ doubleSymbols, x.2 ≠ .stringStart := by
    decide
  have hSingle :
      ∀ x ∈ singleSymbols,
        x.2 = .stringStart → x.1 = '"' := by
    decide
  rcases symbol_cases hKind with
    hNone | hRow | ⟨d, -, hRow⟩
  · cases hNone
  · exact hSingle _ hRow rfl
  · exact absurd rfl (hDouble _ hRow)

theorem eq_quote_of_codeLexeme
    {c : Char}
    {cs : List Char}
    (hKind : (codeLexeme c cs).kind = some .stringStart) :
    c = '"' := by
  have hWords (word : String) :
      TokenKind.ofWord word ≠ .stringStart := by
    unfold TokenKind.ofWord
    split <;> exact nofun
  rcases codeLexeme_cases c cs with
    hGap | ⟨word, hWord⟩ | hInt | hEscaped | hSymbol
  · rw [hGap] at hKind
    cases hKind
  · rw [hWord] at hKind
    exact absurd (Option.some.inj hKind) (hWords word)
  · rw [hInt] at hKind
    cases hKind
  · rw [hEscaped] at hKind
    cases hKind
  · rw [hSymbol] at hKind
    exact eq_quote_of_symbol hKind

/- A token of code stays if a blank follows it, or nothing. -/
theorem codeLexeme_respaced
    {c : Char}
    {cs post tail : List Char}
    {kind : TokenKind}
    (hMore : (codeLexeme c (cs ++ post)).more = cs.length)
    (hKind : (codeLexeme c (cs ++ post)).kind = some kind)
    (hTail : tail = [] ∨ tail.head? = some ' ') :
    codeLexeme c (cs ++ tail) = codeLexeme c (cs ++ post) := by
  have hCut := codeLexeme_cut (Nat.le_of_eq hMore)
  rw [← hCut] at hKind ⊢
  rcases hTail with rfl | hBlank
  · rw [List.append_nil]
  obtain ⟨tail, rfl⟩ := List.head?_eq_some_iff.1 hBlank
  have hGap : isGap c = false := by
    refine eq_false_of_ne_true fun hGap => ?_
    unfold codeLexeme at hKind
    rw [if_pos hGap] at hKind
    cases hKind
  have hComment :
      c = '/' → cs.head? = some '/' → ' ' = '\n' := by
    -- A second slash would make the token a comment.
    rintro rfl hSlash
    unfold codeLexeme at hKind
    rw [if_neg nofun, hSlash, if_pos (by decide)] at hKind
    cases hKind
  have hShort :
      (codeLexeme c (cs ++ ' ' :: tail)).more ≤ cs.length :=
    more_codeLexeme_break hGap (by decide) hComment
  exact (codeLexeme_cut hShort).symm

/- Only a quote opens a string, and only braces close code. -/
theorem Enclosure.after_ne_text
    {kind : TokenKind}
    {es : List Enclosure}
    (hMode : Mode.ofEnclosures es ≠ .text)
    (hForeign : kind.isForeign = false)
    (hEnd : kind ≠ .stringTemplateEnd)
    (hStart : kind ≠ .stringStart) :
    Mode.ofEnclosures (after kind es) ≠ .text := by
  unfold after
  split
  · exact absurd rfl hStart
  · exact nofun
  · cases hForeign
  · exact absurd rfl hEnd
  · exact nofun
  · exact nofun
  · exact nofun
  · exact hMode

/-
  A token stays if what follows it looks alike in a string,
  and changes no token of code outside of strings.
-/
theorem lexeme_of_tail
    {c : Char}
    {cs post tail : List Char}
    {kind : TokenKind}
    {es : List Enclosure}
    (hMore : (lexeme es c (cs ++ post)).more = cs.length)
    (hKind : (lexeme es c (cs ++ post)).kind = some kind)
    (hText :
      Mode.ofEnclosures (Enclosure.after kind es) = .text →
        textView tail = textView post)
    (hCode :
      Mode.ofEnclosures (Enclosure.after kind es) ≠ .text →
        (codeLexeme c (cs ++ post)).more = cs.length →
          (codeLexeme c (cs ++ post)).kind = some kind →
            codeLexeme c (cs ++ tail) =
              codeLexeme c (cs ++ post)) :
    lexeme es c (cs ++ tail) = lexeme es c (cs ++ post) := by
  have hInCode
      (hMode : Mode.ofEnclosures es ≠ .text)
      (hMore : (codeLexeme c (cs ++ post)).more = cs.length)
      (hKind : (codeLexeme c (cs ++ post)).kind = some kind) :
      codeLexeme c (cs ++ tail) =
        codeLexeme c (cs ++ post) := by
    by_cases hQuote : c = '"'
    · rw [hQuote, codeLexeme_quote, codeLexeme_quote]
    have hOpens : kind ≠ .stringStart := by
      rintro rfl
      exact hQuote (eq_quote_of_codeLexeme hKind)
    obtain ⟨hForeign, hEnd, -⟩ := isForeign_codeLexeme hKind
    exact hCode
      (Enclosure.after_ne_text hMode hForeign hEnd hOpens)
      hMore hKind
  match es with
  | [] => exact hInCode nofun hMore hKind
  | .template (_ + 1) :: _ => exact hInCode nofun hMore hKind
  | .template 0 :: es =>
      by_cases hBrace : c = '\x7d'
      · subst hBrace
        rfl
      · have hSame (ds : List Char) :
            lexeme (.template 0 :: es) c ds =
              codeLexeme c ds :=
          if_neg hBrace
        rw [hSame] at hMore hKind
        rw [hSame, hSame]
        exact hInCode nofun hMore hKind
  | .text :: _ => exact textLexeme_respaced hMore hKind hText

------------------------------------------------------------
-- Texts that are spaced anew
------------------------------------------------------------

/- A blank, unless a string is open innermost. -/
def spaceIn (es : List Enclosure) : List Char :=
  if Mode.ofEnclosures es = .text then [] else [' ']

/-
  The texts of tokens one after the other, with a blank
  between two of them unless the first one leaves a string
  open innermost.
-/
def respaced : List Enclosure → List Token → List Char
  | _, [] => []
  | _, [t] => t.value.toList
  | es, t :: u :: ts =>
      t.value.toList ++ spaceIn (Enclosure.after t.kind es) ++
        respaced (Enclosure.after t.kind es) (u :: ts)

/- What follows the first token in a text that is spaced anew. -/
def respacedTail
    (es : List Enclosure)
    (ts : List Token) :
    List Char :=
  if ts = [] then [] else spaceIn es ++ respaced es ts

theorem respaced_cons
    (es : List Enclosure)
    (t : Token)
    (ts : List Token) :
    respaced es (t :: ts) =
      t.value.toList ++
        respacedTail (Enclosure.after t.kind es) ts := by
  cases ts with
  | nil => exact (List.append_nil _).symm
  | cons u ts =>
      rw [respaced, respacedTail, if_neg nofun,
        List.append_assoc]

/- In a string the tail is all that is left. -/
theorem respacedTail_of_text
    {es : List Enclosure}
    (hMode : Mode.ofEnclosures es = .text)
    (ts : List Token) :
    respacedTail es ts = respaced es ts := by
  unfold respacedTail spaceIn
  rw [if_pos hMode, List.nil_append]
  split
  · rename_i hNone
    rw [hNone, respaced]
  · rfl

/- Outside of a string it is nothing or begins with a blank. -/
theorem respacedTail_of_code
    {es : List Enclosure}
    (hMode : Mode.ofEnclosures es ≠ .text)
    (ts : List Token) :
    ts = [] ∧ respacedTail es ts = [] ∨
      respacedTail es ts = ' ' :: respaced es ts := by
  unfold respacedTail spaceIn
  rw [if_neg hMode]
  split
  · rename_i hNone
    exact .inl ⟨hNone, rfl⟩
  · exact .inr rfl

namespace Lexer

/- The tail says what the rest of the tokens says. -/
theorem words_tokens_respacedTail
    (es : List Enclosure)
    (ts : List Token)
    (p q : Position) :
    (tokens ⟨p, es, respacedTail es ts⟩).map Token.word =
      (tokens ⟨q, es, respaced es ts⟩).map Token.word := by
  by_cases hMode : Mode.ofEnclosures es = .text
  · rw [respacedTail_of_text hMode]
    exact words_tokens es _ p q
  · rcases respacedTail_of_code hMode ts with
      ⟨rfl, hNone⟩ | hBlank
    · rw [hNone]
      exact words_tokens es [] p q
    · rw [hBlank]
      exact words_tokens_blank hMode rfl _ p q

/- A gap is passed, and nothing is opened or closed by it. -/
theorem tokens_of_gap
    {l : Lexer}
    {c : Char}
    {cs : List Char}
    (hRest : l.rest = c :: cs)
    (hGap : (lexeme l.enclosures c cs).kind = none) :
    ∃ l' : Lexer,
      l.tokens = l'.tokens ∧ l'.enclosures = l.enclosures ∧
        l'.rest.length < l.rest.length := by
  refine ⟨l.pass (lexeme l.enclosures c cs), ?_, ?_, ?_⟩
  · rw [tokens_of_cons hRest]
    unfold made
    rw [hGap]
    rfl
  · unfold pass
    rw [hGap]
    rfl
  · unfold pass
    rw [hRest, List.length_drop, List.length_cons]
    omega

/- A lexeme that is a token says its text, and is passed. -/
theorem tokens_of_token
    {es : List Enclosure}
    {c : Char}
    {cs post : List Char}
    {kind : TokenKind}
    (hMore : (lexeme es c (cs ++ post)).more = cs.length)
    (hKind : (lexeme es c (cs ++ post)).kind = some kind)
    (p : Position) :
    tokens ⟨p, es, c :: (cs ++ post)⟩ =
      ⟨kind, String.ofList (c :: cs),
          ⟨p, p.afterAll (c :: cs)⟩⟩ ::
        tokens ⟨p.afterAll (c :: cs),
          Enclosure.after kind es, post⟩ := by
  rw [tokens_of_cons (l := ⟨p, es, c :: (cs ++ post)⟩) rfl]
  unfold made pass word
  dsimp only
  rw [hKind, hMore, List.take_succ_cons, List.take_left,
    List.drop_succ_cons, List.drop_left]
  rfl

/- A token that is not the end stands before the others. -/
theorem exists_later_tokens
    {l : Lexer}
    {t last : Token}
    {ts : List Token}
    (hTokens : t :: l.tokens = ts ++ [last]) :
    ∃ us, ts = t :: us ∧ l.tokens = us ++ [last] := by
  obtain ⟨us, l', -, -, hAll⟩ := exists_reads_end l
  rw [hAll, ← List.cons_append] at hTokens
  obtain ⟨rfl, hLast⟩ := List.append_inj' hTokens rfl
  exact ⟨us, rfl, hAll.trans (congrArg (us ++ ·) hLast)⟩

/-
  Tokens that, spaced anew, say what the lexer reads, and
  look like the text that it reads in a string.
-/
structure Respaces (l : Lexer) (ts : List Token) : Prop where
  words :
    ∀ p,
      (tokens ⟨p, l.enclosures,
          respaced l.enclosures ts⟩).map Token.word =
        l.tokens.map Token.word
  view :
    Mode.ofEnclosures l.enclosures = .text →
      textView (respaced l.enclosures ts) = textView l.rest

/-
  A token stays in front of tokens that are spaced anew.
-/
theorem Respaces.cons
    {p₀ : Position}
    {es : List Enclosure}
    {c : Char}
    {cs post : List Char}
    {kind : TokenKind}
    {us : List Token}
    (hMore : (lexeme es c (cs ++ post)).more = cs.length)
    (hKind : (lexeme es c (cs ++ post)).kind = some kind)
    (span : Span)
    (hLater :
      Respaces
        ⟨p₀.afterAll (c :: cs), Enclosure.after kind es, post⟩
        us) :
    Respaces ⟨p₀, es, c :: (cs ++ post)⟩
      (⟨kind, String.ofList (c :: cs), span⟩ :: us) := by
  have hText
      (hMode :
        Mode.ofEnclosures (Enclosure.after kind es) = .text) :
      textView
          (respacedTail (Enclosure.after kind es) us) =
        textView post := by
    rw [respacedTail_of_text hMode]
    exact hLater.view hMode
  have hTail
      (hMode :
        Mode.ofEnclosures (Enclosure.after kind es) ≠
          .text) :
      respacedTail (Enclosure.after kind es) us = [] ∨
        (respacedTail (Enclosure.after kind es) us).head? =
          some ' ' := by
    rcases respacedTail_of_code hMode us with
      ⟨-, hNone⟩ | hBlank
    · exact .inl hNone
    · rw [hBlank]
      exact .inr rfl
  have hSame :=
    lexeme_of_tail hMore hKind hText
      fun hMode hMore hKind =>
        codeLexeme_respaced hMore hKind (hTail hMode)
  constructor
  · intro p
    rw [← hSame] at hMore hKind
    rw [respaced_cons, String.toList_ofList, List.cons_append,
      tokens_of_token hMore hKind]
    rw [hSame] at hMore hKind
    rw [tokens_of_token hMore hKind, List.map_cons,
      List.map_cons, words_tokens_respacedTail _ _ _ p₀,
      hLater.words]
    rfl
  · intro hMode
    rw [respaced_cons, String.toList_ofList]
    exact textView_of_tail hMode hKind hText

/- A text begins with what its first lexeme takes. -/
theorem exists_split_lexeme
    (es : List Enclosure)
    (c : Char)
    (cs : List Char) :
    ∃ text post,
      cs = text ++ post ∧
        (lexeme es c (text ++ post)).more = text.length := by
  have hParts := List.take_append_drop (lexeme es c cs).more cs
  refine ⟨_, _, hParts.symm, ?_⟩
  rw [hParts, List.length_take_of_le (more_lexeme_le es c cs)]

/-
  The tokens of a text can be spaced anew.  The induction is
  on the text; a token keeps its lexeme because of what the
  rest of the tokens looks like.
-/
theorem respaces
    {l : Lexer}
    {ts : List Token}
    {last : Token}
    (hTokens : l.tokens = ts ++ [last]) :
    l.Respaces ts := by
  induction hLength : l.rest.length using Nat.strongRecOn
    generalizing l ts with
  | ind n ih =>
      subst hLength
      cases hRest : l.rest with
      | nil =>
          rw [tokens_of_end hRest] at hTokens
          have hLength := congrArg List.length hTokens
          rw [List.length_append] at hLength
          obtain rfl : ts = [] :=
            List.eq_nil_of_length_eq_zero
              (Nat.succ.inj hLength.symm)
          refine ⟨fun p => ?_, fun _ => ?_⟩
          · rw [respaced, tokens_of_end rfl,
              tokens_of_end hRest]
            rfl
          · rw [respaced, hRest]
      | cons c cs =>
          cases hKind : (lexeme l.enclosures c cs).kind with
          | none =>
              have hMode := (lexeme_of_gap hKind).1
              obtain ⟨l', hSame, hEnclosures, hLess⟩ :=
                tokens_of_gap hRest hKind
              have hLater := ih _ hLess (hSame ▸ hTokens) rfl
              constructor
              · rw [hSame, ← hEnclosures]
                exact hLater.words
              · exact fun hText => absurd hText hMode
          | some kind =>
              obtain ⟨p₀, es, rest⟩ := l
              cases hRest
              dsimp only at hKind ih
              obtain ⟨text, post, rfl, hCount⟩ :=
                exists_split_lexeme es c cs
              rw [tokens_of_token hCount hKind] at hTokens
              obtain ⟨us, rfl, hRest⟩ :=
                exists_later_tokens hTokens
              refine Respaces.cons hCount hKind _
                (ih _ ?_ hRest rfl)
              dsimp only
              rw [List.length_cons, List.length_append]
              omega

end Lexer

/-
  The tokens of a source text without its end, spaced anew,
  are a text with the same tokens.
-/
theorem words_tokenize_respaced
    (source : String)
    (file? other? : Option String) :
    (tokenize
        (String.ofList
          (respaced []
            ((tokenize source file?).filter
              (·.kind ≠ .eof))))
        other?).map Token.word =
      (tokenize source file?).map Token.word := by
  obtain ⟨ts, l, hReads, -, hTokens⟩ :=
    Lexer.exists_reads_end (.start source file?)
  have hSolid :
      (tokenize source file?).filter (·.kind ≠ .eof) = ts := by
    unfold tokenize
    rw [hTokens, List.filter_append]
    have hKeep : ts.filter (·.kind ≠ .eof) = ts := by
      refine List.filter_eq_self.2 fun t hMem => ?_
      exact decide_eq_true (hReads.kind_ne_eof hMem)
    rw [hKeep]
    exact List.append_nil ts
  rw [hSolid]
  unfold tokenize Lexer.start
  rw [String.toList_ofList]
  exact (Lexer.respaces hTokens).words _

end SourceCheck
