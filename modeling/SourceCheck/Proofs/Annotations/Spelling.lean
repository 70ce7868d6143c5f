import SourceCheck.Proofs.Annotations.Mentions
import SourceCheck.Proofs.Annotations.Texts
import SourceCheck.Proofs.Lexing.Respacing
import SourceCheck.Proofs.Lexing.Rules
import SourceCheck.Proofs.Literals.Escapes

/-
  The tokens of the texts of written types.

  The text of a written type is read as the names in it with
  their joins between them, if the names stand for
  themselves: if they are words that are not reserved.

  Key definitions include:
    * `isPlainName`
    * `codeWords`
    * `ReadsAs`
    * `TypeForm.words`

  Key theorems include:
    * `readsAs_word`
    * `codeWords_symbol`
    * `TypeForm.readsAs_text`
-/

namespace SourceCheck

------------------------------------------------------------
-- Names that stand for themselves
------------------------------------------------------------

/- The text is one word. -/
def isWord (text : String) : Bool :=
  match text.toList with
  | [] => false
  | c :: cs => isWordStart c && cs.all isWordPart

/- The name is a word, and the word is not reserved. -/
def isPlainName (name : String) : Bool :=
  isWord name && (TokenKind.ofWord name).isName

/- A word starts as one and goes on as one. -/
theorem exists_of_isWord
    {text : String}
    (hWord : isWord text = true) :
    ∃ c cs,
      text.toList = c :: cs ∧ isWordStart c = true ∧
        ∀ d ∈ cs, isWordPart d = true := by
  unfold isWord at hWord
  cases hChars : text.toList with
  | nil =>
      rw [hChars] at hWord
      cases hWord
  | cons c cs =>
      rw [hChars] at hWord
      simp only [Bool.and_eq_true, List.all_eq_true] at hWord
      exact ⟨c, cs, rfl, hWord.1, hWord.2⟩

theorem isWord_of_isPlainName
    {name : String}
    (hPlain : isPlainName name = true) :
    isWord name = true :=
  (Bool.and_eq_true_iff.1 hPlain).1

theorem isName_of_isPlainName
    {name : String}
    (hPlain : isPlainName name = true) :
    (TokenKind.ofWord name).isName = true :=
  (Bool.and_eq_true_iff.1 hPlain).2

/- The token of a plain name stands for the name. -/
theorem name_eq_of_plain
    {name : String}
    {t : Token}
    (hWord : t.word = (.ofWord name, name)) :
    t.name = name := by
  have hKind : t.kind = .ofWord name :=
    congrArg Prod.fst hWord
  have hValue : t.value = name := congrArg Prod.snd hWord
  unfold Token.name
  rw [if_neg (hKind ▸ ofWord_ne_escaped name)]
  exact hValue

------------------------------------------------------------
-- Tokens of code
------------------------------------------------------------

/- What the tokens of a text of code are, but their places. -/
def codeWords
    (cs : List Char) :
    List (TokenKind × String) :=
  (Lexer.tokens ⟨Position.first Lexer.unnamed, [], cs⟩).map
    Token.word

/- Blanks are no tokens. -/
theorem codeWords_blank
    {d : Char}
    (hBlank : isGap d = true)
    (cs : List Char) :
    codeWords (d :: cs) = codeWords cs :=
  Lexer.words_tokens_blank (by decide) hBlank cs _ _

/- The end of the text is the last token. -/
theorem codeWords_end :
    codeWords [] = [(.eof, "EOF")] := by
  unfold codeWords
  rw [Lexer.tokens_of_end rfl]
  rfl

/- A lexeme that opens nothing is passed. -/
theorem codeWords_lexeme
    {c : Char}
    {cs post : List Char}
    {kind : TokenKind}
    (hLexeme :
      codeLexeme c (cs ++ post) = .token kind cs.length)
    (hOpens : Enclosure.after kind [] = []) :
    codeWords (c :: (cs ++ post)) =
      (kind, String.ofList (c :: cs)) :: codeWords post := by
  have hMore :
      (lexeme [] c (cs ++ post)).more = cs.length :=
    congrArg Lexeme.more hLexeme
  have hKind :
      (lexeme [] c (cs ++ post)).kind = some kind :=
    congrArg Lexeme.kind hLexeme
  have hTokens :=
    Lexer.tokens_of_token hMore hKind
      (Position.first Lexer.unnamed)
  unfold codeWords
  rw [hTokens, List.map_cons, hOpens]
  exact congrArg _ (Lexer.words_tokens [] post _ _)

/-
  The text is read as these words, before a character that
  goes on no word, whatever follows.
-/
def ReadsAs
    (text : String)
    (ws : List (TokenKind × String)) :
    Prop :=
  ∀ d : Char,
    isWordPart d = false →
      ∀ post : List Char,
        codeWords (text.toList ++ d :: post) =
          ws ++ codeWords (d :: post)

/- A word is passed up to what goes on no word. -/
theorem readsAs_word
    {text : String}
    (hWord : isWord text = true) :
    ReadsAs text [(.ofWord text, text)] := by
  intro d hStop post
  rcases exists_of_isWord hWord with
    ⟨c, cs, hChars, hStart, hParts⟩
  have hText : String.ofList (c :: cs) = text := by
    rw [← hChars, String.ofList_toList]
  have hGap : ¬ isGap c = true := by
    intro hBlank
    rw [(not_isGap hBlank).2.1] at hStart
    cases hStart
  have hSlash : c ≠ '/' := by
    rintro rfl
    revert hStart
    decide
  have hTake :
      (cs ++ d :: post).takeWhile isWordPart = cs := by
    rw [List.takeWhile_append_of_pos hParts,
      List.takeWhile_cons_of_neg (by simp [hStop]),
      List.append_nil]
  have hLexeme :
      codeLexeme c (cs ++ d :: post) =
        .token (.ofWord text) cs.length := by
    unfold codeLexeme wordLexeme
    rw [if_neg hGap, if_neg (by simp [hSlash]),
      if_pos hStart, countWhile_of_stop hParts hStop, hTake,
      hText]
  rw [hChars, List.cons_append,
    codeWords_lexeme hLexeme (Enclosure.after_ofWord text []),
    hText]
  rfl

/- A symbol that begins no longer one is passed. -/
theorem codeWords_symbol
    {c : Char}
    {kind : TokenKind}
    (hSymbol : beginsOther c = false ∧ c ≠ '/')
    (hAlone : ∀ x ∈ doubleSymbols, x.1.1 ≠ c)
    (hSingle : singleSymbols.lookup c = some kind)
    (hOpens : Enclosure.after kind [] = [])
    (post : List Char) :
    codeWords (c :: post) =
      (kind, String.ofList [c]) :: codeWords post := by
  have hDouble :
      post.head?.bind
          (fun d => doubleSymbols.lookup (c, d)) =
        none := by
    refine Option.bind_eq_none_iff.mpr fun d _ => ?_
    refine List.lookup_eq_none_iff.mpr fun x hRow => ?_
    exact bne_iff_ne.mpr fun hSame =>
      hAlone x hRow (congrArg Prod.fst hSame).symm
  have hOther := hSymbol.1
  unfold beginsOther at hOther
  simp only [Bool.or_eq_false_iff, decide_eq_false_iff_not]
    at hOther
  have hLexeme :
      codeLexeme c ([] ++ post) = .token kind 0 := by
    unfold codeLexeme symbol
    rw [List.nil_append, if_neg (by simp [hOther.1.1.1]),
      if_neg (by simp [hSymbol.2]),
      if_neg (by simp [hOther.1.1.2]),
      if_neg (by simp [hOther.1.2]),
      if_neg (by simp [hOther.2]), hDouble, hSingle]
    rfl
  exact codeWords_lexeme hLexeme hOpens

------------------------------------------------------------
-- Texts of written types
------------------------------------------------------------

/- The sign of a join. -/
def TypeJoin.sign : TypeJoin → Char
  | .union => '|'
  | .intersection => '&'

/- The token of a join. -/
def TypeJoin.word : TypeJoin → TokenKind × String
  | .union => (.pipe, "|")
  | .intersection => (.ampersand, "&")

mutual

/- The names and the joins of a form, in order. -/
def TypeForm.words : TypeForm → List (TokenKind × String)
  | .absent => []
  | .named name => [(.ofWord name, name)]
  | .union left right =>
      left.words ++ TypeJoin.union.word :: right.words
  | .intersection left right =>
      left.words ++ TypeJoin.intersection.word :: right.words

/- The names and the joins of a written type, in order. -/
def TypeExpr.words : TypeExpr → List (TokenKind × String)
  | ⟨form, _, _⟩ => form.words

end

/- A join stands between blanks. -/
theorem codeWords_join
    (join : TypeJoin)
    (post : List Char) :
    codeWords (' ' :: join.sign :: ' ' :: post) =
      join.word :: codeWords post := by
  cases join with
  | union =>
      change codeWords (' ' :: '|' :: ' ' :: post) = _
      rw [codeWords_blank (by decide),
        codeWords_symbol (by decide) (by decide) rfl rfl,
        codeWords_blank (by decide)]
      rfl
  | intersection =>
      change codeWords (' ' :: '&' :: ' ' :: post) = _
      rw [codeWords_blank (by decide),
        codeWords_symbol (by decide) (by decide) rfl rfl,
        codeWords_blank (by decide)]
      rfl

/- A join between two texts is read between their words. -/
theorem ReadsAs.joined
    {a b text : String}
    {vs ws : List (TokenKind × String)}
    (join : TypeJoin)
    (hText :
      text.toList =
        (a.toList ++ [' ']) ++
          join.sign :: ' ' :: b.toList)
    (hLeft : ReadsAs a vs)
    (hRight : ReadsAs b ws) :
    ReadsAs text (vs ++ join.word :: ws) := by
  intro d hStop post
  rw [hText]
  simp only [List.append_assoc, List.cons_append,
    List.nil_append]
  rw [hLeft ' ' (by decide), codeWords_join,
    hRight d hStop]

/- All names in a written type are plain. -/
def PlainMentions (ms : List Mention) : Prop :=
  ∀ m ∈ ms, isPlainName m.name = true

mutual

/- The text of a form is read as its names and its joins. -/
theorem TypeForm.readsAs_text (p : Position) :
    ∀ f : TypeForm,
      f.IsReadable →
        PlainMentions (f.mentions p) →
          ReadsAs f.text f.words
  | .absent, hReadable, _ => hReadable.elim
  | .named _, _, hPlain =>
      readsAs_word
        (isWord_of_isPlainName
          (hPlain _ (List.mem_singleton_self _)))
  | .union left right, hReadable, hPlain => by
      rcases List.forall_mem_append.mp hPlain with
        ⟨hFirst, hSecond⟩
      exact .joined .union (toList_joined toList_bar _ _)
        (TypeExpr.readsAs_text left hReadable.1.1 hFirst)
        (TypeExpr.readsAs_text right hReadable.1.2 hSecond)
  | .intersection left right, hReadable, hPlain => by
      rcases List.forall_mem_append.mp hPlain with
        ⟨hFirst, hSecond⟩
      exact .joined .intersection
        (toList_joined toList_ampersand _ _)
        (TypeExpr.readsAs_text left hReadable.1.1 hFirst)
        (TypeExpr.readsAs_text right hReadable.1.2 hSecond)
termination_by structural f => f

theorem TypeExpr.readsAs_text :
    ∀ t : TypeExpr,
      t.IsReadable →
        PlainMentions t.mentions → ReadsAs t.text t.words
  | ⟨form, span, _⟩, hReadable, hPlain =>
      TypeForm.readsAs_text span.start form hReadable hPlain
termination_by structural t => t

end

end SourceCheck
