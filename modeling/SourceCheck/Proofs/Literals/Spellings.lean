import Mathlib
import SourceCheck.Proofs.Lexing.Respacing
import SourceCheck.Proofs.Literals.Escapes

/-
  Ways to write strings.

  A character of a string may be written in many ways: as
  itself, by a letter behind a backslash, or by its code
  point.  However all characters are written, the lexer makes
  tokens of them that stand for these characters.

  Key definitions include:
    * `Spelling`
    * `Token.decoded?`
    * `Spells`
    * `IsSpelled`

  Key theorems include:
    * `Spelling.exists_body`
    * `IsSpelled.all`
    * `exists_tokenize_spelled`
-/

namespace SourceCheck

------------------------------------------------------------
-- Spellings
------------------------------------------------------------

/- A way to write a character in a string. -/
inductive Spelling where
  | verbatim
      (c : Char)
      (isPlain : c ≠ '"' ∧ c ≠ '\\')
  | letter
      (name c : Char)
      (isLetter : (name, c) ∈ letterEscapes)
  | four
      (c : Char)
      (digits : List Char)
      (areFour : digits.length = 4)
      (areDigits : ∀ d ∈ digits, isHexDigit d)
      (isCode : numberOf 16 digits = c.toNat)
  | braced
      (c : Char)
      (digits : List Char)
      (isSome : digits ≠ [])
      (areDigits : ∀ d ∈ digits, isHexDigit d)
      (isCode : numberOf 16 digits = c.toNat)

namespace Spelling

/- The character that is written. -/
def char : Spelling → Char
  | verbatim c _ => c
  | letter _ c _ => c
  | four c _ _ _ _ => c
  | braced c _ _ _ _ => c

/- What is written for the character. -/
def text : Spelling → List Char
  | verbatim c _ => [c]
  | letter name _ _ => ['\\', name]
  | four _ digits _ _ _ => '\\' :: 'u' :: digits
  | braced _ digits _ _ _ =>
      '\\' :: 'u' :: '\x7b' :: (digits ++ ['\x7d'])

/- The character stands for itself. -/
def isVerbatim : Spelling → Bool
  | verbatim _ _ => true
  | _ => false

theorem text_of_isVerbatim
    {x : Spelling}
    (hVerbatim : x.isVerbatim) :
    x.text = [x.char] ∧ isContentPart x.char := by
  cases x with
  | verbatim c isPlain =>
      refine ⟨rfl, ?_⟩
      simpa [isContentPart, char, and_comm] using isPlain
  | letter _ _ _ => cases hVerbatim
  | four _ _ _ _ _ => cases hVerbatim
  | braced _ _ _ _ _ => cases hVerbatim

theorem unescape?_of_code
    {code digits : List Char}
    {c : Char}
    (hCode : unbraced code = digits)
    (hSome : digits ≠ [])
    (hDigits : ∀ d ∈ digits, isHexDigit d)
    (hNumber : numberOf 16 digits = c.toNat) :
    unescape? (String.ofList ('\\' :: 'u' :: code)) =
      some c := by
  have hSign (ds : List Char) : digits ≠ '+' :: ds := by
    apply ne_sign_of_word
    exact fun d hMem =>
      isWordPart_of_isHexDigit d (hDigits d hMem)
  rw [unescape?_code, hCode, codePoint?_eq_some_iff hSign]
  exact ⟨hSome, hDigits, hNumber⟩

/- Every other spelling is an escape for its character. -/
theorem exists_body
    {x : Spelling}
    (hEscape : x.isVerbatim = false) :
    ∃ body,
      x.text = '\\' :: body ∧
        EscapeBody body ∧
          unescape? (String.ofList ('\\' :: body)) =
            some x.char := by
  cases x with
  | verbatim c isPlain => cases hEscape
  | letter name c isLetter =>
      exact ⟨_, rfl, .letter isLetter,
        unescape?_letter isLetter⟩
  | four c digits areFour areDigits isCode =>
      refine ⟨_, rfl, .four areFour areDigits, ?_⟩
      refine unescape?_of_code
        (unbraced_of_digits areDigits) ?_ areDigits isCode
      rintro rfl
      cases areFour
  | braced c digits isSome areDigits isCode =>
      refine ⟨_, rfl, .braced ?_, ?_⟩
      · exact fun d hMem =>
          isWordPart_of_isHexDigit d (areDigits d hMem)
      · exact unescape?_of_code (unbraced_braces digits)
          isSome areDigits isCode

end Spelling

------------------------------------------------------------
-- Tokens of spellings
------------------------------------------------------------

/- The characters that a token of a string stands for. -/
def Token.decoded? (t : Token) : Option (List Char) :=
  match t.kind with
  | .stringContent => some t.value.toList
  | .escapeSequence => (unescape? t.value).map ([·])
  | _ => none

theorem Token.decoded?_content
    (cs : List Char)
    (span : Span) :
    Token.decoded?
        ⟨.stringContent, String.ofList cs, span⟩ =
      some cs :=
  congrArg some String.toList_ofList

theorem Token.decoded?_escape
    {value : String}
    {c : Char}
    (hChar : unescape? value = some c)
    {span : Span} :
    Token.decoded? ⟨.escapeSequence, value, span⟩ =
      some [c] :=
  congrArg (Option.map ([·])) hChar

/- Tokens stand for characters. -/
inductive Spells : List Token → List Char → Prop where
  | nil : Spells [] []
  | cons {t ts cs ds}
      (hFirst : t.decoded? = some cs)
      (hRest : Spells ts ds) :
      Spells (t :: ts) (cs ++ ds)

/- Tokens stand for characters if each of them does. -/
theorem exists_spells
    {ts : List Token}
    (hAll : ∀ t ∈ ts, t.decoded?.isSome) :
    ∃ cs, Spells ts cs := by
  induction ts with
  | nil => exact ⟨[], .nil⟩
  | cons t ts ih =>
      rcases List.forall_mem_cons.mp hAll with
        ⟨hFirst, hRest⟩
      rcases Option.isSome_iff_exists.mp hFirst with
        ⟨cs, hDecoded⟩
      rcases ih hRest with ⟨ds, hSpells⟩
      exact ⟨cs ++ ds, .cons hDecoded hSpells⟩

theorem Spells.isSome_decoded?
    {ts : List Token}
    {cs : List Char}
    (hSpells : Spells ts cs) :
    ∀ t ∈ ts, t.decoded?.isSome := by
  induction hSpells with
  | nil => exact nofun
  | cons hFirst _ ih =>
      rw [List.forall_mem_cons]
      constructor
      · rw [hFirst]
        rfl
      · exact ih

/- No content follows what stands for itself. -/
theorem exists_stop
    {xs : List Spelling}
    (hEscape : ∀ x ∈ xs.head?, x.isVerbatim = false)
    (post : List Char) :
    ∃ d ds,
      xs.flatMap Spelling.text ++ '"' :: post = d :: ds ∧
        isContentPart d = false := by
  cases xs with
  | nil => exact ⟨'"', post, rfl, rfl⟩
  | cons x xs =>
      rcases Spelling.exists_body (hEscape x rfl) with
        ⟨body, hText, -, -⟩
      refine ⟨'\\', body ++
        (xs.flatMap Spelling.text ++ '"' :: post), ?_, rfl⟩
      rw [List.flatMap_cons, hText, List.append_assoc]
      rfl

/- What stands for itself is written as it is. -/
theorem flatMap_text_of_isVerbatim
    {xs : List Spelling}
    (hVerbatim : ∀ x ∈ xs, x.isVerbatim) :
    xs.flatMap Spelling.text = xs.map Spelling.char ∧
      ∀ c ∈ xs.map Spelling.char, isContentPart c := by
  induction xs with
  | nil => exact ⟨rfl, nofun⟩
  | cons x xs ih =>
      rcases List.forall_mem_cons.mp hVerbatim with
        ⟨hFirst, hRest⟩
      rcases Spelling.text_of_isVerbatim hFirst with
        ⟨hText, hContent⟩
      rcases ih hRest with ⟨hTexts, hContents⟩
      constructor
      · rw [List.flatMap_cons, hText, hTexts]
        rfl
      · rw [List.map_cons, List.forall_mem_cons]
        exact ⟨hContent, hContents⟩

/- Content is one token, up to what is no content. -/
theorem tokens_content
    {c d : Char}
    {cs : List Char}
    (hContent : ∀ e ∈ c :: cs, isContentPart e)
    (hStop : isContentPart d = false)
    (ds : List Char)
    (es : List Enclosure)
    (p : Position) :
    Lexer.tokens ⟨p, .text :: es, c :: (cs ++ d :: ds)⟩ =
      ⟨.stringContent, String.ofList (c :: cs),
          ⟨p, p.afterAll (c :: cs)⟩⟩ ::
        Lexer.tokens
          ⟨p.afterAll (c :: cs), .text :: es, d :: ds⟩ := by
  rcases List.forall_mem_cons.mp hContent with
    ⟨hFirst, hRest⟩
  have hPlain : c ≠ '\\' ∧ c ≠ '"' := by
    simpa [isContentPart] using hFirst
  have hLexeme :
      lexeme (.text :: es) c (cs ++ d :: ds) =
        .token .stringContent cs.length := by
    change textLexeme c (cs ++ d :: ds) = _
    unfold textLexeme
    rw [if_neg hPlain.2, if_neg hPlain.1,
      countWhile_of_stop hRest hStop]
  have hMore := congrArg Lexeme.more hLexeme
  have hKind := congrArg Lexeme.kind hLexeme
  exact Lexer.tokens_of_token hMore hKind p

/- So is an escape. -/
theorem tokens_escape
    {body : List Char}
    (hBody : EscapeBody body)
    (rest : List Char)
    (es : List Enclosure)
    (p : Position) :
    Lexer.tokens ⟨p, .text :: es, '\\' :: (body ++ rest)⟩ =
      ⟨.escapeSequence, String.ofList ('\\' :: body),
          ⟨p, p.afterAll ('\\' :: body)⟩⟩ ::
        Lexer.tokens
          ⟨p.afterAll ('\\' :: body), .text :: es, rest⟩ := by
  have hLexeme :
      lexeme (.text :: es) '\\' (body ++ rest) =
        .token .escapeSequence body.length :=
    backslashLexeme_of_body hBody rest
  have hMore := congrArg Lexeme.more hLexeme
  have hKind := congrArg Lexeme.kind hLexeme
  exact Lexer.tokens_of_token hMore hKind p

/- The closing quote is the last token of the string. -/
theorem tokens_quote
    (post : List Char)
    (es : List Enclosure)
    (p : Position) :
    Lexer.tokens ⟨p, .text :: es, '"' :: post⟩ =
      ⟨.stringEnd, String.ofList ['"'],
          ⟨p, p.afterAll ['"']⟩⟩ ::
        Lexer.tokens ⟨p.afterAll ['"'], es, post⟩ :=
  @Lexer.tokens_of_token (.text :: es) '"' [] post .stringEnd
    rfl rfl p

/-
  The tokens of what is written stand for the characters that
  are written, up to a closing quote.
-/
def IsSpelled
    (post : List Char)
    (es : List Enclosure)
    (xs : List Spelling) :
    Prop :=
  ∀ p : Position,
    ∃ ts stop q,
      Lexer.tokens
            ⟨p, .text :: es,
              xs.flatMap Spelling.text ++ '"' :: post⟩ =
          ts ++ stop :: Lexer.tokens ⟨q, es, post⟩ ∧
        stop.kind = .stringEnd ∧
          Spells ts (xs.map Spelling.char)

namespace IsSpelled

variable {post : List Char}
variable {es : List Enclosure}
variable {xs ys : List Spelling}

theorem nil : IsSpelled post es [] :=
  fun p =>
    ⟨[], _, _, tokens_quote post es p, rfl, .nil⟩

/- An escape may stand in front. -/
theorem escape
    {x : Spelling}
    (hEscape : x.isVerbatim = false)
    (hSpelled : IsSpelled post es xs) :
    IsSpelled post es (x :: xs) := by
  intro p
  rcases Spelling.exists_body hEscape with
    ⟨body, hText, hBody, hChar⟩
  rcases hSpelled (p.afterAll ('\\' :: body)) with
    ⟨ts, stop, q, hTokens, hStop, hSpells⟩
  have hFirst :=
    tokens_escape hBody
      (xs.flatMap Spelling.text ++ '"' :: post) es p
  rw [hTokens] at hFirst
  rw [List.flatMap_cons, hText, List.append_assoc]
  exact ⟨_ :: ts, stop, q, hFirst, hStop,
    .cons (Token.decoded?_escape hChar) hSpells⟩

/- So may all that stands for itself in front of an escape. -/
theorem run
    (hRun : ∀ x ∈ xs, x.isVerbatim)
    (hEscape : ∀ y ∈ ys.head?, y.isVerbatim = false)
    (hSpelled : IsSpelled post es ys) :
    IsSpelled post es (xs ++ ys) := by
  rcases flatMap_text_of_isVerbatim hRun with
    ⟨hText, hContent⟩
  cases xs with
  | nil => exact hSpelled
  | cons x xs =>
      intro p
      rw [List.map_cons] at hText hContent
      rcases exists_stop hEscape post with
        ⟨d, ds, hLater, hStop⟩
      rcases hSpelled
          (p.afterAll (x.char :: xs.map Spelling.char)) with
        ⟨ts, stop, q, hTokens, hEnd, hSpells⟩
      have hFirst :=
        tokens_content hContent hStop ds es p
      rw [← hLater, hTokens] at hFirst
      rw [List.flatMap_append, hText, List.append_assoc,
        List.map_append, List.map_cons]
      exact ⟨_ :: ts, stop, q, hFirst, hEnd,
        .cons (Token.decoded?_content _ _) hSpells⟩

/- All that is written is read, whatever it is. -/
theorem all (xs : List Spelling) : IsSpelled post es xs := by
  have hParts :
      xs.takeWhile Spelling.isVerbatim ++
          xs.dropWhile Spelling.isVerbatim =
        xs :=
    List.takeWhile_append_dropWhile
  have hRun :
      ∀ x ∈ xs.takeWhile Spelling.isVerbatim, x.isVerbatim :=
    fun x hMem => List.mem_takeWhile_imp hMem
  have hHead :=
    List.head?_dropWhile_not Spelling.isVerbatim xs
  cases hLater : xs.dropWhile Spelling.isVerbatim with
  | nil =>
      rw [hLater] at hParts
      rw [← hParts]
      exact run hRun nofun nil
  | cons y ys =>
      have hLess : ys.length < xs.length := by
        have hLength := congrArg List.length hParts
        rw [hLater, List.length_append, List.length_cons]
          at hLength
        omega
      rw [hLater] at hParts hHead
      rw [← hParts]
      refine run hRun ?_ (escape hHead (all ys))
      rintro _ ⟨⟩
      exact hHead
termination_by xs.length

end IsSpelled

/- The tokens of a whole string that is written. -/
theorem exists_tokenize_spelled
    (xs : List Spelling)
    (file? : Option String) :
    ∃ quote ts stop last,
      tokenize
            (String.ofList
              ('"' :: (xs.flatMap Spelling.text ++ ['"'])))
            file? =
          quote :: (ts ++ [stop, last]) ∧
        quote.kind = .stringStart ∧
          stop.kind = .stringEnd ∧
            last.kind = .eof ∧
              Spells ts (xs.map Spelling.char) := by
  unfold tokenize Lexer.start
  rw [String.toList_ofList]
  generalize Position.first (file?.getD Lexer.unnamed) = p
  have hQuote :=
    @Lexer.tokens_of_token [] '"' []
      (xs.flatMap Spelling.text ++ ['"']) .stringStart
      (congrArg Lexeme.more (codeLexeme_quote _))
      (congrArg Lexeme.kind (codeLexeme_quote _)) p
  rcases @IsSpelled.all [] [] xs (p.afterAll ['"']) with
    ⟨ts, stop, q, hTokens, hStop, hSpells⟩
  have hEnd :
      Lexer.tokens ⟨q, [], []⟩ =
        [⟨.eof, "EOF", Span.point q⟩] :=
    Lexer.tokens_of_end rfl
  rw [hEnd] at hTokens
  exact ⟨_, ts, stop, _, hQuote.trans
    (congrArg (List.cons _) hTokens), rfl, hStop, rfl,
    hSpells⟩

end SourceCheck
