import SourceCheck.Proofs.Layout.TokenOrder
import SourceCheck.Proofs.Lexing.Names
import SourceCheck.Proofs.Lexing.Respacing
import SourceCheck.Proofs.Literals.Numerals

/-
  Texts whose names are spelled anew.

  A back-tick in front of a name makes an escaped name of
  it, and changes no other token of the text: in code a
  back-tick ends every lexeme, and a lexeme that a name
  followed was not gone on by the name either.

  Which of the names get a back-tick is chosen token by
  token.

  Key definitions include:
    * `Token.respelled`
    * `ticked`
    * `respelled`
    * `GoesOnAlike`
    * `Lexer.Respells`

  Key theorems include:
    * `codeLexeme_of_goesOn`
    * `Lexer.respells`
    * `words_tokenize_respelled`
-/

namespace SourceCheck

------------------------------------------------------------
-- Spelling names anew
------------------------------------------------------------

/- A name that is written without a back-tick. -/
def TokenKind.isUnescaped (kind : TokenKind) : Bool :=
  kind = .identifier || kind = .kwSet || kind = .kwGet

namespace Token

/- The token is a name, and chosen to get a back-tick. -/
def isRespelled
    (chosen : Token → Bool)
    (t : Token) :
    Bool :=
  t.kind.isUnescaped && chosen t

/- What a token says after its name got a back-tick. -/
def respelled
    (chosen : Token → Bool)
    (t : Token) :
    TokenKind × String :=
  if t.isRespelled chosen then
    (.escapedIdentifier, "\x60" ++ t.value)
  else
    t.word

end Token

/- A chosen name starts at the offset. -/
def isTicked
    (chosen : Token → Bool)
    (ts : List Token)
    (offset : Nat) :
    Bool :=
  ts.any fun t =>
    t.isRespelled chosen && t.span.start.offset = offset

/-
  The text with a back-tick in front of each character whose
  offset is marked.  The text starts at the given offset.
-/
def ticked
    (marks : Nat → Bool)
    (offset : Nat) :
    List Char → List Char
  | [] => []
  | c :: cs =>
      (if marks offset then ['\x60'] else []) ++
        c :: ticked marks (offset + c.utf8Size) cs

/- The source with a back-tick in front of chosen names. -/
def respelled
    (chosen : Token → Bool)
    (source : String) :
    String :=
  String.ofList
    (ticked (isTicked chosen (tokenize source none)) 0
      source.toList)

------------------------------------------------------------
-- Kinds of names
------------------------------------------------------------

theorem TokenKind.isName_of_isUnescaped
    {kind : TokenKind}
    (hKind : kind.isUnescaped) :
    kind.isName ∧ kind ≠ .escapedIdentifier := by
  simp only [isUnescaped, Bool.or_eq_true,
    decide_eq_true_eq] at hKind
  rcases hKind with (rfl | rfl) | rfl
  · exact ⟨rfl, nofun⟩
  · exact ⟨rfl, nofun⟩
  · exact ⟨rfl, nofun⟩

/- Names open and close nothing. -/
theorem Enclosure.after_of_isName
    {kind : TokenKind}
    (hName : kind.isName)
    (es : List Enclosure) :
    after kind es = es := by
  rcases TokenKind.eq_of_isName hName with
    rfl | rfl | rfl | rfl
  all_goals
    cases es <;> rfl

/- They do not stand directly in strings. -/
theorem mode_of_isName
    {es : List Enclosure}
    {c : Char}
    {cs : List Char}
    {kind : TokenKind}
    (hKind : (lexeme es c cs).kind = some kind)
    (hName : kind.isName) :
    Mode.ofEnclosures es ≠ .text := by
  intro hMode
  have hInside := isInText_of_mode (fits_lexeme hKind) hMode
  rcases TokenKind.eq_of_isName hName with
    rfl | rfl | rfl | rfl
  all_goals
    exact absurd hInside (by decide)

------------------------------------------------------------
-- Lexemes of code
------------------------------------------------------------

section Ahead

variable {c d : Char}
variable {cs ds text : List Char}
variable {p : Char → Bool}

/- A run that takes all of a text goes no further. -/
theorem stop_of_countWhile
    (hShort : countWhile p (text ++ d :: ds) ≤ text.length)
    (hAll : (text.takeWhile p).length = text.length) :
    p d = false := by
  by_contra hGoes
  rw [Bool.not_eq_false] at hGoes
  unfold countWhile at hShort
  rw [List.takeWhile_append, if_pos hAll,
    List.takeWhile_cons_of_pos hGoes, List.length_append,
    List.length_cons] at hShort
  omega

/-
  A run that ends in front of the last character that is
  known ends there whatever follows.
-/
theorem takeWhile_ahead
    (hShort : countWhile p (text ++ d :: ds) ≤ text.length)
    (cs : List Char) :
    (text ++ d :: cs).takeWhile p =
      (text ++ d :: ds).takeWhile p := by
  rw [List.takeWhile_append, List.takeWhile_append]
  split
  · rename_i hAll
    have hStop := stop_of_countWhile hShort hAll
    rw [List.takeWhile_cons, List.takeWhile_cons, hStop]
    rfl
  · rfl

theorem countWhile_ahead
    (hShort : countWhile p (text ++ d :: ds) ≤ text.length)
    (cs : List Char) :
    countWhile p (text ++ d :: cs) =
      countWhile p (text ++ d :: ds) :=
  congrArg List.length (takeWhile_ahead hShort cs)

/- A run behind a mark that needs one is the same, too. -/
theorem markedRun_ahead
    {m : Bool}
    (hShort :
      (m && countWhile p (text ++ d :: ds) ≠ 0) = true →
        countWhile p (text ++ d :: ds) ≤ text.length)
    (cs : List Char) :
    (m && countWhile p (text ++ d :: cs) ≠ 0) =
        (m && countWhile p (text ++ d :: ds) ≠ 0) ∧
      ((m && countWhile p (text ++ d :: ds) ≠ 0) = true →
        countWhile p (text ++ d :: cs) =
          countWhile p (text ++ d :: ds)) := by
  cases m with
  | false => exact ⟨rfl, nofun⟩
  | true =>
      have hLess :
          countWhile p (text ++ d :: ds) ≤ text.length := by
        by_cases hRun : countWhile p (text ++ d :: ds) = 0
        · rw [hRun]
          exact Nat.zero_le _
        · exact hShort (by simpa using hRun)
      rw [countWhile_ahead hLess cs]
      exact ⟨rfl, fun _ => rfl⟩

theorem symbol_ahead :
    symbol c (text ++ d :: cs) =
      symbol c (text ++ d :: ds) := by
  cases text with
  | nil => rfl
  | cons e text => rfl

theorem intOfDigits_ahead
    {digits : Nat}
    (text : List Char)
    (hDigits : digits ≤ text.length) :
    intOfDigits digits (text ++ d :: cs) =
      intOfDigits digits (text ++ d :: ds) := by
  unfold intOfDigits
  rw [List.drop_append_of_le_length hDigits,
    List.drop_append_of_le_length hDigits]
  cases text.drop digits with
  | nil => rfl
  | cons e text => rfl

/- Digits of radices are found in words. -/
theorem isWordPart_of_isRadixPart
    (hDigit : isHexPart c ∨ isBinaryPart c) :
    isWordPart c := by
  rcases hDigit with hHex | hBinary
  · rcases Bool.or_eq_true_iff.1 hHex with hHex | hLow
    · exact isWordPart_of_isHexDigit c hHex
    · rw [of_decide_eq_true hLow]
      rfl
  · simp only [isBinaryPart, Bool.or_eq_true,
      decide_eq_true_eq] at hBinary
    rcases hBinary with (rfl | rfl) | rfl
    · rfl
    · rfl
    · rfl

/-
  Behind a mark no run begins, if none begins in a text that
  starts alike with parts of words.
-/
theorem noRun_ahead
    (hParts : ∀ e, p e → isWordPart e)
    (hNext :
      ∀ e ∈ cs.head?, isWordPart e → ds.head? = some e)
    {m : Bool}
    (hNone : (m && countWhile p ds ≠ 0) = false) :
    (m && countWhile p cs ≠ 0) = false := by
  cases m with
  | false => rfl
  | true =>
      have hStop : countWhile p ds = 0 := by
        simpa using hNone
      suffices hRun : countWhile p cs = 0 by
        simpa using hRun
      cases cs with
      | nil => rfl
      | cons e es =>
          by_contra hRun
          have hGoes : p e := by
            by_contra hEnds
            exact hRun (by
              rw [countWhile,
                List.takeWhile_cons_of_neg hEnds]
              rfl)
          obtain ⟨rest, rfl⟩ :=
            List.head?_eq_some_iff.1
              (hNext e rfl (hParts e hGoes))
          rw [countWhile, List.takeWhile_cons_of_pos hGoes]
            at hStop
          cases hStop

/- A zero in front of the last character names no radix. -/
theorem intLexeme_ahead_zero
    (hMore : (intLexeme '0' (d :: ds)).more ≤ 0)
    (hNext :
      ∀ e ∈ cs.head?, isWordPart e → ds.head? = some e) :
    intLexeme '0' (d :: cs) = intLexeme '0' (d :: ds) := by
  have hNothing {n : Nat} {es : List Char}
      (hShort : (intOfDigits n es).more ≤ 0) :
      n ≤ 0 :=
    Nat.le_trans (le_more_intOfDigits n es) hShort
  unfold intLexeme at hMore ⊢
  rw [if_pos rfl] at hMore ⊢
  rw [if_pos rfl]
  dsimp only at hMore ⊢
  split at hMore
  · exact absurd (hNothing hMore) (Nat.not_succ_le_zero _)
  rename_i hHex
  split at hMore
  · exact absurd (hNothing hMore) (Nat.not_succ_le_zero _)
  rename_i hBinary
  have hNoHex :=
    noRun_ahead
      (fun _ hPart => isWordPart_of_isRadixPart (.inl hPart))
      hNext (Bool.eq_false_iff.2 hHex)
  have hNoBinary :=
    noRun_ahead
      (fun _ hPart => isWordPart_of_isRadixPart (.inr hPart))
      hNext (Bool.eq_false_iff.2 hBinary)
  rw [if_neg hHex, if_neg hBinary, hNoHex, hNoBinary]
  rfl

/- The digits of a radix end where they ended before. -/
theorem intLexeme_ahead_radix
    {r : Char}
    (hMore :
      (intLexeme '0' (r :: text ++ d :: ds)).more ≤
        (r :: text).length)
    (cs : List Char) :
    intLexeme '0' (r :: text ++ d :: cs) =
      intLexeme '0' (r :: text ++ d :: ds) := by
  have hFits {n : Nat} {es : List Char}
      (hShort :
        (intOfDigits n es).more ≤ (r :: text).length) :
      n ≤ (r :: text).length :=
    Nat.le_trans (le_more_intOfDigits n es) hShort
  unfold intLexeme at hMore ⊢
  rw [if_pos rfl] at hMore ⊢
  rw [if_pos rfl]
  dsimp only [List.cons_append] at hMore ⊢
  have hHex :=
    markedRun_ahead (p := isHexPart)
      (m := (r = 'x' || r = 'X'))
      (fun hThere => by
        rw [if_pos hThere] at hMore
        exact Nat.le_of_succ_le_succ (hFits hMore))
      cs
  rw [hHex.1]
  split at hMore
  · rename_i hThere
    rw [if_pos hThere, if_pos hThere, hHex.2 hThere]
    exact intOfDigits_ahead (r :: text) (hFits hMore)
  rename_i hNoHex
  rw [if_neg hNoHex, if_neg hNoHex]
  have hBinary :=
    markedRun_ahead (p := isBinaryPart)
      (m := (r = 'b' || r = 'B'))
      (fun hThere => by
        rw [if_pos hThere] at hMore
        exact Nat.le_of_succ_le_succ (hFits hMore))
      cs
  rw [hBinary.1]
  split at hMore
  · rename_i hThere
    rw [if_pos hThere, if_pos hThere, hBinary.2 hThere]
    exact intOfDigits_ahead (r :: text) (hFits hMore)
  · rename_i hNone
    rw [if_neg hNone, if_neg hNone]
    exact intOfDigits_ahead (r :: text) (Nat.zero_le _)

theorem intLexeme_ahead
    (hMore :
      (intLexeme c (text ++ d :: ds)).more ≤ text.length)
    (hNext :
      ∀ e ∈ cs.head?, isWordPart e → ds.head? = some e) :
    intLexeme c (text ++ d :: cs) =
      intLexeme c (text ++ d :: ds) := by
  by_cases hZero : c = '0'
  · subst hZero
    cases text with
    | nil => exact intLexeme_ahead_zero hMore hNext
    | cons r text => exact intLexeme_ahead_radix hMore cs
  · unfold intLexeme at hMore ⊢
    rw [if_neg hZero] at hMore ⊢
    rw [if_neg hZero]
    have hRun :=
      Nat.le_trans (le_more_intOfDigits _ _) hMore
    rw [countWhile_ahead hRun cs]
    exact intOfDigits_ahead text hRun

/-
  A lexeme of code looks one character ahead, and behind a
  zero at one more, if that may be part of a word.
-/
theorem codeLexeme_ahead
    (hMore :
      (codeLexeme c (text ++ d :: ds)).more ≤ text.length)
    (hNext :
      ∀ e ∈ cs.head?, isWordPart e → ds.head? = some e) :
    codeLexeme c (text ++ d :: cs) =
      codeLexeme c (text ++ d :: ds) := by
  have hHead :
      (text ++ d :: cs).head? =
        (text ++ d :: ds).head? := by
    cases text with
    | nil => rfl
    | cons e text => rfl
  unfold codeLexeme at hMore ⊢
  rw [hHead]
  by_cases hGap : isGap c
  · rw [if_pos hGap] at hMore ⊢
    rw [if_pos hGap, countWhile_ahead hMore cs]
  rw [if_neg hGap] at hMore ⊢
  rw [if_neg hGap]
  split at hMore
  · rename_i hComment
    rw [if_pos hComment, if_pos hComment,
      countWhile_ahead hMore cs]
  rename_i hComment
  rw [if_neg hComment, if_neg hComment]
  by_cases hWord : isWordStart c
  · rw [if_pos hWord] at hMore ⊢
    rw [if_pos hWord]
    unfold wordLexeme at hMore ⊢
    rw [takeWhile_ahead hMore cs, countWhile_ahead hMore cs]
  rw [if_neg hWord] at hMore ⊢
  rw [if_neg hWord]
  by_cases hDigit : c.isDigit
  · rw [if_pos hDigit] at hMore ⊢
    rw [if_pos hDigit, intLexeme_ahead hMore hNext]
  rw [if_neg hDigit] at hMore ⊢
  rw [if_neg hDigit]
  have hEscaped :=
    markedRun_ahead (p := isWordPart) (m := (c = '\x60'))
      (fun hThere => by
        rw [if_pos hThere] at hMore
        exact hMore)
      cs
  rw [hEscaped.1]
  split at hMore
  · rename_i hThere
    rw [if_pos hThere, if_pos hThere, hEscaped.2 hThere]
  · rename_i hNone
    rw [if_neg hNone, if_neg hNone, symbol_ahead]

/- No comment ends in front of a word. -/
theorem head?_ne_of_more
    (hMore :
      (codeLexeme '/' (text ++ d :: ds)).more = text.length)
    (hStart : isWordStart d) :
    text.head? ≠ some '/' := by
  intro hSlash
  have hHead : (text ++ d :: ds).head? = some '/' := by
    rw [List.head?_append, hSlash]
    rfl
  unfold codeLexeme at hMore
  rw [hHead, if_neg nofun, if_pos (by decide)] at hMore
  have hAll := countWhile_cut (Nat.le_of_eq hMore)
  have hStop :=
    stop_of_countWhile (Nat.le_of_eq hMore)
      (hAll.trans hMore)
  rw [bne_eq_false_iff_eq.1 hStop] at hStart
  cases hStart

end Ahead

------------------------------------------------------------
-- Texts that go on alike
------------------------------------------------------------

/-
  The first text starts like the second one, or a back-tick
  stands in it in front of a word.  If both start with one
  character and a part of a word is next in the first text,
  then it is next in both.
-/
inductive GoesOnAlike : List Char → List Char → Prop where
  | nil : GoesOnAlike [] []
  | tick {d cs ds}
      (hStart : isWordStart d) :
      GoesOnAlike ('\x60' :: cs) (d :: ds)
  | same {d cs ds}
      (hNext :
        ∀ e ∈ cs.head?, isWordPart e → ds.head? = some e) :
      GoesOnAlike (d :: cs) (d :: ds)

section GoesOn

variable {c : Char}
variable {text tail post : List Char}

/- A part of a word at the start is at the start of both. -/
theorem GoesOnAlike.head?_eq
    (hGoesOn : GoesOnAlike tail post) :
    ∀ e ∈ tail.head?,
      isWordPart e → post.head? = some e := by
  intro e hHead hPart
  cases hGoesOn with
  | nil => cases hHead
  | tick _ =>
      cases hHead
      exact absurd hPart (by decide)
  | same _ => exact hHead

/- A character in front of such texts, and of others. -/
theorem GoesOnAlike.cons
    (hNext :
      ∀ e ∈ tail.head?, isWordPart e → post.head? = some e)
    (c : Char)
    (text : List Char) :
    GoesOnAlike (c :: (text ++ tail))
      (c :: (text ++ post)) := by
  refine .same ?_
  cases text with
  | nil => exact hNext
  | cons d text => exact fun _ hHead _ => hHead

/- A lexeme of code stays if the text goes on alike. -/
theorem codeLexeme_of_goesOn
    (hMore :
      (codeLexeme c (text ++ post)).more = text.length)
    (hGoesOn : GoesOnAlike tail post) :
    codeLexeme c (text ++ tail) =
      codeLexeme c (text ++ post) := by
  have hCut := codeLexeme_cut (Nat.le_of_eq hMore)
  cases hGoesOn with
  | nil => rfl
  | same hNext =>
      exact codeLexeme_ahead (Nat.le_of_eq hMore) hNext
  | @tick d cs ds hStart =>
      suffices hShort :
          (codeLexeme c (text ++ '\x60' :: cs)).more ≤
            text.length from
        (codeLexeme_cut hShort).symm.trans hCut
      cases hGap : isGap c with
      | true =>
          unfold codeLexeme
          rw [if_pos hGap]
          exact countWhile_le_of_stop rfl text cs
      | false =>
          refine more_codeLexeme_break hGap (by decide) ?_
          rintro rfl hSlash
          exact absurd hSlash
            (head?_ne_of_more hMore hStart)

/- Only a closing brace is read as in a template. -/
theorem lexeme_eq_codeLexeme
    {es : List Enclosure}
    (hMode : Mode.ofEnclosures es ≠ .text)
    (hBrace : c ≠ '\x7d')
    (cs : List Char) :
    lexeme es c cs = codeLexeme c cs := by
  match es with
  | [] => rfl
  | .text :: _ => exact absurd rfl hMode
  | .template (_ + 1) :: _ => rfl
  | .template 0 :: _ => exact if_neg hBrace

/- A gap stays if the text goes on alike. -/
theorem lexeme_gap_of_goesOn
    {es : List Enclosure}
    (hMore :
      (lexeme es c (text ++ post)).more = text.length)
    (hKind : (lexeme es c (text ++ post)).kind = none)
    (hGoesOn : GoesOnAlike tail post) :
    lexeme es c (text ++ tail) =
      lexeme es c (text ++ post) := by
  obtain ⟨hMode, hCode⟩ := lexeme_of_gap hKind
  rw [hCode] at hMore hKind ⊢
  have hBrace : c ≠ '\x7d' := by
    rcases codeLexeme_of_gap hKind with
      ⟨hBlank, -⟩ | ⟨rfl, -⟩
    · rintro rfl
      cases hBlank
    · decide
  rw [lexeme_eq_codeLexeme hMode hBrace]
  exact codeLexeme_of_goesOn hMore hGoesOn

/- A name behind a back-tick is an escaped name. -/
theorem lexeme_tick
    {es : List Enclosure}
    (hMode : Mode.ofEnclosures es ≠ .text)
    (hStart : isWordStart c)
    (hRun :
      countWhile isWordPart (text ++ tail) = text.length) :
    lexeme es '\x60' (c :: text ++ tail) =
      .token .escapedIdentifier (c :: text).length := by
  have hCount :
      countWhile isWordPart (c :: text ++ tail) =
        (c :: text).length := by
    have hPart := isWordPart_of_start hStart
    rw [List.cons_append, countWhile,
      List.takeWhile_cons_of_pos hPart, List.length_cons]
    exact congrArg Nat.succ hRun
  have hGap : ¬isGap '\x60' = true := by
    decide
  rw [lexeme_eq_codeLexeme hMode (by decide)]
  unfold codeLexeme
  rw [if_neg hGap, hCount]
  rfl

end GoesOn

------------------------------------------------------------
-- Marks
------------------------------------------------------------

theorem ofList_tick (cs : List Char) :
    String.ofList ('\x60' :: cs) =
      "\x60" ++ String.ofList cs := by
  rw [← String.toList_inj, String.toList_append,
    String.toList_ofList]
  exact congrArg ('\x60' :: ·) String.toList_ofList.symm

/- A part of a text without marks stays. -/
theorem ticked_append
    {marks : Nat → Bool}
    {front : List Char}
    {offset : Nat}
    (hNone :
      ∀ n,
        offset ≤ n →
          n < offset + utf8Length front → marks n = false)
    (cs : List Char) :
    ticked marks offset (front ++ cs) =
      front ++
        ticked marks (offset + utf8Length front) cs := by
  induction front generalizing offset with
  | nil => rfl
  | cons c front ih =>
      have hSize := c.utf8Size_pos
      rw [utf8Length_cons] at hNone
      have hHere : marks offset = false :=
        hNone offset (Nat.le_refl _) (by omega)
      have hLater :
          ticked marks (offset + c.utf8Size) (front ++ cs) =
            front ++
              ticked marks
                (offset + c.utf8Size + utf8Length front)
                cs :=
        ih fun n hFrom hTo => hNone n (by omega) (by omega)
      rw [List.cons_append, ticked, hHere, hLater,
        utf8Length_cons, Nat.add_assoc]
      rfl

/- A mark is put in front of the text. -/
theorem ticked_marked
    {marks : Nat → Bool}
    {c : Char}
    {offset : Nat}
    {text : List Char}
    (hMark : marks offset)
    (hNone :
      ∀ n,
        offset < n →
          n < offset + utf8Length (c :: text) →
            marks n = false)
    (cs : List Char) :
    ticked marks offset (c :: text ++ cs) =
      '\x60' ::
        (c :: text ++
          ticked marks (offset + utf8Length (c :: text))
            cs) := by
  have hSize := c.utf8Size_pos
  rw [utf8Length_cons] at hNone ⊢
  have hLater :
      ticked marks (offset + c.utf8Size) (text ++ cs) =
        text ++
          ticked marks
            (offset + c.utf8Size + utf8Length text) cs :=
    ticked_append
      (fun n hFrom hTo => hNone n (by omega) (by omega)) cs
  rw [List.cons_append, ticked, if_pos hMark, hLater,
    Nat.add_assoc]
  rfl

/- No token starts in front of the first one. -/
theorem isTicked_eq_false
    {ts : List Token}
    {offset n : Nat}
    (hStarts : ∀ t ∈ ts, offset ≤ t.span.start.offset)
    (hLess : n < offset)
    (chosen : Token → Bool) :
    isTicked chosen ts n = false := by
  refine List.any_eq_false.2 fun t hMem hTicked => ?_
  rw [Bool.and_eq_true, decide_eq_true_eq] at hTicked
  have hFrom := hStarts t hMem
  rw [hTicked.2] at hFrom
  exact absurd hLess (Nat.not_lt.2 hFrom)

/- A mark at a token is its own. -/
theorem isTicked_cons_start
    {t : Token}
    {ts : List Token}
    {offset : Nat}
    (hStarts : ∀ u ∈ ts, offset ≤ u.span.start.offset)
    (hLess : t.span.start.offset < offset)
    (chosen : Token → Bool) :
    isTicked chosen (t :: ts) t.span.start.offset =
      t.isRespelled chosen := by
  have hLater := isTicked_eq_false hStarts hLess chosen
  unfold isTicked at hLater ⊢
  rw [List.any_cons, hLater, Bool.or_false]
  simp only [decide_true, Bool.and_true]

/- A mark behind the start of a token is of another one. -/
theorem isTicked_cons_behind
    {t : Token}
    {n : Nat}
    (hLess : t.span.start.offset < n)
    (ts : List Token)
    (chosen : Token → Bool) :
    isTicked chosen (t :: ts) n = isTicked chosen ts n := by
  unfold isTicked
  rw [List.any_cons, decide_eq_false (Nat.ne_of_lt hLess),
    Bool.and_false, Bool.false_or]

------------------------------------------------------------
-- Reading the text that is spelled anew
------------------------------------------------------------

namespace Lexer

/- A lexeme that is a gap is passed. -/
theorem tokens_of_gapLexeme
    {es : List Enclosure}
    {c : Char}
    {cs post : List Char}
    (hMore : (lexeme es c (cs ++ post)).more = cs.length)
    (hKind : (lexeme es c (cs ++ post)).kind = none)
    (p : Position) :
    tokens ⟨p, es, c :: (cs ++ post)⟩ =
      tokens ⟨p.afterAll (c :: cs), es, post⟩ := by
  rw [tokens_of_cons (l := ⟨p, es, c :: (cs ++ post)⟩) rfl]
  unfold made pass word
  dsimp only
  rw [hKind, hMore, List.take_succ_cons, List.take_left,
    List.drop_succ_cons, List.drop_left]
  rfl

/- The marks stand where the chosen names start. -/
def IsMarked
    (l : Lexer)
    (chosen : Token → Bool)
    (marks : Nat → Bool) :
    Prop :=
  ∀ n,
    l.position.offset ≤ n →
      marks n = isTicked chosen l.tokens n

/-
  With the marks as back-ticks, the lexer reads the tokens
  as they are spelled anew.  In a string the text looks as
  before, and outside of strings it goes on alike.
-/
structure Respells
    (l : Lexer)
    (chosen : Token → Bool)
    (marks : Nat → Bool) :
    Prop where
  words :
    ∀ p,
      (tokens ⟨p, l.enclosures,
          ticked marks l.position.offset
            l.rest⟩).map Token.word =
        l.tokens.map (Token.respelled chosen)
  view :
    Mode.ofEnclosures l.enclosures = .text →
      textView (ticked marks l.position.offset l.rest) =
        textView l.rest
  goesOn :
    Mode.ofEnclosures l.enclosures ≠ .text →
      GoesOnAlike (ticked marks l.position.offset l.rest)
        l.rest

section Marks

variable {chosen : Token → Bool}
variable {marks : Nat → Bool}
variable {p₀ : Position}
variable {es : List Enclosure}
variable {c : Char}
variable {text post : List Char}
variable {kind : TokenKind}

/- No mark stands in a gap. -/
theorem IsMarked.gap
    (hMore :
      (lexeme es c (text ++ post)).more = text.length)
    (hKind : (lexeme es c (text ++ post)).kind = none)
    (hMarked :
      IsMarked ⟨p₀, es, c :: (text ++ post)⟩ chosen marks) :
    IsMarked ⟨p₀.afterAll (c :: text), es, post⟩ chosen
        marks ∧
      ∀ n,
        p₀.offset ≤ n →
          n < p₀.offset + utf8Length (c :: text) →
            marks n = false := by
  have hStarts :=
    (tokensInOrder_tokensFrom (p₀.afterAll (c :: text)) es
      post).2
  have hLess := p₀.offset_le_afterAll (c :: text)
  unfold IsMarked at hMarked
  rw [tokens_of_gapLexeme hMore hKind] at hMarked
  constructor
  · intro n hFrom
    exact hMarked n (Nat.le_trans hLess hFrom)
  · intro n hFrom hTo
    rw [hMarked n hFrom]
    rw [← Position.offset_afterAll] at hTo
    exact isTicked_eq_false hStarts hTo chosen

/- In a token one stands at its start, if it is chosen. -/
theorem IsMarked.token
    (hMore :
      (lexeme es c (text ++ post)).more = text.length)
    (hKind : (lexeme es c (text ++ post)).kind = some kind)
    (hMarked :
      IsMarked ⟨p₀, es, c :: (text ++ post)⟩ chosen marks) :
    IsMarked
        ⟨p₀.afterAll (c :: text), Enclosure.after kind es,
          post⟩
        chosen marks ∧
      (∀ n,
        p₀.offset < n →
          n < p₀.offset + utf8Length (c :: text) →
            marks n = false) ∧
      marks p₀.offset =
        Token.isRespelled chosen
          ⟨kind, String.ofList (c :: text),
            ⟨p₀, p₀.afterAll (c :: text)⟩⟩ := by
  have hStarts :=
    (tokensInOrder_tokensFrom (p₀.afterAll (c :: text))
      (Enclosure.after kind es) post).2
  have hLess := p₀.offset_lt_afterAll_cons c text
  unfold IsMarked at hMarked
  rw [tokens_of_token hMore hKind] at hMarked
  have hBehind (n : Nat) (hFrom : p₀.offset < n) :=
    (hMarked n (Nat.le_of_lt hFrom)).trans
      (isTicked_cons_behind hFrom _ chosen)
  refine ⟨fun n hFrom => ?_, fun n hFrom hTo => ?_, ?_⟩
  · exact hBehind n (Nat.lt_of_lt_of_le hLess hFrom)
  · rw [hBehind n hFrom]
    rw [← Position.offset_afterAll] at hTo
    exact isTicked_eq_false hStarts hTo chosen
  · exact (hMarked p₀.offset (Nat.le_refl _)).trans
      (isTicked_cons_start hStarts hLess chosen)

end Marks

namespace Respells

variable {chosen : Token → Bool}
variable {marks : Nat → Bool}
variable {p₀ : Position}
variable {es : List Enclosure}
variable {c : Char}
variable {text post : List Char}
variable {kind : TokenKind}

/- In both texts the same part of a word is next. -/
theorem head?_eq
    {l : Lexer}
    (hSpells : l.Respells chosen marks) :
    ∀ e ∈ (ticked marks l.position.offset l.rest).head?,
      isWordPart e → l.rest.head? = some e := by
  by_cases hMode : Mode.ofEnclosures l.enclosures = .text
  · intro e hHead _
    have hView := hSpells.view hMode
    obtain ⟨cs, hFirst⟩ := List.head?_eq_some_iff.1 hHead
    rw [hFirst, textView_cons] at hView
    cases hRest : l.rest with
    | nil =>
        rw [hRest] at hView
        cases hView
    | cons d ds =>
        rw [hRest, textView_cons] at hView
        exact congrArg some (List.cons.inj hView).1.symm
  · exact (hSpells.goesOn hMode).head?_eq

/- A gap stays in front of a text that is spelled anew. -/
theorem gap
    (hMore :
      (lexeme es c (text ++ post)).more = text.length)
    (hKind : (lexeme es c (text ++ post)).kind = none)
    (hNone :
      ∀ n,
        p₀.offset ≤ n →
          n < p₀.offset + utf8Length (c :: text) →
            marks n = false)
    (hLater :
      Respells ⟨p₀.afterAll (c :: text), es, post⟩ chosen
        marks) :
    Respells ⟨p₀, es, c :: (text ++ post)⟩ chosen
      marks := by
  have hMode := (lexeme_of_gap hKind).1
  have hTicked := ticked_append hNone post
  rw [← Position.offset_afterAll] at hTicked
  generalize hTail :
    ticked marks (p₀.afterAll (c :: text)).offset post =
      tail at hTicked
  have hGoesOn : GoesOnAlike tail post := by
    rw [← hTail]
    exact hLater.goesOn hMode
  constructor
  · intro p
    have hSame := lexeme_gap_of_goesOn hMore hKind hGoesOn
    rw [← hSame] at hMore hKind
    dsimp only
    rw [← List.cons_append, hTicked, List.cons_append,
      tokens_of_gapLexeme hMore hKind]
    rw [hSame] at hMore hKind
    rw [List.cons_append, tokens_of_gapLexeme hMore hKind,
      ← hTail]
    exact hLater.words _
  · exact fun hText => absurd hText hMode
  · intro _
    dsimp only
    rw [← List.cons_append, hTicked]
    exact .cons hGoesOn.head?_eq c text

/- So does a token that gets no back-tick. -/
theorem token
    (hMore :
      (lexeme es c (text ++ post)).more = text.length)
    (hKind : (lexeme es c (text ++ post)).kind = some kind)
    (hPlain :
      Token.isRespelled chosen
          ⟨kind, String.ofList (c :: text),
            ⟨p₀, p₀.afterAll (c :: text)⟩⟩ =
        false)
    (hNone :
      ∀ n,
        p₀.offset ≤ n →
          n < p₀.offset + utf8Length (c :: text) →
            marks n = false)
    (hLater :
      Respells
        ⟨p₀.afterAll (c :: text), Enclosure.after kind es,
          post⟩
        chosen marks) :
    Respells ⟨p₀, es, c :: (text ++ post)⟩ chosen
      marks := by
  have hTicked := ticked_append hNone post
  rw [← Position.offset_afterAll] at hTicked
  have hText := hLater.view
  have hHead := hLater.head?_eq
  have hSame :=
    lexeme_of_tail hMore hKind hText
      fun hMode hMore _ =>
        codeLexeme_of_goesOn hMore (hLater.goesOn hMode)
  have hWords := hLater.words
  dsimp only at hText hHead hSame hWords
  generalize hTail :
    ticked marks (p₀.afterAll (c :: text)).offset post =
      tail at hTicked hText hHead hSame hWords
  constructor
  · intro p
    rw [← hSame] at hMore hKind
    dsimp only
    rw [← List.cons_append, hTicked, List.cons_append,
      tokens_of_token hMore hKind]
    rw [hSame] at hMore hKind
    rw [List.cons_append, tokens_of_token hMore hKind,
      List.map_cons, List.map_cons, hWords, Token.respelled,
      hPlain]
    rfl
  · intro hMode
    dsimp only
    rw [← List.cons_append, hTicked]
    exact textView_of_tail hMode hKind hText
  · intro _
    dsimp only
    rw [← List.cons_append, hTicked]
    exact .cons hHead c text

/- A chosen name gets its back-tick. -/
theorem name
    (hMore :
      (lexeme es c (text ++ post)).more = text.length)
    (hKind : (lexeme es c (text ++ post)).kind = some kind)
    (hChosen :
      Token.isRespelled chosen
        ⟨kind, String.ofList (c :: text),
          ⟨p₀, p₀.afterAll (c :: text)⟩⟩)
    (hMark : marks p₀.offset)
    (hNone :
      ∀ n,
        p₀.offset < n →
          n < p₀.offset + utf8Length (c :: text) →
            marks n = false)
    (hLater :
      Respells
        ⟨p₀.afterAll (c :: text), Enclosure.after kind es,
          post⟩
        chosen marks) :
    Respells ⟨p₀, es, c :: (text ++ post)⟩ chosen
      marks := by
  have hUnescaped := (Bool.and_eq_true_iff.1 hChosen).1
  obtain ⟨hName, hOther⟩ :=
    TokenKind.isName_of_isUnescaped hUnescaped
  have hMode := mode_of_isName hKind hName
  have hNoText {P : Prop} :
      Mode.ofEnclosures es = .text → P :=
    fun hText => absurd hText hMode
  have hSame :=
    lexeme_of_tail hMore hKind
      (fun hText => hLater.view hText)
      fun hInCode hMore _ =>
        codeLexeme_of_goesOn hMore (hLater.goesOn hInCode)
  have hWords := hLater.words
  rw [Enclosure.after_of_isName hName] at hWords
  have hTicked := ticked_marked hMark hNone post
  rw [← Position.offset_afterAll] at hTicked
  dsimp only at hSame hWords
  generalize hTail :
    ticked marks (p₀.afterAll (c :: text)).offset post =
      tail at hTicked hSame hWords
  -- The name ends where it ended before.
  have hRun :
      isWordStart c ∧
        countWhile isWordPart (text ++ tail) =
          text.length := by
    have hThere := hKind
    rw [← hSame] at hMore hThere
    rw [lexeme_of_isName hThere hName] at hMore hThere
    have hWord := codeLexeme_of_isName hThere hName
    rw [if_neg hOther] at hWord
    exact ⟨hWord.2, hWord.1.symm.trans hMore⟩
  have hTick := lexeme_tick hMode hRun.1 hRun.2
  constructor
  · intro p
    dsimp only
    rw [← List.cons_append, hTicked,
      tokens_of_token (congrArg Lexeme.more hTick)
        (congrArg Lexeme.kind hTick),
      List.cons_append, tokens_of_token hMore hKind,
      List.map_cons, List.map_cons,
      Enclosure.after_of_isName hName,
      Enclosure.after_of_isName (by rfl), hWords,
      Token.respelled, if_pos hChosen]
    unfold Token.word
    rw [ofList_tick]
  · exact hNoText
  · intro _
    dsimp only
    rw [← List.cons_append, hTicked]
    exact .tick hRun.1

end Respells

/-
  Marks that stand where the chosen names start spell the
  text anew.  The induction is on the text; what follows a
  lexeme looks alike or goes on alike, so that the lexeme
  stays.
-/
theorem respells
    {l : Lexer}
    {chosen : Token → Bool}
    {marks : Nat → Bool}
    (hMarked : l.IsMarked chosen marks) :
    l.Respells chosen marks := by
  induction hLength : l.rest.length using Nat.strongRecOn
    generalizing l with
  | ind n ih =>
      subst hLength
      obtain ⟨p₀, es, rest⟩ := l
      cases rest with
      | nil =>
          refine ⟨fun p => ?_, fun _ => rfl, fun _ => .nil⟩
          dsimp only
          rw [ticked, tokens_of_end rfl, tokens_of_end rfl]
          rfl
      | cons c cs =>
          obtain ⟨text, post, rfl, hCount⟩ :=
            exists_split_lexeme es c cs
          have hShorter :
              post.length <
                (c :: (text ++ post)).length := by
            rw [List.length_cons, List.length_append]
            omega
          cases hKind :
              (lexeme es c (text ++ post)).kind with
          | none =>
              obtain ⟨hLater, hNone⟩ :=
                hMarked.gap hCount hKind
              exact .gap hCount hKind hNone
                (ih _ hShorter hLater rfl)
          | some kind =>
              obtain ⟨hMarkedLater, hNone, hHere⟩ :=
                hMarked.token hCount hKind
              have hLater := ih _ hShorter hMarkedLater rfl
              cases hMark : marks p₀.offset with
              | true =>
                  rw [hMark] at hHere
                  exact .name hCount hKind hHere.symm hMark
                    hNone hLater
              | false =>
                  rw [hMark] at hHere
                  refine .token hCount hKind hHere.symm
                    (fun n hFrom hTo => ?_) hLater
                  rcases Nat.eq_or_lt_of_le hFrom with
                    rfl | hFrom
                  · exact hMark
                  · exact hNone n hFrom hTo

end Lexer

/-
  The source with back-ticks in front of chosen names has
  the same tokens, but for the chosen ones.
-/
theorem words_tokenize_respelled
    (chosen : Token → Bool)
    (source : String)
    (file? : Option String) :
    (tokenize (respelled chosen source) file?).map
        Token.word =
      (tokenize source none).map
        (Token.respelled chosen) := by
  have hSpells :
      (Lexer.start source none).Respells chosen
        (isTicked chosen (tokenize source none)) :=
    Lexer.respells fun _ _ => rfl
  unfold tokenize respelled Lexer.start
  rw [String.toList_ofList]
  exact hSpells.words _

end SourceCheck
