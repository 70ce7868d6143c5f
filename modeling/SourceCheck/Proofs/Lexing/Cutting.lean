import SourceCheck.Proofs.Lexing.Depth
import SourceCheck.Proofs.Lexing.Places
import SourceCheck.Proofs.Lexing.Reading

/-
  Cutting a text behind a token.

  A lexeme looks no further than its own end: what is cut
  off behind it does not change it.  A part of a text in
  which all strings are closed is read alone as it is read
  within the text, up to the braces that are open around it.

  Key definitions include:
    * `Within`

  Key theorems include:
    * `lexeme_cut`
    * `Lexer.Reads.cut`
    * `words_tokenize_slice`
-/

namespace SourceCheck

------------------------------------------------------------
-- Runs of characters
------------------------------------------------------------

section Runs

variable {p : Char → Bool}
variable {cs post : List Char}

/- A run that ends in time is not changed. -/
theorem takeWhile_cut
    (hShort : countWhile p (cs ++ post) ≤ cs.length) :
    cs.takeWhile p = (cs ++ post).takeWhile p := by
  unfold countWhile at hShort
  rw [List.takeWhile_append] at hShort ⊢
  split at hShort
  · rename_i hAll
    have hNone : post.takeWhile p = [] := by
      rw [List.length_append] at hShort
      exact List.eq_nil_of_length_eq_zero (by omega)
    rw [if_pos hAll, hNone, List.append_nil]
    exact (List.takeWhile_sublist p).eq_of_length hAll
  · rename_i hSome
    rw [if_neg hSome]

theorem countWhile_cut
    (hShort : countWhile p (cs ++ post) ≤ cs.length) :
    countWhile p cs = countWhile p (cs ++ post) :=
  congrArg List.length (takeWhile_cut hShort)

/- A run never gets longer by what is cut off. -/
theorem countWhile_le_append
    (p : Char → Bool)
    (cs post : List Char) :
    countWhile p cs ≤ countWhile p (cs ++ post) := by
  unfold countWhile
  rw [List.takeWhile_append]
  split
  · rename_i hAll
    rw [hAll, List.length_append]
    exact Nat.le_add_right _ _
  · exact Nat.le_refl _

theorem head?_cut (hSome : cs ≠ []) :
    cs.head? = (cs ++ post).head? := by
  cases cs with
  | nil => exact absurd rfl hSome
  | cons c cs => rfl

end Runs

------------------------------------------------------------
-- Code
------------------------------------------------------------

variable {c : Char}
variable {cs post : List Char}

theorem symbol_cut
    (hShort : (symbol c (cs ++ post)).more ≤ cs.length) :
    symbol c cs = symbol c (cs ++ post) := by
  cases cs with
  | cons d cs => rfl
  | nil =>
      unfold symbol at hShort ⊢
      split at hShort
      · cases hShort
      · rfl

theorem longMark_cut
    (hShort : longMark (cs ++ post) ≤ cs.length) :
    longMark cs = longMark (cs ++ post) := by
  cases cs with
  | cons d cs => rfl
  | nil => exact (Nat.le_zero.1 hShort).symm

theorem le_more_intOfDigits
    (digits : Nat)
    (cs : List Char) :
    digits ≤ (intOfDigits digits cs).more :=
  Nat.le_add_right _ _

theorem intOfDigits_cut
    {digits : Nat}
    {cs post : List Char}
    (hDigits : digits ≤ cs.length)
    (hShort :
      (intOfDigits digits (cs ++ post)).more ≤ cs.length) :
    intOfDigits digits cs =
      intOfDigits digits (cs ++ post) := by
  unfold intOfDigits at hShort ⊢
  rw [List.drop_append_of_le_length hDigits] at hShort ⊢
  rw [longMark_cut]
  rw [List.length_drop]
  exact Nat.le_sub_of_add_le (by
    rw [Nat.add_comm]
    exact hShort)

/- A run behind a mark that needs one is not cut off. -/
theorem markedRun_cut
    {p : Char → Bool}
    {m : Bool}
    (hShort :
      (m && countWhile p (cs ++ post) ≠ 0) = true →
        countWhile p (cs ++ post) ≤ cs.length) :
    (m && countWhile p cs ≠ 0) =
        (m && countWhile p (cs ++ post) ≠ 0) ∧
      ((m && countWhile p (cs ++ post) ≠ 0) = true →
        countWhile p cs = countWhile p (cs ++ post)) := by
  have hLess := countWhile_le_append p cs post
  by_cases hRun :
      (m && countWhile p (cs ++ post) ≠ 0) = true
  · have hSame := countWhile_cut (hShort hRun)
    exact ⟨by rw [hSame], fun _ => hSame⟩
  · refine ⟨?_, fun hThere => absurd hThere hRun⟩
    cases m with
    | false => rfl
    | true =>
        have hNone : countWhile p (cs ++ post) = 0 := by
          simpa using hRun
        rw [hNone] at hLess
        rw [hNone, Nat.le_zero.1 hLess]

theorem intLexeme_cut
    (hShort : (intLexeme c (cs ++ post)).more ≤ cs.length) :
    intLexeme c cs = intLexeme c (cs ++ post) := by
  have hFits {digits : Nat} {ds : List Char}
      (hMore : (intOfDigits digits ds).more ≤ cs.length) :
      digits ≤ cs.length :=
    Nat.le_trans (le_more_intOfDigits digits ds) hMore
  unfold intLexeme at hShort ⊢
  by_cases hZero : c = '0'
  · rw [if_pos hZero] at hShort ⊢
    rw [if_pos hZero]
    cases cs with
    | nil =>
        cases post with
        | nil => rfl
        | cons r ds =>
            dsimp only [List.nil_append] at hShort ⊢
            split at hShort
            · exact absurd (hFits hShort) nofun
            · split at hShort
              · exact absurd (hFits hShort) nofun
              · rename_i hHex hBinary
                rw [if_neg hHex, if_neg hBinary]
                exact intOfDigits_cut
                  (Nat.zero_le _) hShort
    | cons r ds =>
        dsimp only [List.cons_append] at hShort ⊢
        have hHex :=
          markedRun_cut (p := isHexPart)
            (m := (r = 'x' || r = 'X')) (fun hThere => by
              rw [if_pos hThere] at hShort
              exact Nat.le_of_succ_le_succ (hFits hShort))
        rw [hHex.1]
        split at hShort
        · rename_i hThere
          rw [if_pos hThere, if_pos hThere, hHex.2 hThere]
          exact intOfDigits_cut
            (hFits hShort) hShort
        · rename_i hNot
          rw [if_neg hNot, if_neg hNot]
          have hBinary :=
            markedRun_cut (p := isBinaryPart)
              (m := (r = 'b' || r = 'B')) (fun hThere => by
                rw [if_pos hThere] at hShort
                exact Nat.le_of_succ_le_succ (hFits hShort))
          rw [hBinary.1]
          split at hShort
          · rename_i hThere
            rw [if_pos hThere, if_pos hThere,
              hBinary.2 hThere]
            exact intOfDigits_cut
              (hFits hShort) hShort
          · rename_i hNone
            rw [if_neg hNone, if_neg hNone]
            exact intOfDigits_cut
              (Nat.zero_le _) hShort
  · rw [if_neg hZero] at hShort ⊢
    rw [if_neg hZero]
    have hRun :
        countWhile isDecimalPart (cs ++ post) ≤ cs.length :=
      hFits hShort
    rw [countWhile_cut hRun]
    exact intOfDigits_cut hRun hShort

theorem wordLexeme_cut
    (hShort : (wordLexeme c (cs ++ post)).more ≤ cs.length) :
    wordLexeme c cs = wordLexeme c (cs ++ post) := by
  unfold wordLexeme at hShort ⊢
  rw [takeWhile_cut hShort, countWhile_cut hShort]

/- Both slashes of a comment belong to it. -/
theorem isComment_cut
    (hShort :
      (c = '/' && (cs ++ post).head? = some '/') = true →
        countWhile (· != '\n') (cs ++ post) ≤ cs.length) :
    (c = '/' && cs.head? = some '/') =
      (c = '/' && (cs ++ post).head? = some '/') := by
  cases cs with
  | cons d ds => rfl
  | nil =>
      have hEmpty : ¬ ([] : List Char).head? = some '/' :=
        nofun
      rw [decide_eq_false hEmpty, Bool.and_false]
      apply Eq.symm
      apply eq_false_of_ne_true
      intro hThere
      have hNone := hShort hThere
      rw [Bool.and_eq_true, decide_eq_true_eq,
        decide_eq_true_eq, List.nil_append,
        List.head?_eq_some_iff] at hThere
      rcases hThere with ⟨-, rest, rfl⟩
      exact absurd hNone (by
        rw [List.nil_append, countWhile,
          List.takeWhile_cons_of_pos (by decide)]
        exact nofun)

theorem codeLexeme_cut
    (hShort : (codeLexeme c (cs ++ post)).more ≤ cs.length) :
    codeLexeme c cs = codeLexeme c (cs ++ post) := by
  unfold codeLexeme at hShort ⊢
  by_cases hGap : isGap c
  · rw [if_pos hGap] at hShort ⊢
    rw [if_pos hGap, countWhile_cut hShort]
  rw [if_neg hGap] at hShort ⊢
  rw [if_neg hGap]
  have hComment :
      (c = '/' && cs.head? = some '/') =
        (c = '/' && (cs ++ post).head? = some '/') := by
    refine isComment_cut fun hThere => ?_
    rw [if_pos hThere] at hShort
    exact hShort
  rw [hComment]
  split at hShort
  · rename_i hThere
    rw [if_pos hThere, if_pos hThere, countWhile_cut hShort]
  rename_i hNot
  rw [if_neg hNot, if_neg hNot]
  by_cases hWord : isWordStart c
  · rw [if_pos hWord] at hShort ⊢
    rw [if_pos hWord, wordLexeme_cut hShort]
  rw [if_neg hWord] at hShort ⊢
  rw [if_neg hWord]
  by_cases hDigit : c.isDigit
  · rw [if_pos hDigit] at hShort ⊢
    rw [if_pos hDigit, intLexeme_cut hShort]
  rw [if_neg hDigit] at hShort ⊢
  rw [if_neg hDigit]
  have hEscaped :=
    markedRun_cut (p := isWordPart) (m := (c = '\x60'))
      (fun hThere => by
        rw [if_pos hThere] at hShort
        exact hShort)
  rw [hEscaped.1]
  split at hShort
  · rename_i hThere
    rw [if_pos hThere, if_pos hThere, hEscaped.2 hThere]
  · rename_i hNone
    rw [if_neg hNone, if_neg hNone, symbol_cut hShort]

------------------------------------------------------------
-- Strings
------------------------------------------------------------

/- The escape behind an opening brace. -/
def bracedLexeme (cs : List Char) : Lexeme :=
  if (cs.drop (countWhile isWordPart cs)).head? =
      some '\x7d' then
    .token .escapeSequence (countWhile isWordPart cs + 3)
  else
    .token .unexpectedCharacter 0

/- A run ends where the next character ends it. -/
theorem countWhile_append_of_stop
    {p : Char → Bool}
    {d : Char}
    (hStop : (cs.drop (countWhile p cs)).head? = some d)
    (post : List Char) :
    countWhile p (cs ++ post) = countWhile p cs ∧
      ((cs ++ post).drop (countWhile p cs)).head? =
        some d := by
  have hLess : countWhile p cs < cs.length := by
    apply Nat.lt_of_not_le
    intro hLong
    rw [List.drop_eq_nil_of_le hLong] at hStop
    cases hStop
  constructor
  · unfold countWhile at hLess ⊢
    rw [List.takeWhile_append,
      if_neg (Nat.ne_of_lt hLess)]
  · rw [List.drop_append_of_le_length (Nat.le_of_lt hLess),
      List.head?_append, hStop]
    rfl

theorem bracedLexeme_cut
    (hShort :
      (bracedLexeme (cs ++ post)).more ≤ cs.length + 2) :
    bracedLexeme cs = bracedLexeme (cs ++ post) := by
  unfold bracedLexeme at hShort ⊢
  by_cases hStop :
      (cs.drop (countWhile isWordPart cs)).head? =
        some '\x7d'
  · have hSame := countWhile_append_of_stop hStop post
    rw [if_pos hStop, hSame.1, if_pos hSame.2]
  · rw [if_neg hStop]
    split at hShort
    · rename_i hThere
      have hRun :
          countWhile isWordPart (cs ++ post) < cs.length :=
        Nat.lt_of_add_lt_add_right (n := 2) hShort
      have hSame := countWhile_cut (Nat.le_of_lt hRun)
      rw [← hSame] at hThere hRun
      rw [List.drop_append_of_le_length (Nat.le_of_lt hRun),
        ← head?_cut] at hThere
      · exact absurd hThere hStop
      · intro hNone
        exact absurd (List.drop_eq_nil_iff.1 hNone)
          (Nat.not_le.2 hRun)
    · rename_i hNone
      rw [if_neg hNone]

/- A lexeme that is too short for an escape is none. -/
theorem bracedLexeme_of_short
    (hShort : (bracedLexeme cs).more ≤ 2) :
    bracedLexeme cs = .token .unexpectedCharacter 0 := by
  unfold bracedLexeme at hShort ⊢
  split at hShort
  · exact absurd (Nat.le_trans (Nat.le_add_left _ _) hShort)
      (Nat.not_succ_le_self 2)
  · rename_i hNone
    rw [if_neg hNone]

/- The escape of a code point has four digits, or braces. -/
theorem codePointLexeme_eq (cs : List Char) :
    codePointLexeme cs =
      if countWhile isHexDigit (cs.take 4) = 4 then
        .token .escapeSequence 5
      else if cs.head? = some '\x7b' then
        bracedLexeme cs.tail
      else
        .token .unexpectedCharacter 0 := by
  unfold codePointLexeme
  split
  · rfl
  · split
    · rfl
    · rename_i hNone
      rw [if_neg]
      intro hHead
      rcases List.head?_eq_some_iff.1 hHead with ⟨ds, rfl⟩
      exact hNone ds rfl

theorem codePointLexeme_cut
    (hShort :
      (codePointLexeme (cs ++ post)).more ≤ cs.length + 1) :
    codePointLexeme cs = codePointLexeme (cs ++ post) := by
  rw [codePointLexeme_eq] at hShort
  rw [codePointLexeme_eq, codePointLexeme_eq]
  have hTake (hLong : 4 ≤ cs.length) :
      (cs ++ post).take 4 = cs.take 4 :=
    List.take_append_of_le_length hLong
  by_cases hDigits :
      countWhile isHexDigit ((cs ++ post).take 4) = 4
  · rw [if_pos hDigits] at hShort ⊢
    rw [hTake (Nat.le_of_succ_le_succ hShort)] at hDigits
    rw [if_pos hDigits]
  · have hNone :
        countWhile isHexDigit (cs.take 4) ≠ 4 := by
      intro hThere
      have hRun :=
        countWhile_le_length isHexDigit (cs.take 4)
      rw [hThere, List.length_take] at hRun
      rw [hTake (by omega)] at hDigits
      exact hDigits hThere
    rw [if_neg hDigits] at hShort ⊢
    rw [if_neg hNone]
    cases cs with
    | nil =>
        rw [if_neg nofun]
        split at hShort
        · rename_i hBrace
          have hLess := Nat.le_succ_of_le hShort
          rw [if_pos hBrace, bracedLexeme_of_short hLess]
        · rename_i hOther
          rw [if_neg hOther]
    | cons d ds =>
        have hHead :
            (d :: ds).head? = (d :: ds ++ post).head? :=
          rfl
        rw [hHead]
        by_cases hBrace :
            (d :: ds ++ post).head? = some '\x7b'
        · rw [if_pos hBrace] at hShort ⊢
          rw [if_pos hBrace]
          exact bracedLexeme_cut hShort
        · rw [if_neg hBrace, if_neg hBrace]

/- What a backslash begins is longer, unless it is nothing. -/
theorem backslashLexeme_of_short
    (hShort : (backslashLexeme cs).more ≤ 0) :
    backslashLexeme cs = .token .unexpectedCharacter 0 := by
  generalize hPiece : backslashLexeme cs = piece at hShort ⊢
  unfold backslashLexeme at hPiece
  split at hPiece
  case h_2 =>
    rw [codePointLexeme_eq] at hPiece
    split at hPiece
    · rw [← hPiece] at hShort
      exact absurd hShort nofun
    · split at hPiece
      · rw [← hPiece] at hShort
        have hLess := Nat.le_trans hShort (Nat.zero_le 2)
        rw [← hPiece, bracedLexeme_of_short hLess]
      · exact hPiece.symm
  case h_8 => exact hPiece.symm
  all_goals
    rw [← hPiece] at hShort
    exact absurd hShort nofun

theorem backslashLexeme_cut
    (hShort :
      (backslashLexeme (cs ++ post)).more ≤ cs.length) :
    backslashLexeme cs = backslashLexeme (cs ++ post) := by
  cases cs with
  | nil => rw [backslashLexeme_of_short hShort]; rfl
  | cons d ds =>
      by_cases hCode : d = 'u'
      · subst hCode
        exact codePointLexeme_cut hShort
      · unfold backslashLexeme
        split <;> split <;> simp_all

theorem textLexeme_cut
    (hShort : (textLexeme c (cs ++ post)).more ≤ cs.length) :
    textLexeme c cs = textLexeme c (cs ++ post) := by
  unfold textLexeme at hShort ⊢
  split at hShort
  · rename_i hQuote
    rw [if_pos hQuote, if_pos hQuote]
  · rename_i hOther
    rw [if_neg hOther, if_neg hOther]
    split at hShort
    · rename_i hBackslash
      rw [if_pos hBackslash, if_pos hBackslash]
      exact backslashLexeme_cut hShort
    · rename_i hContent
      rw [if_neg hContent, if_neg hContent,
        countWhile_cut hShort]

/- A lexeme is the same if the text is cut behind it. -/
theorem lexeme_cut
    {es : List Enclosure}
    (hShort : (lexeme es c (cs ++ post)).more ≤ cs.length) :
    lexeme es c cs = lexeme es c (cs ++ post) := by
  unfold lexeme at hShort ⊢
  split at hShort
  · exact textLexeme_cut hShort
  · split at hShort
    · rename_i hClose
      rw [if_pos hClose, if_pos hClose]
    · rename_i hOther
      rw [if_neg hOther, if_neg hOther]
      exact codeLexeme_cut hShort
  · exact codeLexeme_cut hShort

------------------------------------------------------------
-- Parts of a text
------------------------------------------------------------

namespace Enclosure

variable {kind : TokenKind}
variable {depth : Nat}

/- Only the innermost of what is open is changed. -/
theorem after_cons_append
    (kind : TokenKind)
    (e : Enclosure)
    (es outer : List Enclosure) :
    after kind (e :: es ++ outer) =
      after kind (e :: es) ++ outer := by
  match e with
  | .text => cases kind <;> rfl
  | .template 0 => cases kind <;> rfl
  | .template (_ + 1) => cases kind <;> rfl

/- As many are open as the depth says. -/
theorem length_after
    {es : List Enclosure}
    (hDepth : kind.deepen es.length = some depth) :
    (after kind es).length = depth := by
  match es with
  | [] => cases kind <;> cases hDepth <;> rfl
  | .text :: _ => cases kind <;> cases hDepth <;> rfl
  | .template 0 :: _ => cases kind <;> cases hDepth <;> rfl
  | .template (_ + 1) :: _ =>
      cases kind <;> cases hDepth <;> rfl

end Enclosure

/-
  What is open in a part of a text, and what is open in the
  whole text there.  Around the part no string is open
  innermost.
-/
def Within (own inside : List Enclosure) : Prop :=
  ∃ outer,
    inside = own ++ outer ∧ Mode.ofEnclosures outer ≠ .text

namespace Within

variable {own inside : List Enclosure}
variable {kind : TokenKind}

/- Both take the same lexeme, unless the part is left. -/
theorem lexeme_eq
    (hWithin : Within own inside)
    (hKind :
      own = [] →
        (lexeme inside c cs).kind ≠
          some .stringTemplateEnd) :
    lexeme own c cs = lexeme inside c cs := by
  rcases hWithin with ⟨outer, rfl, hMode⟩
  match own, outer with
  | .text :: _, _ => rfl
  | .template 0 :: _, _ => rfl
  | .template (_ + 1) :: _, _ => rfl
  | [], [] => rfl
  | [], .text :: _ => exact absurd rfl hMode
  | [], .template (_ + 1) :: _ => rfl
  | [], .template 0 :: es =>
      have hLexeme :
          lexeme (.template 0 :: es) c cs =
            if c = '\x7d' then
              .token .stringTemplateEnd 0
            else
              codeLexeme c cs :=
        rfl
      have hNot := hKind rfl
      rw [List.nil_append, hLexeme] at hNot ⊢
      by_cases hClose : c = '\x7d'
      · rw [if_pos hClose] at hNot
        exact absurd rfl hNot
      · rw [if_neg hClose]
        rfl

/- Outside of all strings only braces are changed. -/
theorem after_nil
    {depth : Nat}
    {outer : List Enclosure}
    (hMode : Mode.ofEnclosures outer ≠ .text)
    (hDepth : kind.deepen 0 = some depth) :
    Within (Enclosure.after kind [])
      (Enclosure.after kind outer) := by
  have hBraces :
      Enclosure.after kind [] = [] →
        Mode.ofEnclosures (Enclosure.after kind outer) ≠
          .text := by
    intro hNone hText
    match outer with
    | [] =>
        cases kind <;> cases hText
        cases hNone
    | .text :: _ => exact absurd rfl hMode
    | .template 0 :: _ =>
        cases kind <;>
          first
          | cases hDepth; done
          | cases hText; done
          | cases hNone
    | .template (_ + 1) :: _ =>
        cases kind <;>
          first
          | cases hDepth; done
          | cases hText; done
          | cases hNone
  cases hOpened : Enclosure.after kind [] with
  | nil => exact ⟨_, rfl, hBraces hOpened⟩
  | cons e es =>
      refine ⟨outer, ?_, hMode⟩
      cases kind <;> cases hOpened <;> rfl

/- Both open and close the same, unless the part is left. -/
theorem after
    {depth : Nat}
    (hWithin : Within own inside)
    (hDepth : kind.deepen own.length = some depth) :
    Within (Enclosure.after kind own)
      (Enclosure.after kind inside) := by
  rcases hWithin with ⟨outer, rfl, hMode⟩
  cases own with
  | nil => exact after_nil hMode hDepth
  | cons e es =>
      exact ⟨outer, Enclosure.after_cons_append kind e es outer,
        hMode⟩

end Within

------------------------------------------------------------
-- Reading a part
------------------------------------------------------------

namespace Lexer

/- The lexeme in front of a part is the one of the part. -/
theorem lexeme_of_part
    {own inside : List Enclosure}
    {post : List Char}
    (hWithin : Within own inside)
    (hKind :
      own = [] →
        (lexeme inside c (cs ++ post)).kind ≠
          some .stringTemplateEnd)
    (hShort :
      (lexeme inside c (cs ++ post)).more ≤ cs.length) :
    lexeme own c cs = lexeme inside c (cs ++ post) := by
  have hSame := hWithin.lexeme_eq hKind
  rw [← hSame] at hShort ⊢
  exact lexeme_cut hShort

theorem words_made (l : Lexer) (piece : Lexeme) :
    (l.made piece).map Token.word =
      piece.kind.toList.map fun kind =>
        (kind, String.ofList (l.word piece)) := by
  unfold made
  rw [List.map_map]
  rfl

/-
  A part of a text that closes all strings that it opens,
  and no other ones, is read alone as it is read there.
-/
theorem Reads.cut
    {l l' : Lexer}
    {ts : List Token}
    (hReads : Reads l ts l') :
    ∀ {own text depth},
      Within own l.enclosures →
        l.rest = text ++ l'.rest →
          depthAfter own.length ts = some depth →
            ∀ p,
              ∃ us l'',
                Reads ⟨p, own, text⟩ us l'' ∧
                  l''.rest = [] ∧
                    us.map Token.word =
                      ts.map Token.word := by
  induction hReads with
  | @done l =>
      intro own text depth _ hText _ p
      have hNone : text = [] := List.self_eq_append_left.1 hText
      subst hNone
      exact ⟨[], _, .done, rfl, rfl⟩
  | @next l c cs ts l' hRest hReads ih =>
      intro own text depth hWithin hText hDepth p
      rcases hReads.exists_rest with ⟨later, hLater, -⟩
      generalize hPiece : lexeme l.enclosures c cs = piece
        at hDepth hLater ih ⊢
      obtain ⟨front, hFront, rfl, rfl⟩ :
          ∃ front,
            front.length = piece.more ∧
              cs = front ++ later ++ l'.rest ∧
                text = c :: (front ++ later) := by
        have hMore := more_lexeme_le l.enclosures c cs
        rw [hPiece] at hMore
        unfold pass at hLater
        rw [hRest, List.drop_succ_cons] at hLater
        have hCs :
            cs =
              cs.take piece.more ++ later ++ l'.rest := by
          rw [List.append_assoc, ← hLater,
            List.take_append_drop]
        refine ⟨cs.take piece.more,
          List.length_take_of_le hMore, hCs, ?_⟩
        refine (List.append_left_inj l'.rest).1 ?_
        rw [← hText, hRest, List.cons_append, ← hCs]
      have hShort : piece.more ≤ (front ++ later).length := by
        rw [List.length_append, hFront]
        exact Nat.le_add_right _ _
      have hAfter :
          Within (enclosuresAfter piece.kind own)
              (l.pass piece).enclosures ∧
            depthAfter
                (enclosuresAfter piece.kind own).length ts =
              some depth ∧
            (own = [] →
              piece.kind ≠ some .stringTemplateEnd) := by
        unfold made at hDepth
        unfold pass
        cases hKind : piece.kind with
        | none =>
            rw [hKind] at hDepth
            exact ⟨hWithin, hDepth, fun _ => nofun⟩
        | some kind =>
            rw [hKind] at hDepth
            rcases Option.bind_eq_some_iff.1
              ((depthAfter_cons _ _ _).symm.trans hDepth) with
              ⟨d, hDeepen, hLast⟩
            refine ⟨hWithin.after hDeepen, ?_, ?_⟩
            · rw [← Enclosure.length_after hDeepen] at hLast
              exact hLast
            · rintro rfl hEnd
              cases hEnd
              cases hDeepen
      rcases hAfter with ⟨hInside, hRest, hKind⟩
      have hSame :
          lexeme own c (front ++ later) = piece := by
        rw [← hPiece] at hKind hShort ⊢
        exact lexeme_of_part hWithin hKind hShort
      rcases ih hInside hLater hRest
        (p.afterAll (c :: front)) with
        ⟨us, l'', hCut, hEnd, hWords⟩
      have hWord {k : Lexer} {post : List Char}
          (hThere : k.rest = c :: (front ++ post)) :
          k.word piece = c :: front := by
        unfold word
        rw [hThere, List.take_succ_cons, ← hFront,
          List.take_left]
      have hPass :
          pass ⟨p, own, c :: (front ++ later)⟩ piece =
            ⟨p.afterAll (c :: front),
              enclosuresAfter piece.kind own, later⟩ := by
        unfold pass
        rw [hWord rfl, List.drop_succ_cons, ← hFront,
          List.drop_left]
      have hRead :
          Reads
            (pass ⟨p, own, c :: (front ++ later)⟩
              (lexeme own c (front ++ later)))
            us l'' := by
        rw [hSame, hPass]
        exact hCut
      refine ⟨_, l'', .next rfl hRead, hEnd, ?_⟩
      rw [List.cons_append, List.append_assoc] at hText
      dsimp only
      rw [List.map_append, List.map_append, hWords, hSame,
        words_made, words_made, hWord rfl, hWord hText]

end Lexer

------------------------------------------------------------
-- Parts between tokens
------------------------------------------------------------

/- Kinds of tokens that only stand directly in strings. -/
def TokenKind.isInText (kind : TokenKind) : Bool :=
  kind.isText || kind = .stringTemplateStart ||
    kind = .stringEnd

/- The lexeme that makes a token. -/
theorem Lexer.eq_of_made
    {l : Lexer}
    {piece : Lexeme}
    {t : Token}
    (hMade : l.made piece = [t]) :
    piece.kind = some t.kind ∧ t.span.start = l.position := by
  unfold made at hMade
  cases hKind : piece.kind with
  | none =>
      rw [hKind] at hMade
      cases hMade
  | some kind =>
      rw [hKind] at hMade
      cases hMade
      exact ⟨rfl, rfl⟩

theorem isInText_of_mode
    {es : List Enclosure}
    {kind : TokenKind}
    (hFits : kind.fits es)
    (hMode : Mode.ofEnclosures es = .text) :
    kind.isInText := by
  match es with
  | [] => cases hMode
  | .text :: _ => exact hFits
  | .template _ :: _ => cases hMode

/-
  The part from one token of a text to another has the same
  tokens, if it closes all strings that it opens, and starts
  directly in none.
-/
theorem words_tokenize_slice
    {source : String}
    {file? : Option String}
    {before ts back : List Token}
    {first last : Token}
    (hTokens :
      tokenize source file? = before ++ (ts ++ back))
    (hFirst : ts.head? = some first)
    (hLast : ts.getLast? = some last)
    (hBack : back ≠ [])
    (hCode : first.kind.isInText = false)
    (hDepth : depthAfter 0 ts = some 0)
    (other? : Option String) :
    (tokenize
        (slice source first.span.start.offset
          last.span.stop.offset)
        other?).map Token.word =
      ts.map Token.word ++ [(.eof, "EOF")] := by
  obtain ⟨us, rfl⟩ : ∃ us, ts = first :: us := by
    cases ts with
    | nil => cases hFirst
    | cons t us =>
        cases hFirst
        exact ⟨us, rfl⟩
  rcases Lexer.reads_of_tokens hTokens nofun with
    ⟨l, hBefore, hSame, -⟩
  rcases Lexer.tokens_eq_cons hSame with
    ⟨m, hGap, hHere, hNext⟩
  rcases hNext with
    ⟨-, hNone⟩ | ⟨c, cs, hRest, hMade, -⟩
  · exact absurd (List.append_eq_nil_iff.1 hNone).2 hBack
  -- The part stands between two states of the lexer.
  change m.tokens = first :: us ++ back at hHere
  rcases Lexer.reads_of_tokens hHere hBack with
    ⟨r, hReads, -, hStop⟩
  rw [hLast] at hStop
  rcases (hBefore.trans hGap).exists_rest with
    ⟨pre, hPre, hStart⟩
  rcases hReads.exists_rest with ⟨text, hText, hEnd⟩
  have hMarks :=
    (Position.marks_first (file?.getD Lexer.unnamed)).afterAll
      pre
  rcases Lexer.eq_of_made hMade with ⟨hKind, hStartAt⟩
  have hSlice :
      slice source first.span.start.offset
          last.span.stop.offset =
        String.ofList text := by
    have hSource :
        source.toList = pre ++ text ++ r.rest := by
      rw [List.append_assoc, ← hText]
      exact hPre
    have hFrom : m.position.offset = utf8Length pre := by
      rw [hStart]
      exact hMarks.offset
    have hTo :
        last.span.stop.offset = utf8Length (pre ++ text) := by
      have hAll := (hMarks.afterAll text).offset
      change r.position = last.span.stop at hStop
      rw [← hStop, hEnd, hStart]
      exact hAll
    rw [hStartAt, hFrom, hTo]
    exact slice_of_append hSource
  have hWithin : Within [] m.enclosures := by
    refine ⟨m.enclosures, rfl, fun hMode => ?_⟩
    rw [isInText_of_mode (fits_lexeme hKind) hMode] at hCode
    cases hCode
  rcases hReads.cut hWithin hText hDepth
      (Position.first (other?.getD Lexer.unnamed)) with
    ⟨vs, r', hCut, hNothing, hWords⟩
  have hAlone :
      tokenize (String.ofList text) other? =
        vs ++ r'.tokens := by
    rw [← hCut.tokens_eq]
    unfold tokenize Lexer.start
    rw [String.toList_ofList]
  rw [hSlice, hAlone, List.map_append, hWords,
    Lexer.tokens_of_end hNothing]
  rfl

end SourceCheck
