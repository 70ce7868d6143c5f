import SourceCheck.Proofs.Lexing.Cutting

/-
  Characters that end lexemes.

  Blanks, quotes and backslashes go on no lexeme of code but
  blanks and comments, and no escape of a string.  So what
  stands behind such a character does not change the lexeme
  in front of it.

  A back-tick goes on no lexeme of code either, but comments.

  Key definitions include:
    * `breaks`
    * `codeBreaks`

  Key theorems include:
    * `more_codeLexeme_break`
    * `more_backslashLexeme_break`
-/

namespace SourceCheck

/- The characters that end lexemes. -/
def breaks : List Char :=
  [' ', '\t', '\r', '\n', '\x0c', '"', '\\']

/- The characters that end lexemes of code. -/
def codeBreaks : List Char :=
  '\x60' :: breaks

section Breaks

variable {c d : Char}
variable {cs post : List Char}

------------------------------------------------------------
-- Runs
------------------------------------------------------------

/- A run ends before a character that is not of its class. -/
theorem countWhile_le_of_stop
    {p : Char → Bool}
    (hStop : p d = false)
    (cs post : List Char) :
    countWhile p (cs ++ d :: post) ≤ cs.length := by
  unfold countWhile
  rw [List.takeWhile_append, List.takeWhile_cons, hStop]
  split
  · rw [if_neg nofun, List.append_nil]
  · exact (List.takeWhile_sublist p).length_le

/- No class that goes on a lexeme has a break in it. -/
theorem stops_of_mem_breaks (hBreak : d ∈ codeBreaks) :
    isWordPart d = false ∧ isDecimalPart d = false ∧
      isHexPart d = false ∧ isBinaryPart d = false ∧
        isHexDigit d = false := by
  have hAll :
      codeBreaks.all fun d =>
        !isWordPart d && (!isDecimalPart d && (!isHexPart d &&
          (!isBinaryPart d && !isHexDigit d))) :=
    rfl
  simpa using List.all_eq_true.1 hAll d hBreak

/- A break is none of the other characters. -/
theorem ne_of_mem_breaks
    {ds : List Char}
    (hBreak : d ∈ ds)
    {e : Char}
    (hOther : e ∉ ds) :
    d ≠ e := by
  rintro rfl
  exact hOther hBreak

------------------------------------------------------------
-- Code
------------------------------------------------------------

/- No symbol has a break behind its first character. -/
theorem more_symbol_break
    (hBreak : d ∈ codeBreaks)
    (c : Char)
    (cs post : List Char) :
    (symbol c (cs ++ d :: post)).more ≤ cs.length := by
  have hRows :
      ∀ row ∈ doubleSymbols, row.1.2 ∉ codeBreaks := by
    decide
  unfold symbol
  split
  · rename_i kind hFound
    cases cs with
    | nil =>
        exact absurd hBreak (hRows _ (mem_of_lookup hFound))
    | cons d cs =>
        rw [List.length_cons]
        exact Nat.succ_le_succ (Nat.zero_le _)
  · exact Nat.zero_le _

theorem longMark_break
    (hBreak : d ∈ codeBreaks)
    (cs post : List Char) :
    longMark (cs ++ d :: post) ≤ cs.length := by
  cases cs with
  | nil =>
      have hNone : ¬(d = 'l' || d = 'L') := by
        simp [ne_of_mem_breaks hBreak (by decide : 'l' ∉ _),
          ne_of_mem_breaks hBreak (by decide : 'L' ∉ _)]
      exact Nat.le_of_eq (if_neg hNone)
  | cons e cs =>
      have hOne : longMark (e :: cs ++ d :: post) ≤ 1 := by
        rw [List.cons_append]
        unfold longMark
        dsimp only
        split
        · exact Nat.le_refl 1
        · exact Nat.zero_le 1
      exact Nat.le_trans hOne (Nat.le_add_left 1 _)

theorem more_intOfDigits_break
    (hBreak : d ∈ codeBreaks)
    (cs : List Char)
    {digits : Nat}
    (hDigits : digits ≤ cs.length)
    (post : List Char) :
    (intOfDigits digits (cs ++ d :: post)).more ≤
      cs.length := by
  have hMark := longMark_break hBreak (cs.drop digits) post
  unfold intOfDigits Lexeme.token
  rw [List.drop_append_of_le_length hDigits]
  rw [List.length_drop] at hMark
  dsimp only
  omega

theorem more_intLexeme_break
    (hBreak : d ∈ codeBreaks)
    (c : Char)
    (cs post : List Char) :
    (intLexeme c (cs ++ d :: post)).more ≤ cs.length := by
  obtain ⟨-, hDecimal, hHex, hBinary, -⟩ :=
    stops_of_mem_breaks hBreak
  unfold intLexeme
  split
  · cases cs with
    | nil =>
        have hNone {e : Char} (hOther : e ∉ codeBreaks) :
            d ≠ e :=
          ne_of_mem_breaks hBreak hOther
        rw [List.nil_append]
        dsimp only
        rw [if_neg (by simp [hNone (by decide : 'x' ∉ _),
            hNone (by decide : 'X' ∉ _)]),
          if_neg (by simp [hNone (by decide : 'b' ∉ _),
            hNone (by decide : 'B' ∉ _)])]
        exact more_intOfDigits_break hBreak [] (Nat.le_refl 0)
          post
    | cons r ds =>
        have hHexRun := countWhile_le_of_stop hHex ds post
        have hBinaryRun :=
          countWhile_le_of_stop hBinary ds post
        rw [List.cons_append]
        dsimp only
        split
        · exact more_intOfDigits_break hBreak (r :: ds)
            (Nat.succ_le_succ hHexRun) post
        · split
          · exact more_intOfDigits_break hBreak (r :: ds)
              (Nat.succ_le_succ hBinaryRun) post
          · exact more_intOfDigits_break hBreak (r :: ds)
              (Nat.zero_le _) post
  · exact more_intOfDigits_break hBreak cs
      (countWhile_le_of_stop hDecimal cs post) post

/-
  In code only blanks reach over a break, and comments that
  go on to the end of the line.
-/
theorem more_codeLexeme_break
    (hGap : isGap c = false)
    (hBreak : d ∈ codeBreaks)
    (hComment :
      c = '/' → cs.head? = some '/' → d = '\n') :
    (codeLexeme c (cs ++ d :: post)).more ≤ cs.length := by
  have hWord := (stops_of_mem_breaks hBreak).1
  unfold codeLexeme
  rw [hGap, if_neg nofun]
  split
  · rename_i hSlashes
    rw [Bool.and_eq_true, decide_eq_true_eq,
      decide_eq_true_eq] at hSlashes
    cases cs with
    | nil =>
        -- The second slash would be the break.
        exact absurd (Option.some.inj hSlashes.2)
          (ne_of_mem_breaks hBreak (by decide))
    | cons e cs =>
        have hLine := hComment hSlashes.1 hSlashes.2
        subst hLine
        exact countWhile_le_of_stop rfl (e :: cs) post
  split
  · exact countWhile_le_of_stop hWord cs post
  split
  · exact more_intLexeme_break hBreak c cs post
  split
  · exact countWhile_le_of_stop hWord cs post
  · exact more_symbol_break hBreak c cs post

------------------------------------------------------------
-- Strings
------------------------------------------------------------

/- Nor has an escape a break in it, but behind its backslash. -/
theorem more_codePointLexeme_break
    (hBreak : d ∈ breaks)
    (cs post : List Char) :
    (codePointLexeme (cs ++ d :: post)).more ≤
      cs.length + 1 := by
  obtain ⟨hWord, -, -, -, hHex⟩ :=
    stops_of_mem_breaks (List.mem_cons_of_mem _ hBreak)
  have hOpen : d ≠ '\x7b' :=
    ne_of_mem_breaks hBreak (by decide)
  have hShut : d ≠ '\x7d' :=
    ne_of_mem_breaks hBreak (by decide)
  unfold codePointLexeme
  split
  · rename_i hDigits
    -- Four digits are in front of the break.
    have hFour : 4 ≤ cs.length := by
      apply Nat.le_of_not_lt
      intro hFew
      rw [List.take_append,
        List.take_of_length_le (Nat.le_of_lt hFew)] at hDigits
      obtain ⟨n, hLeft⟩ :
          ∃ n, 4 - cs.length = n + 1 :=
        ⟨3 - cs.length, by omega⟩
      rw [hLeft, List.take_succ_cons] at hDigits
      have hLess := countWhile_le_of_stop hHex cs (post.take n)
      omega
    exact Nat.succ_le_succ hFour
  · split
    · rename_i ds hBrace
      cases cs with
      | nil =>
          exact absurd (List.cons.inj hBrace).1 hOpen
      | cons e es =>
          rw [List.cons_append] at hBrace
          rcases List.cons.inj hBrace with ⟨rfl, rfl⟩
          split
          · rename_i hClose
            have hRun := countWhile_le_of_stop hWord es post
            have hNot :
                countWhile isWordPart (es ++ d :: post) ≠
                  es.length := by
              intro hAll
              rw [hAll, List.drop_left] at hClose
              exact hShut (Option.some.inj hClose)
            rw [List.length_cons]
            dsimp only [Lexeme.token]
            omega
          · exact Nat.zero_le _
    · exact Nat.zero_le _

theorem more_backslashLexeme_break
    (hBreak : d ∈ breaks)
    (e : Char)
    (cs post : List Char) :
    (backslashLexeme (e :: cs ++ d :: post)).more ≤
      cs.length + 1 := by
  rw [List.cons_append]
  unfold backslashLexeme
  split
  case h_2 hCode =>
    cases hCode
    exact more_codePointLexeme_break hBreak cs post
  all_goals
    first
    | exact Nat.succ_le_succ (Nat.zero_le _)
    | exact Nat.zero_le _

end Breaks

end SourceCheck
