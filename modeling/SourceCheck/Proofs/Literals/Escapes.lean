import Mathlib
import SourceCheck.Grammar.Literal
import SourceCheck.Proofs.Lexing.Cutting
import SourceCheck.Proofs.Literals.Numerals

/-
  Escape sequences.

  The lexer takes a letter for an escape, or four digits of
  the radix sixteen, or any characters of words in braces.
  What stands for a character then are digits whose number is
  a code point that is no surrogate.

  Key definitions include:
    * `NamesScalar`
    * `letterEscapes`
    * `EscapeBody`

  Key theorems include:
    * `codePoint?_eq_some_iff`
    * `backslashLexeme_of_body`
    * `body_of_backslashLexeme`
    * `isSome_unescape?`
-/

namespace SourceCheck

------------------------------------------------------------
-- Code points
------------------------------------------------------------

/-
  Digits of the radix sixteen, at least one, whose number is
  a code point that is no surrogate.
-/
def NamesScalar (digits : List Char) : Prop :=
  digits ≠ [] ∧
    (∀ d ∈ digits, isHexDigit d) ∧
      (numberOf 16 digits).isValidChar

/- Any code point has less than 32 bits. -/
theorem lt_codeLimit_of_isValidChar
    {n : Nat}
    (hValid : n.isValidChar) :
    n < codeLimit := by
  have hLimit : codeLimit = 0x100000000 := rfl
  unfold Nat.isValidChar at hValid
  omega

theorem isValidChar_iff_exists_toNat {n : Nat} :
    n.isValidChar ↔ ∃ c : Char, n = c.toNat := by
  constructor
  · intro hValid
    refine ⟨Char.ofNat n, ?_⟩
    rw [Char.toNat_ofNat, if_pos hValid]
  · rintro ⟨c, rfl⟩
    exact c.valid

section CodePoints

variable {cs : List Char}

/- Without a sign, only digits stand for a character. -/
theorem codePoint?_eq_some_iff
    (hSign : ∀ ds, cs ≠ '+' :: ds)
    {c : Char} :
    codePoint? cs = some c ↔
      cs ≠ [] ∧
        (∀ d ∈ cs, isHexDigit d) ∧
          numberOf 16 cs = c.toNat := by
  have hAll :
      cs.all (isDigitOf 16) ↔ ∀ d ∈ cs, isHexDigit d := by
    simp only [List.all_eq_true, isDigitOf_sixteen]
  unfold codePoint?
  rw [unsigned?_eq hSign]
  constructor
  · intro hSome
    split at hSome
    · cases hSome
    · rename_i n hNumber
      split at hNumber
      · rename_i hDigits
        cases hNumber
        split at hSome
        · rename_i hValid
          cases hSome
          rw [Char.toNat_ofNat, if_pos hValid]
          exact ⟨hDigits.1, hAll.mp hDigits.2.1, rfl⟩
        · cases hSome
      · cases hNumber
  · rintro ⟨hSome, hDigits, hNumber⟩
    have hValid : (numberOf 16 cs).isValidChar := by
      rw [hNumber]
      exact c.valid
    rw [if_pos
      ⟨hSome, hAll.mpr hDigits,
        lt_codeLimit_of_isValidChar hValid⟩]
    dsimp only
    rw [if_pos hValid, hNumber, Char.ofNat_toNat]

theorem isSome_codePoint?
    (hSign : ∀ ds, cs ≠ '+' :: ds) :
    (codePoint? cs).isSome ↔ NamesScalar cs := by
  rw [Option.isSome_iff_exists]
  unfold NamesScalar
  rw [isValidChar_iff_exists_toNat]
  constructor
  · rintro ⟨c, hSome⟩
    rcases (codePoint?_eq_some_iff hSign).mp hSome with
      ⟨hSome, hDigits, hNumber⟩
    exact ⟨hSome, hDigits, c, hNumber⟩
  · rintro ⟨hSome, hDigits, c, hNumber⟩
    exact ⟨c, (codePoint?_eq_some_iff hSign).mpr
      ⟨hSome, hDigits, hNumber⟩⟩

end CodePoints

------------------------------------------------------------
-- Escapes in the text
------------------------------------------------------------

/- The letters of escapes and what they stand for. -/
def letterEscapes : List (Char × Char) :=
  [ ('n', '\n'),
    ('t', '\t'),
    ('r', '\r'),
    ('"', '"'),
    ('\\', '\\') ]

/- What an escape has behind its backslash. -/
inductive EscapeBody : List Char → Prop where
  | letter {c d}
      (hLetter : (c, d) ∈ letterEscapes) :
      EscapeBody [c]
  | four {digits}
      (hFour : digits.length = 4)
      (hDigits : ∀ d ∈ digits, isHexDigit d) :
      EscapeBody ('u' :: digits)
  | braced {run}
      (hRun : ∀ c ∈ run, isWordPart c) :
      EscapeBody ('u' :: '\x7b' :: (run ++ ['\x7d']))

theorem letter_cases
    {c d : Char}
    (hLetter : (c, d) ∈ letterEscapes) :
    c = 'n' ∧ d = '\n' ∨ c = 't' ∧ d = '\t' ∨
      c = 'r' ∧ d = '\r' ∨ c = '"' ∧ d = '"' ∨
        c = '\\' ∧ d = '\\' := by
  simpa [letterEscapes] using hLetter

/- All characters of a run are counted up to its end. -/
theorem countWhile_of_stop
    {p : Char → Bool}
    {run : List Char}
    (hRun : ∀ c ∈ run, p c)
    {stop : Char}
    (hStop : p stop = false)
    (rest : List Char) :
    countWhile p (run ++ stop :: rest) = run.length := by
  unfold countWhile
  rw [List.takeWhile_append_of_pos hRun,
    List.takeWhile_cons_of_neg (by simp [hStop]),
    List.append_nil]

/- An escape is taken as a whole. -/
theorem backslashLexeme_of_body
    {body : List Char}
    (hBody : EscapeBody body)
    (rest : List Char) :
    backslashLexeme (body ++ rest) =
      .token .escapeSequence body.length := by
  cases hBody with
  | letter hLetter =>
      rcases letter_cases hLetter with
        hSame | hSame | hSame | hSame | hSame <;>
      · rcases hSame with ⟨rfl, rfl⟩
        rfl
  | @four digits hFour hDigits =>
      have hTake : (digits ++ rest).take 4 = digits := by
        rw [← hFour, List.take_left]
      have hCount :
          countWhile isHexDigit
            ((digits ++ rest).take 4) = 4 := by
        unfold countWhile
        rw [hTake, List.takeWhile_eq_self_iff.mpr hDigits,
          hFour]
      change codePointLexeme (digits ++ rest) = _
      unfold codePointLexeme
      rw [if_pos hCount, List.length_cons, hFour]
  | @braced run hRun =>
      have hShort :
          countWhile isHexDigit
            (('\x7b' :: ((run ++ ['\x7d']) ++ rest)).take 4) ≠
              4 := by
        unfold countWhile
        rw [List.take_succ_cons,
          List.takeWhile_cons_of_neg (by decide)]
        exact nofun
      have hCount :
          countWhile isWordPart ((run ++ ['\x7d']) ++ rest) =
            run.length := by
        rw [List.append_assoc]
        exact countWhile_of_stop hRun rfl rest
      have hStop :
          (((run ++ ['\x7d']) ++ rest).drop
            (countWhile isWordPart
              ((run ++ ['\x7d']) ++ rest))).head? =
            some '\x7d' := by
        rw [hCount, List.append_assoc, List.drop_left]
        rfl
      change codePointLexeme
        ('\x7b' :: ((run ++ ['\x7d']) ++ rest)) = _
      unfold codePointLexeme
      rw [if_neg hShort]
      refine (if_pos hStop).trans ?_
      rw [hCount]
      simp only [List.length_cons, List.length_append,
        List.length_nil]

/- And nothing else is an escape. -/
theorem body_of_backslashLexeme
    {cs : List Char}
    (hKind :
      (backslashLexeme cs).kind = some .escapeSequence) :
    EscapeBody (cs.take (backslashLexeme cs).more) := by
  unfold backslashLexeme at hKind ⊢
  split at hKind
  case h_1 => cases hKind
  case h_2 ds =>
    unfold codePointLexeme at hKind ⊢
    split at hKind
    · rename_i hCount
      have hDigits :
          ∀ d ∈ ds.take 4, isHexDigit d := by
        apply List.takeWhile_eq_self_iff.mp
        apply List.IsPrefix.eq_of_length_le
          (List.takeWhile_prefix _)
        unfold countWhile at hCount
        rw [hCount]
        exact List.length_take_le 4 ds
      have hFour : (ds.take 4).length = 4 := by
        apply Nat.le_antisymm (List.length_take_le 4 ds)
        exact (Nat.le_of_eq hCount.symm).trans
          (countWhile_le_length isHexDigit (ds.take 4))
      rw [if_pos hCount]
      exact .four hFour hDigits
    · rename_i hCount
      rw [if_neg hCount]
      split at hKind
      · rename_i es
        split at hKind
        · rename_i hStop
          rcases List.head?_eq_some_iff.mp hStop with
            ⟨rest, hRest⟩
          have hTaken :
              es.take (countWhile isWordPart es + 1) =
                es.takeWhile isWordPart ++ ['\x7d'] := by
            rw [List.take_add, hRest, take_countWhile]
            rfl
          have hRun :
              ∀ c ∈ es.takeWhile isWordPart, isWordPart c :=
            fun c hMem => List.mem_takeWhile_imp hMem
          rw [if_pos hStop]
          change EscapeBody
            ('u' :: '\x7b' ::
              es.take (countWhile isWordPart es + 1))
          rw [hTaken]
          exact .braced hRun
        · cases hKind
      · cases hKind
  case h_8 => cases hKind
  case h_3 => exact @EscapeBody.letter 'n' '\n' (by decide)
  case h_4 => exact @EscapeBody.letter 't' '\t' (by decide)
  case h_5 => exact @EscapeBody.letter 'r' '\r' (by decide)
  case h_6 => exact @EscapeBody.letter '"' '"' (by decide)
  case h_7 => exact @EscapeBody.letter '\\' '\\' (by decide)

------------------------------------------------------------
-- The characters of escapes
------------------------------------------------------------

theorem unbraced_braces (run : List Char) :
    unbraced ('\x7b' :: (run ++ ['\x7d'])) = run := by
  have hLast : (run ++ ['\x7d']).getLast? = some '\x7d' :=
    List.getLast?_concat
  exact (if_pos hLast).trans List.dropLast_concat

theorem unbraced_of_digits
    {digits : List Char}
    (hDigits : ∀ d ∈ digits, isHexDigit d) :
    unbraced digits = digits := by
  unfold unbraced
  split
  · rename_i ds
    cases hDigits '\x7b' List.mem_cons_self
  · rfl

/- No sign stands in front of words. -/
theorem ne_sign_of_word
    {cs : List Char}
    (hWord : ∀ c ∈ cs, isWordPart c)
    (ds : List Char) :
    cs ≠ '+' :: ds := by
  rintro rfl
  cases hWord '+' List.mem_cons_self

/- The code of an escape has no sign. -/
theorem EscapeBody.code_ne_sign
    {code : List Char}
    (hBody : EscapeBody ('u' :: code))
    (ds : List Char) :
    unbraced code ≠ '+' :: ds := by
  generalize hAll : 'u' :: code = body at hBody
  cases hBody with
  | letter hLetter =>
      cases hAll
      rcases letter_cases hLetter with
        hSame | hSame | hSame | hSame | hSame <;>
      cases hSame.1
  | four hFour hDigits =>
      cases hAll
      rw [unbraced_of_digits hDigits]
      apply ne_sign_of_word
      exact fun c hMem =>
        isWordPart_of_isHexDigit c (hDigits c hMem)
  | @braced run hRun =>
      cases hAll
      rw [unbraced_braces]
      exact ne_sign_of_word hRun ds

theorem unescape?_letter
    {c d : Char}
    (hLetter : (c, d) ∈ letterEscapes) :
    unescape? (String.ofList ['\\', c]) = some d := by
  rcases letter_cases hLetter with
    hSame | hSame | hSame | hSame | hSame <;>
  · rcases hSame with ⟨rfl, rfl⟩
    rfl

theorem unescape?_code (code : List Char) :
    unescape? (String.ofList ('\\' :: 'u' :: code)) =
      codePoint? (unbraced code) := by
  unfold unescape?
  rw [String.toList_ofList]
  rfl

/- Escapes that name a code point name a character. -/
theorem isSome_unescape?
    {body : List Char}
    (hBody : EscapeBody body) :
    (unescape? (String.ofList ('\\' :: body))).isSome ↔
      ∀ code,
        body = 'u' :: code → NamesScalar (unbraced code) := by
  by_cases hCode : ∃ code, body = 'u' :: code
  · rcases hCode with ⟨code, rfl⟩
    rw [unescape?_code,
      isSome_codePoint? hBody.code_ne_sign]
    constructor
    · rintro hNames _ ⟨⟩
      exact hNames
    · exact fun hNames => hNames code rfl
  · refine iff_of_true ?_ fun code hEq =>
      absurd ⟨code, hEq⟩ hCode
    cases hBody with
    | letter hLetter =>
        rw [unescape?_letter hLetter]
        rfl
    | four hFour hDigits => exact absurd ⟨_, rfl⟩ hCode
    | braced hRun => exact absurd ⟨_, rfl⟩ hCode

end SourceCheck
