import Mathlib.Data.List.Induction
import Mathlib.Data.Nat.Digits.Defs
import SourceCheck.Token.Lexeme
import SourceCheck.Text.Numeral

/-
  What numerals stand for.

  A numeral is read digit by digit.  It stands for the sum of
  its digits, each times the power of the radix that belongs
  to its place, and it is refused if there is no digit, if a
  character is no digit of the radix, or at the limit.

  Key definitions include:
    * `isDigitOf`
    * `numberOf`

  Key theorems include:
    * `numeral?_eq`
    * `unsigned?_eq`
    * `signed?_eq`
-/

namespace SourceCheck

------------------------------------------------------------
-- Digits
------------------------------------------------------------

/- The character is a digit of the radix. -/
def isDigitOf (radix : Nat) (c : Char) : Bool :=
  (digit? radix c).isSome

/- What a digit counts in its place. -/
def digitAt (c : Char) : Nat :=
  (digitValue? c).getD 0

/-
  The number that digits stand for in a radix, the first of
  them counting most.
-/
def numberOf (radix : Nat) (cs : List Char) : Nat :=
  Nat.ofDigits radix (cs.reverse.map digitAt)

theorem digit?_of_isDigitOf
    {radix : Nat}
    {c : Char}
    (hDigit : isDigitOf radix c) :
    digit? radix c = some (digitAt c) := by
  rcases Option.isSome_iff_exists.mp hDigit with ⟨d, hSome⟩
  have hValue := (Option.filter_eq_some_iff.mp hSome).1
  rw [hSome, digitAt, hValue]
  rfl

theorem isDigitOf_iff
    {radix : Nat}
    {c : Char} :
    isDigitOf radix c ↔
      ∃ d, digitValue? c = some d ∧ d < radix := by
  unfold isDigitOf digit?
  rw [Option.isSome_iff_exists]
  simp only [Option.filter_eq_some_iff, decide_eq_true_eq]

section Ranges

variable (c : Char)

theorem Char.le_iff_toNat (d : Char) :
    c ≤ d ↔ c.toNat ≤ d.toNat :=
  Iff.rfl

/- Digits and letters are ranges of code points. -/
theorem digitValue?_eq :
    digitValue? c =
      if 48 ≤ c.toNat ∧ c.toNat ≤ 57 then
        some (c.toNat - 48)
      else if 97 ≤ c.toNat ∧ c.toNat ≤ 122 then
        some (c.toNat - 87)
      else if 65 ≤ c.toNat ∧ c.toNat ≤ 90 then
        some (c.toNat - 55)
      else
        none := by
  simp only [digitValue?, Bool.and_eq_true,
    decide_eq_true_eq, Char.le_iff_toNat, Char.reduceToNat]
  split
  · rfl
  split
  · congr 1
    omega
  split
  · congr 1
    omega
  · rfl

theorem isDigit_iff :
    c.isDigit ↔ 48 ≤ c.toNat ∧ c.toNat ≤ 57 := by
  unfold Char.isDigit
  rw [Bool.and_eq_true, decide_eq_true_eq, decide_eq_true_eq]
  rfl

theorem isHexDigit_iff :
    isHexDigit c ↔
      48 ≤ c.toNat ∧ c.toNat ≤ 57 ∨
        97 ≤ c.toNat ∧ c.toNat ≤ 102 ∨
          65 ≤ c.toNat ∧ c.toNat ≤ 70 := by
  simp only [isHexDigit, Bool.or_eq_true, Bool.and_eq_true,
    decide_eq_true_eq, Char.le_iff_toNat, Char.reduceToNat,
    isDigit_iff, or_assoc]

/- Digits are found in words, as letters are. -/
theorem isWordPart_iff :
    isWordPart c ↔
      48 ≤ c.toNat ∧ c.toNat ≤ 57 ∨
        97 ≤ c.toNat ∧ c.toNat ≤ 122 ∨
          65 ≤ c.toNat ∧ c.toNat ≤ 90 ∨ c.toNat = 95 := by
  have hLow : c = '_' ↔ c.toNat = 95 :=
    Char.toNat_inj.symm
  have hAlpha :
      c.isAlpha ↔
        65 ≤ c.toNat ∧ c.toNat ≤ 90 ∨
          97 ≤ c.toNat ∧ c.toNat ≤ 122 := by
    unfold Char.isAlpha Char.isUpper Char.isLower
    rw [Bool.or_eq_true, decide_eq_true_eq,
      Bool.and_eq_true, decide_eq_true_eq, decide_eq_true_eq]
    rfl
  unfold isWordPart Char.isAlphanum
  rw [Bool.or_eq_true, Bool.or_eq_true, hAlpha,
    isDigit_iff, decide_eq_true_eq, hLow]
  omega

/- The digits of the radix are those below it. -/
theorem isDigitOf_iff_range (radix : Nat) :
    isDigitOf radix c ↔
      48 ≤ c.toNat ∧ c.toNat ≤ 57 ∧ c.toNat < radix + 48 ∨
        97 ≤ c.toNat ∧ c.toNat ≤ 122 ∧
            c.toNat < radix + 87 ∨
          65 ≤ c.toNat ∧ c.toNat ≤ 90 ∧
            c.toNat < radix + 55 := by
  rw [isDigitOf_iff, digitValue?_eq]
  split
  · simp only [Option.some.injEq, exists_eq_left']
    omega
  split
  · simp only [Option.some.injEq, exists_eq_left']
    omega
  split
  · simp only [Option.some.injEq, exists_eq_left']
    omega
  · simp only [reduceCtorEq, false_and, exists_false,
      false_iff]
    omega

theorem isDigitOf_ten : isDigitOf 10 c = c.isDigit := by
  rw [Bool.eq_iff_iff, isDigitOf_iff_range, isDigit_iff]
  omega

theorem isDigitOf_sixteen : isDigitOf 16 c = isHexDigit c := by
  rw [Bool.eq_iff_iff, isDigitOf_iff_range, isHexDigit_iff]
  omega

theorem isWordPart_of_isDigitOf
    {radix : Nat}
    (hDigit : isDigitOf radix c) :
    isWordPart c := by
  rw [isDigitOf_iff_range] at hDigit
  rw [isWordPart_iff]
  omega

theorem isWordPart_of_isHexDigit
    (hDigit : isHexDigit c) :
    isWordPart c := by
  rw [← isDigitOf_sixteen] at hDigit
  exact isWordPart_of_isDigitOf c hDigit

theorem isDigitOf_two :
    isDigitOf 2 c = (c = '0' || c = '1') := by
  have hZero : '0'.toNat = 48 := rfl
  have hOne : '1'.toNat = 49 := rfl
  rw [Bool.eq_iff_iff, isDigitOf_iff_range, Bool.or_eq_true,
    decide_eq_true_eq, decide_eq_true_eq, ← Char.toNat_inj,
    ← Char.toNat_inj, hZero, hOne]
  omega

end Ranges

------------------------------------------------------------
-- Numerals
------------------------------------------------------------

/- Digits are gathered from the first one on. -/
theorem digitsValue_eq (radix : Nat) (ds : List Nat) :
    digitsValue radix ds = Nat.ofDigits radix ds.reverse := by
  unfold digitsValue
  induction ds using List.reverseRecOn with
  | nil => rfl
  | append_singleton ds d ih =>
      rw [List.foldl_append, ih, List.reverse_append,
        List.reverse_singleton, List.singleton_append,
        Nat.ofDigits_cons]
      dsimp only [List.foldl_cons, List.foldl_nil]
      rw [Nat.mul_comm, Nat.add_comm]

/- All characters are digits, or none is read. -/
theorem mapM_digit? (radix : Nat) (cs : List Char) :
    cs.mapM (digit? radix) =
      if cs.all (isDigitOf radix) then
        some (cs.map digitAt)
      else
        none := by
  induction cs with
  | nil => rfl
  | cons c cs ih =>
      rw [List.mapM_cons, ih, List.all_cons]
      cases hDigit : isDigitOf radix c with
      | true =>
          rw [digit?_of_isDigitOf hDigit, Bool.true_and]
          split <;> rfl
      | false =>
          have hNone : digit? radix c = none :=
            Option.isNone_iff_eq_none.mp
              (Option.isSome_eq_false_iff.mp hDigit)
          rw [hNone]
          rfl

/- Digits are read as the number that they stand for. -/
theorem numeral?_eq (radix : Nat) (cs : List Char) :
    numeral? radix cs =
      if cs ≠ [] ∧ cs.all (isDigitOf radix) then
        some (numberOf radix cs)
      else
        none := by
  unfold numeral?
  rw [mapM_digit?]
  cases cs with
  | nil => rfl
  | cons c cs =>
      rw [List.isEmpty_cons, if_neg Bool.false_ne_true]
      split
      · rename_i hDigits
        rw [if_pos ⟨List.cons_ne_nil c cs, hDigits⟩,
          Option.map_some, digitsValue_eq, numberOf,
          List.map_reverse]
      · rename_i hDigits
        rw [if_neg fun hBoth => hDigits hBoth.2]
        rfl

/- Without a sign the digits below the limit are read. -/
theorem unsigned?_eq
    {cs : List Char}
    (hSign : ∀ ds, cs ≠ '+' :: ds)
    (radix limit : Nat) :
    unsigned? radix limit cs =
      if cs ≠ [] ∧ cs.all (isDigitOf radix) ∧
          numberOf radix cs < limit then
        some (numberOf radix cs)
      else
        none := by
  unfold unsigned?
  split
  · rename_i ds
    exact absurd rfl (hSign ds)
  · dsimp only
    rw [numeral?_eq]
    by_cases hDigits : cs ≠ [] ∧ cs.all (isDigitOf radix)
    · rw [if_pos hDigits, Option.filter_some]
      simp only [decide_eq_true_eq, hDigits.1, hDigits.2,
        ne_eq, not_false_eq_true, true_and]
    · rw [if_neg hDigits, if_neg fun hAll =>
        hDigits ⟨hAll.1, hAll.2.1⟩]
      rfl

/- No sign is a digit. -/
theorem ne_sign_of_digits
    {radix : Nat}
    {cs : List Char}
    (hDigits : cs.all (isDigitOf radix))
    (ds : List Char) :
    cs ≠ '+' :: ds ∧ cs ≠ '-' :: ds := by
  have hSigns :
      isDigitOf radix '+' = false ∧
        isDigitOf radix '-' = false :=
    ⟨rfl, rfl⟩
  constructor
  · rintro rfl
    rw [List.all_cons, hSigns.1] at hDigits
    cases hDigits
  · rintro rfl
    rw [List.all_cons, hSigns.2] at hDigits
    cases hDigits

/- Digits without a sign are read below the limit. -/
theorem signed?_eq
    {radix : Nat}
    {cs : List Char}
    (hDigits : cs.all (isDigitOf radix))
    (limit : Nat) :
    signed? radix limit cs =
      if cs ≠ [] ∧ numberOf radix cs < limit then
        some (numberOf radix cs : Int)
      else
        none := by
  have hSigns := ne_sign_of_digits hDigits
  unfold signed?
  split
  · rename_i ds
    exact absurd rfl (hSigns ds).2
  · rw [unsigned?_eq fun ds => (hSigns ds).1]
    simp only [hDigits, true_and]
    split <;> rfl

end SourceCheck
