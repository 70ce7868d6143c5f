import Mathlib
import SourceCheck.Grammar.Expression
import SourceCheck.Proofs.Lexing.Names
import SourceCheck.Proofs.Lexing.Respacing
import SourceCheck.Proofs.Literals.Numerals
import SourceCheck.Proofs.Parsing.Run

/-
  Integer literals.

  An integer is written as zero, as decimal digits that do
  not start with zero, or as digits of another radix behind
  its mark, with underscores between them and maybe with a
  mark of long integers at the end.  The first lexeme of a
  text that starts with a digit is the longest text of this
  kind, and it is read as the number that its digits stand
  for, up to the largest number of 32 bits with a sign, or of
  64 bits for long integers.

  Key definitions include:
    * `MarkedRadix`
    * `IntBody`
    * `IntText`
    * `IntText.form?`
    * `IntText.GoesOnWith`

  Key theorems include:
    * `IntText.intForm?_text`
    * `IntText.tokens_text`
    * `integers_exact`
-/

namespace SourceCheck

open SourceCheck.Parser

------------------------------------------------------------
-- Written integers
------------------------------------------------------------

/- The radices that are named by a mark behind a zero. -/
inductive MarkedRadix where
  | hexadecimal
  | binary

namespace MarkedRadix

def radix : MarkedRadix → Nat
  | hexadecimal => 16
  | binary => 2

/- The character names the radix. -/
def isMark : MarkedRadix → Char → Bool
  | hexadecimal, c => c = 'x' || c = 'X'
  | binary, c => c = 'b' || c = 'B'

/- A digit of the radix or an underscore. -/
def isPart : MarkedRadix → Char → Bool
  | hexadecimal => isHexPart
  | binary => isBinaryPart

end MarkedRadix

/- An integer as it is written, up to a mark of long ones. -/
inductive IntBody where
  | zero
  | decimal
      (first : Char)
      (more : List Char)
      (isFirst : first.isDigit ∧ first ≠ '0')
      (areMore : ∀ c ∈ more, isDecimalPart c)
  | marked
      (r : MarkedRadix)
      (mark : Char)
      (run : List Char)
      (isMark : r.isMark mark)
      (isSome : run ≠ [])
      (areRun : ∀ c ∈ run, r.isPart c)

namespace IntBody

/- The characters of the integer. -/
def text : IntBody → List Char
  | zero => ['0']
  | decimal first more _ _ => first :: more
  | marked _ mark run _ _ _ => '0' :: mark :: run

/- The radix of the digits. -/
def radix : IntBody → Nat
  | zero => 10
  | decimal _ _ _ _ => 10
  | marked r _ _ _ _ _ => r.radix

/- The digits and the underscores between them. -/
def run : IntBody → List Char
  | zero => ['0']
  | decimal first more _ _ => first :: more
  | marked _ _ run _ _ _ => run

/- The digits, of which there may be none. -/
def digits (b : IntBody) : List Char :=
  b.run.filter (· != '_')

/- The number that the digits stand for. -/
def value (b : IntBody) : Nat :=
  numberOf b.radix b.digits

end IntBody

/- A whole integer literal. -/
structure IntText where
  body : IntBody
  longMark : Option Char
  isLongMark : ∀ c ∈ longMark, c = 'l' ∨ c = 'L'

namespace IntText

/- The characters of the literal. -/
def text (n : IntText) : List Char :=
  n.body.text ++ n.longMark.toList

/-
  What the literal stands for, if it has a digit and is not
  too large.
-/
def form? (n : IntText) : Option ExprForm :=
  if n.body.digits = [] then
    none
  else
    match n.longMark with
    | none =>
        if n.body.value ≤ 2 ^ 31 - 1 then
          some (.int n.body.value)
        else
          none
    | some _ =>
        if n.body.value ≤ 2 ^ 63 - 1 then
          some (.long n.body.value)
        else
          none

/- A longer literal starts with this one and a character. -/
def GoesOnWith (n : IntText) (c : Char) : Prop :=
  ∃ (m : IntText) (more : List Char),
    m.text = n.text ++ c :: more

end IntText

------------------------------------------------------------
-- Reading
------------------------------------------------------------

/- No character of the class marks long integers. -/
def LacksLongMarks (p : Char → Bool) : Prop :=
  p 'l' = false ∧ p 'L' = false

theorem ne_longMark_of_class
    {p : Char → Bool}
    (hLacks : LacksLongMarks p)
    {c : Char}
    (hClass : p c) :
    c ≠ 'l' ∧ c ≠ 'L' := by
  constructor
  · rintro rfl
    rw [hLacks.1] at hClass
    cases hClass
  · rintro rfl
    rw [hLacks.2] at hClass
    cases hClass

namespace MarkedRadix

variable (r : MarkedRadix)

theorem lacksLongMarks : LacksLongMarks r.isPart := by
  cases r <;> exact ⟨rfl, rfl⟩

theorem isDigitOf_of_isPart
    {c : Char}
    (hPart : r.isPart c)
    (hDigit : c ≠ '_') :
    isDigitOf r.radix c := by
  cases r with
  | hexadecimal =>
      rw [radix, isDigitOf_sixteen]
      simpa [isPart, isHexPart, hDigit] using hPart
  | binary =>
      rw [radix, isDigitOf_two]
      simpa [isPart, isBinaryPart, hDigit] using hPart

/- A mark is a letter, and no mark of long integers. -/
theorem letter_of_isMark
    {c : Char}
    (hMark : r.isMark c) :
    isWordPart c ∧ c ≠ '_' ∧ c ≠ 'l' ∧ c ≠ 'L' := by
  cases r with
  | hexadecimal =>
      have hCases : c = 'x' ∨ c = 'X' := by
        simpa [isMark] using hMark
      rcases hCases with rfl | rfl <;> decide
  | binary =>
      have hCases : c = 'b' ∨ c = 'B' := by
        simpa [isMark] using hMark
      rcases hCases with rfl | rfl <;> decide

theorem radixOf_marked
    {c : Char}
    (hMark : r.isMark c)
    (ds : List Char) :
    radixOf ('0' :: c :: ds) = (r.radix, ds) := by
  cases r with
  | hexadecimal =>
      have hCases : c = 'x' ∨ c = 'X' := by
        simpa [isMark] using hMark
      rcases hCases with rfl | rfl <;> rfl
  | binary =>
      have hCases : c = 'b' ∨ c = 'B' := by
        simpa [isMark] using hMark
      rcases hCases with rfl | rfl <;> rfl

end MarkedRadix

namespace IntBody

/- Only digits and underscores stand in the run. -/
theorem isDigitOf_of_mem_run
    {b : IntBody}
    {c : Char}
    (hMem : c ∈ b.run)
    (hDigit : c ≠ '_') :
    isDigitOf b.radix c := by
  cases b with
  | zero =>
      rw [List.mem_singleton.mp hMem]
      rfl
  | decimal first more isFirst areMore =>
      rw [radix, isDigitOf_ten]
      rcases List.mem_cons.mp hMem with rfl | hMore
      · exact isFirst.1
      · have hPart := areMore c hMore
        simpa [isDecimalPart, hDigit] using hPart
  | marked r mark run isMark isSome areRun =>
      exact r.isDigitOf_of_isPart (areRun c hMem) hDigit

/- The characters are those of words. -/
theorem isWordPart_of_mem_text
    {b : IntBody}
    {c : Char}
    (hMem : c ∈ b.text) :
    isWordPart c := by
  have hRun (hRun : c ∈ b.run) : isWordPart c := by
    by_cases hDigit : c = '_'
    · rw [hDigit]
      rfl
    · exact isWordPart_of_isDigitOf c
        (isDigitOf_of_mem_run hRun hDigit)
  cases b with
  | zero => exact hRun hMem
  | decimal first more isFirst areMore => exact hRun hMem
  | marked r mark run isMark isSome areRun =>
      rcases List.mem_cons.mp hMem with rfl | hMore
      · rfl
      rcases List.mem_cons.mp hMore with rfl | hMem
      · exact (r.letter_of_isMark isMark).1
      · exact hRun hMem

theorem all_digits (b : IntBody) :
    b.digits.all (isDigitOf b.radix) := by
  rw [List.all_eq_true]
  intro c hMem
  rcases List.mem_filter.mp hMem with ⟨hRun, hNot⟩
  exact isDigitOf_of_mem_run hRun (by simpa using hNot)

/- Without the underscores the mark names the radix. -/
theorem radixOf_text (b : IntBody) :
    radixOf (b.text.filter (· != '_')) =
      (b.radix, b.digits) := by
  cases b with
  | zero => rfl
  | decimal first more isFirst areMore =>
      have hKept : (first != '_') = true := by
        rw [bne_iff_ne]
        rintro rfl
        exact absurd isFirst.1 (by decide)
      unfold digits text run
      dsimp only
      rw [List.filter_cons, if_pos hKept]
      unfold radixOf
      split
      · rename_i hEq
        exact absurd (List.cons.inj hEq).1 isFirst.2
      · rename_i hEq
        exact absurd (List.cons.inj hEq).1 isFirst.2
      · rename_i hEq
        exact absurd (List.cons.inj hEq).1 isFirst.2
      · rename_i hEq
        exact absurd (List.cons.inj hEq).1 isFirst.2
      · rfl
  | marked r mark run isMark isSome areRun =>
      have hKept : (mark != '_') = true :=
        bne_iff_ne.mpr (r.letter_of_isMark isMark).2.1
      unfold digits text
      dsimp only
      rw [List.filter_cons, if_pos (by decide),
        List.filter_cons, if_pos hKept]
      exact r.radixOf_marked isMark _

/- No mark of long integers is a part of the integer. -/
theorem ne_longMark_of_mem_text
    {b : IntBody}
    {c : Char}
    (hMem : c ∈ b.text) :
    c ≠ 'l' ∧ c ≠ 'L' := by
  cases b with
  | zero =>
      rw [List.mem_singleton.mp hMem]
      decide
  | decimal first more isFirst areMore =>
      rcases List.mem_cons.mp hMem with rfl | hMore
      · exact ne_longMark_of_class ⟨rfl, rfl⟩ isFirst.1
      · exact ne_longMark_of_class ⟨rfl, rfl⟩
          (areMore c hMore)
  | marked r mark run isMark isSome areRun =>
      rcases List.mem_cons.mp hMem with rfl | hMore
      · decide
      rcases List.mem_cons.mp hMore with rfl | hRun
      · exact (r.letter_of_isMark isMark).2.2
      · exact ne_longMark_of_class r.lacksLongMarks
          (areRun c hRun)

/- The number is read if there are digits and it is small. -/
theorem signed?_digits (b : IntBody) (largest : Nat) :
    signed? b.radix (largest + 1) b.digits =
      if b.digits = [] then
        none
      else if b.value ≤ largest then
        some (b.value : Int)
      else
        none := by
  rw [signed?_eq b.all_digits]
  by_cases hNone : b.digits = []
  · rw [if_pos hNone, if_neg fun hBoth => hBoth.1 hNone]
  · rw [if_neg hNone]
    exact ite_cond_congr (propext
      ⟨fun hBoth => Nat.le_of_lt_succ hBoth.2,
        fun hSmall => ⟨hNone, Nat.lt_succ_of_le hSmall⟩⟩)

end IntBody

theorem endsWithLongMark_append
    {c : Char}
    (hMark : c = 'l' ∨ c = 'L')
    (cs : List Char) :
    endsWithLongMark (cs ++ [c]) := by
  unfold endsWithLongMark
  rw [List.getLast?_concat]
  simpa using hMark

theorem endsWithLongMark_of_none
    {cs : List Char}
    (hNone : ∀ c ∈ cs, c ≠ 'l' ∧ c ≠ 'L') :
    endsWithLongMark cs = false := by
  unfold endsWithLongMark
  split
  · rename_i c hLast
    have hNot := hNone c (List.mem_of_getLast? hLast)
    simpa using hNot
  · rfl

/- What a literal is read as. -/
theorem IntText.intForm?_text (n : IntText) :
    intForm? (String.ofList n.text) = n.form? := by
  have hRadix := n.body.radixOf_text
  unfold intForm? IntText.text IntText.form?
  rw [String.toList_ofList, List.filter_append]
  cases hLong : n.longMark with
  | none =>
      have hNone :
          endsWithLongMark
              (n.body.text.filter (· != '_')) =
            false :=
        endsWithLongMark_of_none fun c hMem =>
          IntBody.ne_longMark_of_mem_text
            (List.mem_filter.mp hMem).1
      have hLimit : intLimit = 2 ^ 31 - 1 + 1 := rfl
      rw [Option.toList_none, List.filter_nil,
        List.append_nil]
      dsimp only
      rw [hNone, if_neg Bool.false_ne_true, hRadix]
      dsimp only
      rw [hLimit, IntBody.signed?_digits]
      split
      · rfl
      split <;> rfl
  | some c =>
      have hMark := n.isLongMark c hLong
      have hKept :
          [c].filter (· != '_') = [c] := by
        rcases hMark with rfl | rfl <;> rfl
      have hLimit : longLimit = 2 ^ 63 - 1 + 1 := rfl
      rw [Option.toList_some, hKept]
      dsimp only
      rw [if_pos (endsWithLongMark_append hMark _),
        List.dropLast_concat, hRadix]
      dsimp only
      rw [hLimit, IntBody.signed?_digits]
      split
      · rfl
      split <;> rfl

------------------------------------------------------------
-- The longest literal
------------------------------------------------------------

/- A mark of long integers is one lexeme with the digits. -/
theorem longMark_cons
    {c : Char}
    (hMark : c = 'l' ∨ c = 'L')
    (cs : List Char) :
    longMark (c :: cs) = 1 :=
  if_pos (by simpa using hMark)

/- The characters that a mark of long integers adds. -/
theorem exists_longMark
    (digits : Nat)
    (cs : List Char) :
    ∃ mark : Option Char,
      (∀ c ∈ mark, c = 'l' ∨ c = 'L') ∧
        cs.take (digits + longMark (cs.drop digits)) =
          cs.take digits ++ mark.toList := by
  rw [List.take_add]
  cases hDrop : cs.drop digits with
  | nil => exact ⟨none, nofun, by simp⟩
  | cons c ds =>
      by_cases hMark : c = 'l' ∨ c = 'L'
      · refine ⟨some c, ?_, by rw [longMark_cons hMark]; rfl⟩
        rintro d ⟨⟩
        exact hMark
      · refine ⟨none, nofun, ?_⟩
        have hNone : longMark (c :: ds) = 0 :=
          if_neg (by simpa using hMark)
        rw [hNone]
        rfl

/-
  A run of a class, and a mark of long integers behind it,
  are not longer than what the lexer finds.
-/
theorem length_run_le
    {p : Char → Bool}
    (hLacks : LacksLongMarks p)
    {run : List Char}
    (hRun : ∀ c ∈ run, p c)
    {mark : Option Char}
    (hMark : ∀ c ∈ mark, c = 'l' ∨ c = 'L')
    (rest : List Char) :
    run.length + mark.toList.length ≤
      countWhile p (run ++ (mark.toList ++ rest)) +
        longMark
          ((run ++ (mark.toList ++ rest)).drop
            (countWhile p
              (run ++ (mark.toList ++ rest)))) := by
  have hCount (cs : List Char) :
      countWhile p (run ++ cs) =
        run.length + countWhile p cs := by
    unfold countWhile
    rw [List.takeWhile_append_of_pos hRun, List.length_append]
  cases mark with
  | none =>
      rw [hCount, Option.toList_none, List.length_nil]
      omega
  | some c =>
      have hStop : p c = false := by
        rcases hMark c rfl with rfl | rfl
        · exact hLacks.1
        · exact hLacks.2
      have hNone : countWhile p (c :: rest) = 0 := by
        unfold countWhile
        rw [List.takeWhile_cons_of_neg (by simp [hStop])]
        rfl
      rw [Option.toList_some, List.singleton_append, hCount,
        hNone, Nat.add_zero, List.drop_left,
        longMark_cons (hMark c rfl)]
      rfl

/- The same for a run behind the mark of its radix. -/
theorem length_marked_le
    {r : Char}
    {ds : List Char}
    {digits run more : Nat}
    (hRun :
      run + more ≤ digits + longMark (ds.drop digits)) :
    run + 1 + 1 + more ≤
      (intOfDigits (digits + 1) (r :: ds)).more + 1 := by
  have hMore :
      (intOfDigits (digits + 1) (r :: ds)).more =
        digits + 1 + longMark (ds.drop digits) :=
    rfl
  omega

/- A run that is not empty is found. -/
theorem countWhile_ne_zero
    {p : Char → Bool}
    {run : List Char}
    (hSome : run ≠ [])
    (hRun : ∀ c ∈ run, p c)
    (rest : List Char) :
    countWhile p (run ++ rest) ≠ 0 := by
  unfold countWhile
  rw [List.takeWhile_append_of_pos hRun, List.length_append]
  have hLength := List.length_pos_of_ne_nil hSome
  omega

theorem intLexeme_of_ne_zero
    {c : Char}
    (hFirst : c ≠ '0')
    (cs : List Char) :
    intLexeme c cs =
      intOfDigits (countWhile isDecimalPart cs) cs :=
  if_neg hFirst

theorem intLexeme_marked
    {r : MarkedRadix}
    {c : Char}
    (hMark : r.isMark c)
    {ds : List Char}
    (hSome : countWhile r.isPart ds ≠ 0) :
    intLexeme '0' (c :: ds) =
      intOfDigits (countWhile r.isPart ds + 1) (c :: ds) := by
  unfold intLexeme
  rw [if_pos rfl]
  cases r with
  | hexadecimal =>
      have hCases : c = 'x' ∨ c = 'X' := by
        simpa [MarkedRadix.isMark] using hMark
      have hCount : countWhile isHexPart ds ≠ 0 := hSome
      exact if_pos (by simp [hCases, hCount])
  | binary =>
      have hCases : c = 'b' ∨ c = 'B' := by
        simpa [MarkedRadix.isMark] using hMark
      have hOther : ¬ (c = 'x' ∨ c = 'X') := by
        rcases hCases with rfl | rfl <;> decide
      have hCount : countWhile isBinaryPart ds ≠ 0 := hSome
      dsimp only
      rw [if_neg (by simp [hOther])]
      exact if_pos (by simp [hCases, hCount])

/- A zero that names no radix stands alone. -/
theorem intLexeme_zero
    {cs : List Char}
    (hOther :
      ∀ r ∈ cs.head?,
        r ≠ 'x' ∧ r ≠ 'X' ∧ r ≠ 'b' ∧ r ≠ 'B') :
    intLexeme '0' cs = intOfDigits 0 cs := by
  unfold intLexeme
  rw [if_pos rfl]
  cases cs with
  | nil => rfl
  | cons r ds =>
      rcases hOther r rfl with ⟨hSmallX, hX, hSmallB, hB⟩
      dsimp only
      rw [if_neg (by simp [hSmallX, hX]),
        if_neg (by simp [hSmallB, hB])]

/- A literal is not longer than what the lexer finds. -/
theorem length_le_more_intLexeme
    (n : IntText)
    {rest cs : List Char}
    {c : Char}
    (hText : n.text ++ rest = c :: cs) :
    c.isDigit ∧
      n.text.length ≤ (intLexeme c cs).more + 1 := by
  rcases n with ⟨body, mark, isMark⟩
  unfold IntText.text at hText ⊢
  dsimp only at hText ⊢
  rw [List.append_assoc] at hText
  rw [List.length_append]
  cases body with
  | zero =>
      cases hText
      refine ⟨rfl, ?_⟩
      cases mark with
      | none => exact Nat.le_add_left _ _
      | some m =>
          have hOther (r : Char) (hHead : r ∈ some m) :
              r ≠ 'x' ∧ r ≠ 'X' ∧ r ≠ 'b' ∧ r ≠ 'B' := by
            cases hHead
            rcases isMark m rfl with rfl | rfl <;> decide
          have hLexeme :
              intLexeme '0' (m :: rest) =
                intOfDigits 0 (m :: rest) :=
            intLexeme_zero hOther
          have hMore :
              (intOfDigits 0 (m :: rest)).more = 1 :=
            (Nat.zero_add _).trans
              (longMark_cons (isMark m rfl) rest)
          change _ ≤ (intLexeme '0' (m :: rest)).more + 1
          rw [hLexeme, hMore]
          exact Nat.le_refl 2
  | decimal first more isFirst areMore =>
      cases hText
      have hRun :=
        length_run_le ⟨rfl, rfl⟩ areMore isMark rest
      refine ⟨isFirst.1, ?_⟩
      rw [intLexeme_of_ne_zero isFirst.2, IntBody.text,
        List.length_cons, Nat.add_right_comm]
      exact Nat.succ_le_succ hRun
  | marked r c run isRadix isSome areRun =>
      cases hText
      have hRun :=
        length_run_le r.lacksLongMarks areRun isMark rest
      have hLexeme :=
        intLexeme_marked isRadix
          (countWhile_ne_zero isSome areRun
            (mark.toList ++ rest))
      refine ⟨rfl, ?_⟩
      change _ ≤ (intLexeme '0'
        (c :: (run ++ (mark.toList ++ rest)))).more + 1
      rw [hLexeme]
      exact length_marked_le hRun

/- What the lexer takes for digits, with their mark. -/
theorem take_intOfDigits
    {b : IntBody}
    {c : Char}
    {digits : Nat}
    {cs : List Char}
    (hBody : b.text = c :: cs.take digits) :
    ∃ n : IntText,
      c :: cs.take (intOfDigits digits cs).more = n.text := by
  rcases exists_longMark digits cs with ⟨mark, isMark, hTake⟩
  refine ⟨⟨b, mark, isMark⟩, ?_⟩
  unfold IntText.text
  rw [hBody, List.cons_append, ← hTake]
  rfl

/- What the lexer finds behind a digit is a literal. -/
theorem exists_intText
    {c : Char}
    (hDigit : c.isDigit)
    (cs : List Char) :
    ∃ n : IntText,
      c :: cs.take (intLexeme c cs).more = n.text := by
  have hRun (p : Char → Bool) (ds : List Char) :
      ∀ d ∈ ds.take (countWhile p ds), p d := by
    rw [take_countWhile]
    exact fun d hMem => List.mem_takeWhile_imp hMem
  have hSome {p : Char → Bool} {ds : List Char}
      (hCount : countWhile p ds ≠ 0) :
      ds.take (countWhile p ds) ≠ [] := by
    rw [take_countWhile]
    exact List.ne_nil_of_length_pos
      (Nat.pos_of_ne_zero hCount)
  by_cases hZero : c = '0'
  · subst hZero
    unfold intLexeme
    rw [if_pos rfl]
    split
    · exact take_intOfDigits (b := .zero) rfl
    · rename_i r ds
      split
      · rename_i hHex
        simp only [Bool.and_eq_true, Bool.or_eq_true,
          decide_eq_true_eq] at hHex
        exact take_intOfDigits
          (b := .marked .hexadecimal r _
            (by simpa [MarkedRadix.isMark] using hHex.1)
            (hSome hHex.2) (hRun isHexPart ds)) rfl
      split
      · rename_i hBinary
        simp only [Bool.and_eq_true, Bool.or_eq_true,
          decide_eq_true_eq] at hBinary
        exact take_intOfDigits
          (b := .marked .binary r _
            (by simpa [MarkedRadix.isMark] using hBinary.1)
            (hSome hBinary.2) (hRun isBinaryPart ds)) rfl
      · exact take_intOfDigits (b := .zero) rfl
  · rw [intLexeme_of_ne_zero hZero]
    exact take_intOfDigits
      (b := .decimal c _ ⟨hDigit, hZero⟩
        (hRun isDecimalPart cs)) rfl

------------------------------------------------------------
-- Lexemes and tokens
------------------------------------------------------------

/- Outside of strings a digit starts an integer literal. -/
theorem codeLexeme_of_isDigit
    {c : Char}
    (hDigit : c.isDigit)
    (cs : List Char) :
    codeLexeme c cs = intLexeme c cs := by
  have hGap : ¬ isGap c := by
    intro hBlank
    rw [(not_isGap hBlank).2.2.1] at hDigit
    cases hDigit
  have hComment :
      ¬ (c = '/' && cs.head? = some '/') := by
    intro hBoth
    rw [of_decide_eq_true (Bool.and_eq_true_iff.1 hBoth).1]
      at hDigit
    cases hDigit
  have hWord : ¬ isWordStart c := by
    intro hStart
    rw [(not_isWordStart hStart).1] at hDigit
    cases hDigit
  unfold codeLexeme
  rw [if_neg hGap, if_neg hComment, if_neg hWord,
    if_pos hDigit]

theorem lexeme_of_isDigit
    {es : List Enclosure}
    (hCode : Mode.ofEnclosures es ≠ .text)
    {c : Char}
    (hDigit : c.isDigit)
    (cs : List Char) :
    lexeme es c cs = intLexeme c cs := by
  rw [← codeLexeme_of_isDigit hDigit]
  match es with
  | [] => rfl
  | .text :: _ => exact absurd rfl hCode
  | .template (_ + 1) :: _ => rfl
  | .template 0 :: _ =>
      apply if_neg
      rintro rfl
      cases hDigit

/- No symbol is a literal. -/
theorem symbol_ne_intLiteral
    {c : Char}
    {cs : List Char} :
    (symbol c cs).kind ≠ some .intLiteral := by
  have hDouble :
      ∀ x ∈ doubleSymbols, x.2 ≠ .intLiteral := by
    decide
  have hSingle :
      ∀ x ∈ singleSymbols, x.2 ≠ .intLiteral := by
    decide
  intro hKind
  rcases symbol_cases hKind with
    hNone | hRow | ⟨d, -, hRow⟩
  · cases hNone
  · exact hSingle _ hRow rfl
  · exact hDouble _ hRow rfl

/- Only digits start integer literals. -/
theorem isDigit_of_codeLexeme
    {c : Char}
    {cs : List Char}
    (hKind : (codeLexeme c cs).kind = some .intLiteral) :
    c.isDigit := by
  have hWords (word : String) :
      TokenKind.ofWord word ≠ .intLiteral := by
    unfold TokenKind.ofWord
    split <;> exact nofun
  unfold codeLexeme at hKind
  split at hKind
  · cases hKind
  split at hKind
  · cases hKind
  split at hKind
  · exact absurd (Option.some.inj hKind) (hWords _)
  split at hKind
  · rename_i hDigit
    exact hDigit
  split at hKind
  · cases hKind
  · exact absurd hKind symbol_ne_intLiteral

/- Integer literals are found in code, behind a digit. -/
theorem intLexeme_of_kind
    {es : List Enclosure}
    {c : Char}
    {cs : List Char}
    (hKind : (lexeme es c cs).kind = some .intLiteral) :
    c.isDigit ∧ lexeme es c cs = intLexeme c cs := by
  have hCode : Mode.ofEnclosures es ≠ .text := by
    match es with
    | [] => exact nofun
    | .template _ :: _ => exact nofun
    | .text :: _ => cases fits_textLexeme hKind
  have hDigit : c.isDigit := by
    match es with
    | [] => exact isDigit_of_codeLexeme hKind
    | .text :: _ => exact absurd rfl hCode
    | .template (_ + 1) :: _ =>
        exact isDigit_of_codeLexeme hKind
    | .template 0 :: _ =>
        unfold lexeme at hKind
        split at hKind
        · rename_i hEq
          cases hEq
        · split at hKind
          · cases hKind
          · exact isDigit_of_codeLexeme hKind
        · exact isDigit_of_codeLexeme hKind
  exact ⟨hDigit, lexeme_of_isDigit hCode hDigit cs⟩

namespace IntText

/- Only characters of words go on with a literal. -/
theorem isWordPart_of_goesOnWith
    {n : IntText}
    {c : Char}
    (hMore : n.GoesOnWith c) :
    isWordPart c := by
  rcases hMore with ⟨m, more, hText⟩
  have hMem : c ∈ m.text := by
    rw [hText]
    exact List.mem_append_right _ List.mem_cons_self
  rcases List.mem_append.mp hMem with hBody | hMark
  · exact IntBody.isWordPart_of_mem_text hBody
  · have hLong := m.isLongMark c (Option.mem_toList.mp hMark)
    rcases hLong with rfl | rfl <;> rfl

/- A literal is not empty. -/
theorem exists_cons (n : IntText) :
    ∃ c cs, n.text = c :: cs := by
  rcases n with ⟨b, mark, isMark⟩
  cases b <;> exact ⟨_, _, rfl⟩

/- Every literal that the lexer finds is one. -/
theorem exists_of_token
    {source : String}
    {file? : Option String}
    {t : Token}
    (hToken : t ∈ tokenize source file?)
    (hKind : t.kind = .intLiteral) :
    ∃ n : IntText, t.value = String.ofList n.text := by
  rcases exists_lexeme_of_token hToken (by simp [hKind])
    with ⟨es, c, cs, hLexeme, hValue⟩
  rw [hKind] at hLexeme
  rcases intLexeme_of_kind hLexeme with ⟨hDigit, hInt⟩
  rcases exists_intText hDigit cs with ⟨n, hText⟩
  refine ⟨n, ?_⟩
  rw [hValue, hInt, hText]

/-
  A literal is the first lexeme if no longer one is in its
  place.
-/
theorem more_intLexeme_text
    {n : IntText}
    {c : Char}
    {cs rest : List Char}
    (hText : n.text = c :: cs)
    (hStop : ∀ d ∈ rest.head?, ¬ n.GoesOnWith d) :
    (intLexeme c (cs ++ rest)).more = cs.length := by
  have hWhole : n.text ++ rest = c :: (cs ++ rest) := by
    rw [hText, List.cons_append]
  rcases length_le_more_intLexeme n hWhole with
    ⟨hDigit, hLess⟩
  rw [hText, List.length_cons] at hLess
  have hFrom := Nat.le_of_succ_le_succ hLess
  rcases Nat.lt_or_eq_of_le hFrom with hLonger | hSame
  · rcases exists_intText hDigit (cs ++ rest) with ⟨m, hTaken⟩
    have hMost := more_intLexeme_le c (cs ++ rest)
    rw [List.length_append] at hMost
    cases rest with
    | nil =>
        rw [List.length_nil] at hMost
        omega
    | cons d ds =>
        refine absurd ⟨m, ds.take
          ((intLexeme c (cs ++ d :: ds)).more - cs.length - 1),
          ?_⟩ (hStop d rfl)
        rcases Nat.exists_eq_add_of_lt hLonger with ⟨k, hMore⟩
        rw [← hTaken, hText, hMore, List.cons_append,
          Nat.add_assoc, List.take_length_add_append,
          List.take_succ_cons]
        congr 4
        omega
  · exact hSame.symm

/-
  In code a literal is the first token of a text, if what
  follows does not go on with it.
-/
theorem tokens_text
    {n : IntText}
    {rest : List Char}
    (hStop : ∀ d ∈ rest.head?, ¬ n.GoesOnWith d)
    {es : List Enclosure}
    (hCode : Mode.ofEnclosures es ≠ .text)
    (p : Position) :
    Lexer.tokensFrom p es (n.text ++ rest) =
      ⟨.intLiteral, String.ofList n.text,
          ⟨p, p.afterAll n.text⟩⟩ ::
        Lexer.tokensFrom (p.afterAll n.text) es rest := by
  rcases n.exists_cons with ⟨c, cs, hText⟩
  have hWhole : n.text ++ rest = c :: (cs ++ rest) := by
    rw [hText, List.cons_append]
  have hDigit := (length_le_more_intLexeme n hWhole).1
  have hLexeme := lexeme_of_isDigit hCode hDigit (cs ++ rest)
  have hMore :
      (lexeme es c (cs ++ rest)).more = cs.length := by
    rw [hLexeme]
    exact more_intLexeme_text hText hStop
  have hKind :
      (lexeme es c (cs ++ rest)).kind = some .intLiteral := by
    rw [hLexeme]
    exact kind_intLexeme c (cs ++ rest)
  rw [hWhole, hText]
  exact Lexer.tokens_of_token hMore hKind p

/- What is read of a literal, and what is refused. -/
theorem outcome_intLiteral_text
    (n : IntText)
    {t : Token}
    (hValue : t.value = String.ofList n.text)
    (s : ParserState) :
    (Grammar.intLiteral t).outcome s =
      match n.form? with
      | some form => (.ok (.new form t.span), s)
      | none =>
          (.error
            ⟨.invalidIntLiteral t.value, t.span.start⟩, s) := by
  unfold Grammar.intLiteral
  rw [hValue, n.intForm?_text]
  cases n.form? <;> rfl

end IntText

/-
  Integer literals are exact.

  Every token of an integer literal has the text of one.  A
  token with such a text is read as the number that the
  digits stand for, as a long one if the text has its mark,
  if there is a digit and the number is not too large; else
  the token is reported.  And in code every text of an
  integer literal is a token, if no character follows it that
  a longer literal goes on with.
-/
theorem integers_exact :
    (∀ (source : String) (file? : Option String),
        ∀ t ∈ tokenize source file?,
          t.kind = .intLiteral →
            ∃ n : IntText, t.value = String.ofList n.text) ∧
      (∀ (n : IntText) (t : Token) (s : ParserState),
          t.value = String.ofList n.text →
            (Grammar.intLiteral t).outcome s =
              match n.form? with
              | some form => (.ok (.new form t.span), s)
              | none =>
                  (.error
                    ⟨.invalidIntLiteral t.value,
                      t.span.start⟩, s)) ∧
        ∀ (n : IntText) (rest : List Char),
          (∀ c ∈ rest.head?, ¬ n.GoesOnWith c) →
            ∀ (es : List Enclosure) (p : Position),
              Mode.ofEnclosures es ≠ .text →
                Lexer.tokensFrom p es (n.text ++ rest) =
                  ⟨.intLiteral, String.ofList n.text,
                      ⟨p, p.afterAll n.text⟩⟩ ::
                    Lexer.tokensFrom (p.afterAll n.text) es
                      rest := by
  constructor
  · intro source file? t hToken hKind
    exact IntText.exists_of_token hToken hKind
  constructor
  · intro n t s hValue
    exact n.outcome_intLiteral_text hValue s
  · intro n rest hStop es p hCode
    exact IntText.tokens_text hStop hCode p

/- A long number in hexadecimal with an underscore. -/
def longHexadecimal : IntText where
  body :=
    .marked .hexadecimal 'x' ['7', 'F', '_'] rfl
      (List.cons_ne_nil _ _) (List.all_eq_true.mp rfl)
  longMark := some 'L'
  isLongMark := fun _ hMem => .inr (Option.some.inj hMem).symm

/- It is read before a sum. -/
theorem integers_exact_hexadecimal :
    ∃ t ∈ tokenize "0x7F_L + 1" none,
      (∃ n : IntText, t.value = String.ofList n.text) ∧
        ∀ s,
          (Grammar.intLiteral t).outcome s =
            (.ok (.new (.long 127) t.span), s) := by
  have hSource :
      "0x7F_L + 1".toList =
        longHexadecimal.text ++ " + 1".toList :=
    rfl
  have hStop :
      ∀ c ∈ " + 1".toList.head?,
        ¬ longHexadecimal.GoesOnWith c := by
    rintro c ⟨⟩ hMore
    cases IntText.isWordPart_of_goesOnWith hMore
  have hTokens :=
    integers_exact.2.2 longHexadecimal " + 1".toList hStop []
      (Position.first Lexer.unnamed) nofun
  have hFirst :
      ⟨.intLiteral, String.ofList longHexadecimal.text,
          ⟨Position.first Lexer.unnamed,
            (Position.first Lexer.unnamed).afterAll
              longHexadecimal.text⟩⟩ ∈
        tokenize "0x7F_L + 1" none := by
    unfold tokenize Lexer.tokens Lexer.start
    dsimp only
    rw [hSource]
    exact List.mem_of_mem_head? (congrArg List.head? hTokens)
  have hForm :
      longHexadecimal.form? = some (.long 127) :=
    rfl
  refine ⟨_, hFirst, integers_exact.1 _ _ _ hFirst rfl, ?_⟩
  intro s
  rw [integers_exact.2.1 longHexadecimal _ s rfl, hForm]

end SourceCheck
