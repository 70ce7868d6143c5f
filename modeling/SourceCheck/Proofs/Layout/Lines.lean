import SourceCheck.Proofs.Lexing.Places

/-
  Places and the lines that they stand in.

  The line of an offset is found by the lengths of the lines
  before it, and the line and the column of a place are
  counted along the text.  Both ways lead to the same line,
  also at the end of the text and in texts without lines.

  Key definitions include:
    * `IsLineOf`
    * `Position.IsShown`

  Key theorems include:
    * `lineAmong_place`
    * `Position.Marks.isShown`
-/

namespace SourceCheck

------------------------------------------------------------
-- Lines of a text
------------------------------------------------------------

/-
  The text of the line with a number, which counts the line
  feeds before it.  A line ends with its line feed, or with
  the source.
-/
inductive IsLineOf (source : List Char) :
    Nat → List Char → Prop where
  | ended {before body after}
      (hStart : before = [] ∨ before.getLast? = some '\n')
      (hBody : '\n' ∉ body)
      (hSource :
        source = before ++ (body ++ ['\n']) ++ after) :
      IsLineOf source (1 + before.count '\n')
        (body ++ ['\n'])
  | last {before body}
      (hStart : before = [] ∨ before.getLast? = some '\n')
      (hBody : '\n' ∉ body)
      (hSource : source = before ++ body) :
      IsLineOf source (1 + before.count '\n') body

/- A text without line feeds is one line. -/
theorem lines_unbroken
    {body : List Char}
    (hBody : '\n' ∉ body) :
    lines body = [body] := by
  induction body with
  | nil => rfl
  | cons c cs ih =>
      have hFirst : c ≠ '\n' :=
        (List.ne_of_not_mem_cons hBody).symm
      have hRest := ih (List.not_mem_of_not_mem_cons hBody)
      rw [lines, if_neg hFirst, hRest]

/- The first line feed ends the first line. -/
theorem lines_broken
    {body : List Char}
    (hBody : '\n' ∉ body)
    (cs : List Char) :
    lines (body ++ '\n' :: cs) =
      (body ++ ['\n']) :: lines cs := by
  induction body with
  | nil => rfl
  | cons c body ih =>
      have hFirst : c ≠ '\n' :=
        (List.ne_of_not_mem_cons hBody).symm
      have hRest := ih (List.not_mem_of_not_mem_cons hBody)
      rw [List.cons_append, lines, if_neg hFirst, hRest]
      rfl

/- A place in the first line is found there. -/
theorem lineAmong_first
    {number offset : Nat}
    {l : List Char}
    (hInside : offset < utf8Length l)
    (ls : List (List Char)) :
    lineAmong number offset (l :: ls) =
      some ⟨number, l, offset⟩ := by
  cases ls with
  | nil => exact if_pos hInside.le
  | cons m ls => exact if_pos hInside

/- The first line is passed if the place is behind it. -/
theorem lineAmong_rest
    {l : List Char}
    {ls : List (List Char)}
    (hMore : ls ≠ [])
    (number offset : Nat) :
    lineAmong number (utf8Length l + offset) (l :: ls) =
      lineAmong (number + 1) offset ls := by
  cases ls with
  | nil => exact absurd rfl hMore
  | cons m ls =>
      have hBehind :
          ¬utf8Length l + offset < utf8Length l := by
        omega
      rw [lineAmong, if_neg hBehind, Nat.add_sub_cancel_left]
      exact nofun

theorem lines_ne_nil (cs : List Char) : lines cs ≠ [] := by
  intro hNone
  have hText := flatten_lines cs
  rw [hNone] at hText
  subst hText
  cases hNone

------------------------------------------------------------
-- The line of a place
------------------------------------------------------------

/- What stands before a place in its line. -/
def lineStart (before : List Char) : List Char :=
  before.rtakeWhile (· != '\n')

theorem lineStart_unbroken
    {part : List Char}
    (hPart : '\n' ∉ part) :
    lineStart part = part := by
  refine List.rtakeWhile_eq_self_iff.2 fun c hMember => ?_
  refine bne_iff_ne.2 ?_
  rintro rfl
  exact hPart hMember

theorem lineStart_broken (part cs : List Char) :
    lineStart (part ++ '\n' :: cs) = lineStart cs := by
  unfold lineStart List.rtakeWhile
  rw [List.reverse_append, List.reverse_cons,
    List.append_assoc, List.takeWhile_append]
  split
  · rename_i hAll
    have hSelf :
        cs.reverse.takeWhile (· != '\n') = cs.reverse :=
      (List.takeWhile_prefix _).eq_of_length hAll
    simp [hSelf]
  · rfl

/- What stands behind a place up to the end of its line. -/
def lineEnd (after : List Char) : List Char :=
  (lines after).headD []

theorem lineEnd_unbroken
    {body : List Char}
    (hBody : '\n' ∉ body) :
    lineEnd body = body := by
  rw [lineEnd, lines_unbroken hBody, List.headD_cons]

theorem lineEnd_broken
    {body : List Char}
    (hBody : '\n' ∉ body)
    (cs : List Char) :
    lineEnd (body ++ '\n' :: cs) = body ++ ['\n'] := by
  rw [lineEnd, lines_broken hBody, List.headD_cons]

/- A text ends its first line, or is all of it. -/
theorem broken_or_unbroken (after : List Char) :
    '\n' ∉ after ∨
      ∃ body cs,
        after = body ++ '\n' :: cs ∧ '\n' ∉ body := by
  by_cases hBroken : '\n' ∈ after
  · exact .inr (List.eq_append_cons_of_mem hBroken)
  · exact .inl hBroken

/-
  The line of a place is found by the bytes before it.  The
  induction is on the text before the place, where `part` is
  what was passed of the line that is read.
-/
theorem lineAmong_place
    {part : List Char}
    (hPart : '\n' ∉ part)
    (before after : List Char)
    (number : Nat) :
    lineAmong number (utf8Length (part ++ before))
        (lines (part ++ before ++ after)) =
      some
        ⟨number + before.count '\n',
          lineStart (part ++ before) ++ lineEnd after,
          utf8Length (lineStart (part ++ before))⟩ := by
  induction before generalizing part number with
  | nil =>
      rw [List.append_nil, lineStart_unbroken hPart]
      rcases broken_or_unbroken after with
        hAfter | ⟨body, cs, rfl, hBody⟩
      · have hLine : '\n' ∉ part ++ after :=
          List.mem_append.not.2 (not_or.2 ⟨hPart, hAfter⟩)
        have hInside :
            utf8Length part ≤ utf8Length (part ++ after) := by
          rw [utf8Length_append]
          exact Nat.le_add_right _ _
        rw [lines_unbroken hLine, lineAmong, if_pos hInside,
          lineEnd_unbroken hAfter]
        rfl
      · have hLine : '\n' ∉ part ++ body :=
          List.mem_append.not.2 (not_or.2 ⟨hPart, hBody⟩)
        have hInside :
            utf8Length part <
              utf8Length (part ++ body ++ ['\n']) := by
          have hSize := Char.utf8Size_pos '\n'
          rw [utf8Length_append, utf8Length_append,
            utf8Length_cons]
          omega
        rw [← List.append_assoc, lines_broken hLine,
          lineAmong_first hInside, lineEnd_broken hBody,
          List.append_assoc]
        rfl
  | cons c cs ih =>
      by_cases hBreak : c = '\n'
      · -- The line that was read is passed, and a new one starts.
        subst hBreak
        have hShape :
            part ++ '\n' :: cs ++ after =
              part ++ '\n' :: (cs ++ after) := by
          simp
        have hLength :
            utf8Length (part ++ '\n' :: cs) =
              utf8Length (part ++ ['\n']) + utf8Length cs := by
          rw [← utf8Length_append]
          simp
        have hNone : '\n' ∉ ([] : List Char) :=
          List.not_mem_nil
        have hOthers := ih hNone (number + 1)
        rw [hShape, hLength, lines_broken hPart,
          lineAmong_rest (lines_ne_nil _), lineStart_broken,
          List.count_cons_self, ← Nat.add_assoc,
          Nat.add_right_comm]
        exact hOthers
      · have hLonger : '\n' ∉ part ++ [c] := by
          simp only [List.mem_append, List.mem_singleton,
            hPart, Ne.symm hBreak, or_self, not_false_iff]
        have hOthers := ih hLonger number
        rw [List.append_cons,
          List.count_cons_of_ne hBreak]
        exact hOthers

------------------------------------------------------------
-- Places
------------------------------------------------------------

/-
  The line of a place is found by its offset, and says where
  the place is: it is the line with the number of the place,
  which stands behind as many characters as its column says,
  in as many bytes as were found.
-/
def Position.IsShown
    (source : String)
    (p : Position) :
    Prop :=
  ∃ shown rest,
    lineAt source p.offset =
        some ⟨p.line, shown ++ rest, utf8Length shown⟩ ∧
      IsLineOf source.toList p.line (shown ++ rest) ∧
        p.column = shown.length + 1

/- The text before a line is empty or ends with a line feed. -/
theorem exists_lineStart (before : List Char) :
    ∃ earlier,
      before = earlier ++ lineStart before ∧
        (earlier = [] ∨ earlier.getLast? = some '\n') ∧
          '\n' ∉ lineStart before := by
  refine ⟨before.rdropWhile (· != '\n'),
    List.rdropWhile_append_rtakeWhile.symm, ?_, ?_⟩
  · refine or_iff_not_imp_left.2 fun hSome => ?_
    have hLast := List.rdropWhile_last_not _ before hSome
    rw [List.getLast?_eq_some_getLast hSome]
    simpa using hLast
  · intro hMember
    have hOther := List.mem_rtakeWhile_imp hMember
    exact absurd hOther (by decide)

/- What stands around a place in its line is that line. -/
theorem isLineOf_place (before after : List Char) :
    IsLineOf (before ++ after) (1 + before.count '\n')
      (lineStart before ++ lineEnd after) := by
  rcases exists_lineStart before with
    ⟨earlier, hBefore, hStart, hPart⟩
  have hCount :
      before.count '\n' = earlier.count '\n' := by
    rw [hBefore, List.count_append,
      List.count_eq_zero_of_not_mem hPart, Nat.add_zero]
  generalize lineStart before = part at hBefore hPart ⊢
  rw [hCount]
  rcases broken_or_unbroken after with
    hAfter | ⟨body, cs, rfl, hBody⟩
  · rw [lineEnd_unbroken hAfter]
    refine .last hStart
      (List.mem_append.not.2 (not_or.2 ⟨hPart, hAfter⟩)) ?_
    rw [hBefore, List.append_assoc]
  · have hSource :
        before ++ (body ++ '\n' :: cs) =
          earlier ++ (part ++ body ++ ['\n']) ++ cs := by
      rw [hBefore]
      simp only [List.append_assoc, List.cons_append,
        List.nil_append]
    rw [lineEnd_broken hBody, ← List.append_assoc part]
    exact .ended hStart
      (List.mem_append.not.2 (not_or.2 ⟨hPart, hBody⟩))
      hSource

/- A place that counts the text before it is shown there. -/
theorem Position.Marks.isShown
    {source : String}
    {p : Position}
    {before after : List Char}
    (hMarks : p.Marks before)
    (hSource : source.toList = before ++ after) :
    p.IsShown source := by
  have hFound :=
    lineAmong_place List.not_mem_nil before after 1
  have hLine := isLineOf_place before after
  rw [← hSource, ← hMarks.line] at hLine
  rw [List.nil_append, ← hSource, ← hMarks.line,
    ← hMarks.offset] at hFound
  refine ⟨lineStart before, lineEnd after, hFound, hLine, ?_⟩
  rw [hMarks.column, Nat.add_comm]
  rfl

end SourceCheck
