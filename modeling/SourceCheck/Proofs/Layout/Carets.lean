import Mathlib
import SourceCheck.Diagnostic.Rendering
import SourceCheck.Proofs.Layout.Diagnostics

/-
  Where the caret of a shown diagnostic stands.

  The caret is moved by the bytes before its place, and the
  characters of a line take one column each.  So the caret
  stands below its place if the text between the indentation
  and the place has characters of one byte only, and too far
  to the right if it has others.

  Key definitions include:
    * `shownBefore`
    * `SourceLine.gutter`

  Key theorems include:
    * `SourceLine.exists_caret`
    * `SourceLine.getElem?_row`
    * `column_of_caret`
-/

namespace SourceCheck

------------------------------------------------------------
-- Bytes and characters
------------------------------------------------------------

/- A text has as many bytes if each character takes one. -/
theorem utf8Length_eq_length_iff (cs : List Char) :
    utf8Length cs = cs.length ↔ ∀ c ∈ cs, c.utf8Size = 1 := by
  induction cs with
  | nil => simp
  | cons c cs ih =>
      have hSize := Char.utf8Size_pos c
      have hRest := length_le_utf8Length cs
      rw [List.forall_mem_cons, ← ih, List.length_cons,
        utf8Length_cons]
      omega

------------------------------------------------------------
-- Indentation
------------------------------------------------------------

/- Each character of the indentation takes one byte. -/
theorem utf8Size_of_isIndentation
    {c : Char}
    (hIndents : isIndentation c = true) :
    c.utf8Size = 1 := by
  unfold isIndentation at hIndents
  rcases Bool.or_eq_true_iff.mp hIndents with
    hBlank | hTab
  · rw [of_decide_eq_true hBlank]
    rfl
  · rw [of_decide_eq_true hTab]
    rfl

variable {part : List Char}
variable {c : Char}

/-
  A line is indented up to a place that does not belong to
  its indentation, and no further.
-/
theorem indentation_of_place
    (hPlace : ∃ x ∈ part ++ [c], isIndentation x = false)
    (rest : List Char) :
    (part ++ c :: rest).takeWhile isIndentation =
        part.takeWhile isIndentation ∧
      (part ++ c :: rest).dropWhile isIndentation =
        part.dropWhile isIndentation ++ c :: rest := by
  rw [List.takeWhile_append, List.dropWhile_append]
  by_cases hAll : ∀ x ∈ part, isIndentation x = true
  · -- The line is indented up to the place itself.
    have hTake : part.takeWhile isIndentation = part :=
      List.takeWhile_eq_self_iff.mpr hAll
    have hDrop : part.dropWhile isIndentation = [] :=
      List.dropWhile_eq_nil_iff.mpr hAll
    have hHere : isIndentation c = false := by
      rcases hPlace with ⟨x, hMember, hNot⟩
      rcases List.mem_append.mp hMember with hPart | hLast
      · rw [hAll x hPart] at hNot
        cases hNot
      · rw [← List.mem_singleton.mp hLast]
        exact hNot
    simp [hTake, hDrop, hHere]
  · have hSome : part.dropWhile isIndentation ≠ [] :=
      fun hNone => hAll (List.dropWhile_eq_nil_iff.mp hNone)
    have hLength :
        (part.takeWhile isIndentation).length ≠
          part.length := by
      intro hSame
      have hTake : part.takeWhile isIndentation = part :=
        (List.takeWhile_prefix _).eq_of_length hSame
      exact hAll (List.takeWhile_eq_self_iff.mp hTake)
    rw [if_neg hLength,
      if_neg (by rwa [List.isEmpty_iff])]
    exact ⟨rfl, rfl⟩

/- What is left of the bytes before the place. -/
theorem utf8Length_sub_indentation (part : List Char) :
    utf8Length part -
        (part.takeWhile isIndentation).length =
      utf8Length (part.dropWhile isIndentation) := by
  have hBytes :
      utf8Length (part.takeWhile isIndentation) =
        (part.takeWhile isIndentation).length :=
    (utf8Length_eq_length_iff _).mpr fun c hMember =>
      utf8Size_of_isIndentation
        (List.mem_takeWhile_imp hMember)
  have hWhole :=
    congrArg utf8Length
      (List.takeWhile_append_dropWhile
        (p := isIndentation) (l := part))
  rw [utf8Length_append, hBytes] at hWhole
  omega

------------------------------------------------------------
-- The ends of lines
------------------------------------------------------------

/- Only what is behind the last character is cut off. -/
theorem exists_trimEnd
    (text : List Char)
    (hSome : ∃ x ∈ c :: rest, isBlank x = false) :
    ∃ others,
      trimEnd (text ++ c :: rest) = text ++ c :: others := by
  rcases hSome with ⟨x, hMember, hVisible⟩
  rcases List.append_of_mem hMember with
    ⟨front, back, hRest⟩
  have hKeeps :
      trimEnd (text ++ c :: rest) =
        (text ++ front) ++ x :: trimEnd back := by
    unfold trimEnd
    rw [hRest, ← List.append_assoc, List.reverse_append,
      List.reverse_cons, List.append_assoc,
      List.dropWhile_append]
    split
    · rename_i hNone
      rw [List.isEmpty_iff.mp hNone]
      simp [hVisible]
    · simp
  rw [hKeeps, List.append_assoc]
  cases front with
  | nil =>
      cases hRest
      exact ⟨_, rfl⟩
  | cons a front =>
      cases hRest
      exact ⟨_, rfl⟩

------------------------------------------------------------
-- Shown lines
------------------------------------------------------------

namespace SourceLine

/-
  How many characters stand to the left of the text of a
  shown line, and to the left of the dashes below.
-/
def gutter (l : SourceLine) : Nat :=
  (toString l.number).length + 3

/- The line below a shown line ends with its only caret. -/
theorem exists_caret (l : SourceLine) :
    ∃ margin caret front,
      l.rendered =
          [ margin,
            toString l.number ++ " | " ++ l.visible,
            caret ] ∧
        caret.toList = front ++ ['^'] ∧
          '^' ∉ front ∧
            front.length =
              l.gutter + (l.column - l.indentation) := by
  refine ⟨_, _,
    List.replicate ((toString l.number).length + 1) ' ' ++
      '|' :: ' ' ::
        List.replicate (l.column - l.indentation) '-',
    rfl, ?_, ?_, ?_⟩
  · have hBar : "|".length = 1 := rfl
    have hCaret : "^".length = 1 := rfl
    simp [padLeft, hBar, hCaret]
  · simp [List.mem_replicate]
  · simp only [List.length_append, List.length_replicate,
      List.length_cons, gutter]
    omega

/- A character is shown behind what is shown before it. -/
theorem getElem?_row
    (number : Nat)
    (text : List Char)
    (hSome : ∃ x ∈ c :: rest, isBlank x = false) :
    (toString number ++ " | " ++
          String.ofList
            (trimEnd (text ++ c :: rest))).toList[
        (toString number).length + 3 + text.length]? =
      some c := by
  rcases exists_trimEnd text hSome with ⟨others, hShown⟩
  have hGutter :
      (toString number ++ " | ").toList.length =
        (toString number).length + 3 := by
    rw [String.toList_append, List.length_append]
    rfl
  rw [hShown, String.toList_append, String.toList_ofList,
    ← List.append_assoc, ← hGutter, ← List.length_append,
    List.getElem?_append_right (Nat.le_refl _), Nat.sub_self]
  rfl

end SourceLine

------------------------------------------------------------
-- Shown diagnostics
------------------------------------------------------------

/- What is shown of a line before a place in it. -/
def shownBefore (before : List Char) : List Char :=
  (lineStart before).dropWhile isIndentation

/- A line goes on behind a place with what stands there. -/
theorem exists_lineEnd (c : Char) (after : List Char) :
    ∃ rest, lineEnd (c :: after) = c :: rest := by
  unfold lineEnd lines
  split
  · exact ⟨[], rfl⟩
  · split
    · exact ⟨[], rfl⟩
    · exact ⟨_, rfl⟩

/- The line of a diagnostic is divided by its place. -/
theorem lineAt_of_error
    {l : Library}
    {source file : String}
    {ds : List Diagnostic}
    {d : Diagnostic}
    {before after : List Char}
    (hFailed : compile l source file = .error ds)
    (hMember : d ∈ ds)
    (hSource : source.toList = before ++ after)
    (hOffset : d.position.offset = utf8Length before) :
    lineAt source d.position.offset =
      some
        ⟨d.position.line, lineStart before ++ lineEnd after,
          utf8Length (lineStart before)⟩ := by
  have hFound :=
    lineAmong_place List.not_mem_nil before after 1
  rw [List.nil_append, ← hSource, ← hOffset] at hFound
  rcases (shown_of_error hFailed d hMember).2 with
    ⟨shown, rest, hShown, -, -⟩
  have hLine : 1 + before.count '\n' = d.position.line := by
    have hBoth := hFound.symm.trans hShown
    exact congrArg SourceLine.number (Option.some.inj hBoth)
  rw [← hLine]
  exact hFound

/-
  The column of the caret.

  Below the line of a diagnostic there is one caret.  If the
  place of the diagnostic does not belong to the indentation
  of the line, the caret is moved to the right by the bytes
  of what is shown before the place, and the character of
  the place by the characters there.  So the caret stands
  below the character if these take one byte each, and
  behind it otherwise.
-/
theorem column_of_caret
    {l : Library}
    {source file : String}
    {ds : List Diagnostic}
    {d : Diagnostic}
    {before after : List Char}
    {c : Char}
    (hFailed : compile l source file = .error ds)
    (hMember : d ∈ ds)
    (hSource : source.toList = before ++ c :: after)
    (hOffset : d.position.offset = utf8Length before)
    (hPlace :
      ∃ x ∈ lineStart before ++ [c],
        isIndentation x = false) :
    ∃ margin row caret front,
      d.rendered source =
          printed
            [ d.headline, "-> " ++ d.position.text, margin,
              row, caret ] ∧
        row =
            toString d.position.line ++ " | " ++
              String.ofList
                (trimEnd
                  (shownBefore before ++
                    lineEnd (c :: after))) ∧
          (caret.toList = front ++ ['^'] ∧ '^' ∉ front) ∧
            let gutter :=
              (toString d.position.line).length + 3
            let column := gutter + (shownBefore before).length
            ((∃ x ∈ lineEnd (c :: after), isBlank x = false) →
                row.toList[column]? = some c) ∧
              front.length =
                  gutter + utf8Length (shownBefore before) ∧
                (front.length = column ↔
                  ∀ x ∈ shownBefore before,
                    x.utf8Size = 1) := by
  have hLine := lineAt_of_error hFailed hMember hSource hOffset
  rcases exists_lineEnd c after with ⟨rest, hEnd⟩
  rcases indentation_of_place hPlace rest with
    ⟨hTake, hDrop⟩
  rw [hEnd] at hLine ⊢
  generalize hShown :
    (⟨d.position.line, lineStart before ++ c :: rest,
      utf8Length (lineStart before)⟩ : SourceLine) = shown
    at hLine
  rcases shown.exists_caret with
    ⟨margin, caret, front, hRendered, hCaret, hOnly, hWidth⟩
  have hVisible :
      shown.visible =
        String.ofList
          (trimEnd (shownBefore before ++ c :: rest)) := by
    rw [← hShown]
    exact congrArg (fun cs => String.ofList (trimEnd cs)) hDrop
  have hBytes :
      shown.column - shown.indentation =
        utf8Length (shownBefore before) := by
    rw [← hShown]
    unfold SourceLine.indentation
    dsimp only
    rw [hTake, utf8Length_sub_indentation]
    rfl
  have hGutter :
      shown.gutter = (toString d.position.line).length + 3 := by
    rw [← hShown]
    rfl
  have hNumber : shown.number = d.position.line := by
    rw [← hShown]
  rw [hBytes, hGutter] at hWidth
  rw [hVisible, hNumber] at hRendered
  refine ⟨margin, _, caret, front, ?_, rfl, ⟨hCaret, hOnly⟩,
    ?_, hWidth, ?_⟩
  · unfold Diagnostic.rendered
    rw [hLine]
    dsimp only
    rw [hRendered]
    rfl
  · exact SourceLine.getElem?_row d.position.line
      (shownBefore before)
  · rw [hWidth, Nat.add_left_cancel_iff]
    exact utf8Length_eq_length_iff _

/- Where the diagnostics of a check stand. -/
def reportedOffsets :
    Except (List Diagnostic) Program → List Nat
  | .ok _ => []
  | .error ds => ds.map (·.position.offset)

/- A single diagnostic, known by its place. -/
theorem exists_of_reportedOffsets
    {r : Except (List Diagnostic) Program}
    {offset : Nat}
    (hPlaces : reportedOffsets r = [offset]) :
    ∃ d, r = .error [d] ∧ d.position.offset = offset := by
  cases r with
  | ok p => cases hPlaces
  | error ds =>
      rcases List.map_eq_singleton_iff.mp hPlaces with
        ⟨d, rfl, hOffset⟩
      exact ⟨d, rfl, hOffset⟩

/- The caret of a diagnostic behind a tab is in its place. -/
theorem column_of_caret_indented :
    ∃ d margin row caret front,
      compile .empty "\tval x = ;" "main" = .error [d] ∧
        d.rendered "\tval x = ;" =
            printed
              [ d.headline, "-> " ++ d.position.text, margin,
                row, caret ] ∧
          caret.toList = front ++ ['^'] ∧
            row.toList[front.length]? = some ';' := by
  have hPlaces :
      reportedOffsets
          (compile .empty "\tval x = ;" "main") =
        [9] := by
    cbv
  rcases exists_of_reportedOffsets hPlaces with
    ⟨d, hFailed, hOffset⟩
  have hSource :
      "\tval x = ;".toList =
        "\tval x = ".toList ++ ';' :: [] :=
    rfl
  rcases column_of_caret hFailed
      (List.mem_singleton_self d) hSource hOffset
      ⟨'v', by decide, by decide⟩ with
    ⟨margin, row, caret, front, hRendered, -, hCaret, hShown,
      -, hColumn⟩
  have hWidth :=
    hColumn.mpr (List.forall_iff_forall_mem.mp (by decide))
  refine ⟨d, margin, row, caret, front, hFailed, hRendered,
    hCaret.1, ?_⟩
  rw [hWidth]
  exact hShown ⟨';', by decide, by decide⟩

/- A letter of two bytes moves the caret one place too far. -/
theorem caret_shifted_accented :
    ∃ d,
      compile .empty "val x = \"é\" + ;" "main" =
          .error [d] ∧
        d.position.offset =
            utf8Length "val x = \"é\" + ".toList ∧
          d.rendered "val x = \"é\" + ;" =
              printed
                [ d.headline, "-> " ++ d.position.text, "  |",
                  "1 | val x = \"é\" + ;",
                  "  | ---------------^" ] ∧
            "1 | val x = \"é\" + ;".toList[18]? = some ';' ∧
              "  | ---------------^".toList[19]? =
                some '^' := by
  have hPlaces :
      reportedOffsets
          (compile .empty "val x = \"é\" + ;" "main") =
        [15] := by
    cbv
  have hLine :
      lineAt "val x = \"é\" + ;" 15 =
        some ⟨1, "val x = \"é\" + ;".toList, 15⟩ := by
    decide
  have hRendered :
      (⟨1, "val x = \"é\" + ;".toList, 15⟩ :
          SourceLine).rendered =
        [ "  |", "1 | val x = \"é\" + ;",
          "  | ---------------^" ] := by
    decide
  rcases exists_of_reportedOffsets hPlaces with
    ⟨d, hFailed, hOffset⟩
  refine ⟨d, hFailed, hOffset, ?_, by decide, by decide⟩
  unfold Diagnostic.rendered
  rw [hOffset, hLine]
  dsimp only
  rw [hRendered]
  rfl

end SourceCheck
