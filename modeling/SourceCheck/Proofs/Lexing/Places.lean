import Mathlib.Data.List.DropRight
import Mathlib.Data.String.Basic
import SourceCheck.Source.Line

/-
  What places of a source text say about it.

  An offset counts the bytes of the text before a place, and
  the bytes between two offsets are a part of the text.  The
  line and the column of a place count the line feeds before
  it, and the characters behind the last of them.

  Key definitions include:
    * `slice`
    * `Position.Marks`
    * `Position.Fits`

  Key theorems include:
    * `slice_of_append`
    * `Position.Marks.afterAll`
    * `Position.Marks.fits`
-/

namespace SourceCheck

------------------------------------------------------------
-- Parts of a text
------------------------------------------------------------

/- The part of a text between two byte offsets. -/
def slice (source : String) (a b : Nat) : String :=
  String.Pos.Raw.extract source ⟨a⟩ ⟨b⟩

theorem utf8Length_eq_utf8Len (cs : List Char) :
    utf8Length cs = String.utf8Len cs := by
  induction cs with
  | nil => rfl
  | cons c cs ih =>
      rw [utf8Length_cons, String.utf8Len_cons, ih,
        Nat.add_comm]

/- The bytes of a text are those of its characters. -/
theorem utf8ByteSize_eq (source : String) :
    source.utf8ByteSize = utf8Length source.toList := by
  rw [utf8Length_eq_utf8Len, ← String.utf8ByteSize_ofList,
    String.ofList_toList]

/- What stands behind as many bytes is the part there. -/
theorem slice_of_append
    {source : String}
    {before text after : List Char}
    (hSource : source.toList = before ++ text ++ after) :
    slice source (utf8Length before)
        (utf8Length (before ++ text)) =
      String.ofList text := by
  have hExtract := String.extract_of_valid before text after
  rw [← hSource, String.ofList_toList] at hExtract
  unfold slice
  rw [utf8Length_append, utf8Length_eq_utf8Len,
    utf8Length_eq_utf8Len]
  exact hExtract

------------------------------------------------------------
-- Lines and columns
------------------------------------------------------------

namespace Position

/-
  The place stands behind the given characters from the
  start of a text.
-/
structure Marks
    (p : Position)
    (before : List Char) :
    Prop where
  offset : p.offset = utf8Length before
  line : p.line = 1 + before.count '\n'
  column :
    p.column =
      1 + (before.rtakeWhile (· != '\n')).length

/- A text starts in its first line and column. -/
theorem marks_first (file : String) :
    (first file).Marks [] :=
  ⟨rfl, rfl, rfl⟩

/- A line feed starts a line, others are passed in it. -/
theorem Marks.after
    {p : Position}
    {before : List Char}
    (hMarks : p.Marks before)
    (c : Char) :
    (p.after c).Marks (before ++ [c]) := by
  have hOffset :
      (p.after c).offset = utf8Length (before ++ [c]) := by
    rw [offset_after, hMarks.offset, utf8Length_append]
    rfl
  by_cases hLine : c = '\n'
  · subst hLine
    refine ⟨hOffset, ?_, ?_⟩
    · rw [Position.after, if_pos rfl, List.count_append,
        hMarks.line]
      rfl
    · rw [Position.after, if_pos rfl,
        List.rtakeWhile_concat_neg _ _ _ (by decide)]
      rfl
  · refine ⟨hOffset, ?_, ?_⟩
    · rw [Position.after, if_neg hLine, List.count_append,
        hMarks.line, List.count_singleton,
        if_neg (by simpa using hLine)]
      rfl
    · rw [Position.after, if_neg hLine,
        List.rtakeWhile_concat_pos _ _ _
          (by simpa using hLine),
        List.length_append, hMarks.column]
      rfl

theorem Marks.afterAll
    {p : Position}
    {before : List Char}
    (hMarks : p.Marks before)
    (cs : List Char) :
    (p.afterAll cs).Marks (before ++ cs) := by
  induction cs generalizing p before with
  | nil =>
      rw [List.append_nil]
      exact hMarks
  | cons c cs ih =>
      rw [List.append_cons]
      exact ih (hMarks.after c)

end Position

------------------------------------------------------------
-- Counts
------------------------------------------------------------

/- What is counted fits into 32 bits. -/
structure Position.Fits (p : Position) : Prop where
  offset_lt : p.offset < 2 ^ 32
  line_lt : p.line < 2 ^ 32
  column_lt : p.column < 2 ^ 32

/- No place of a text counts more than its characters. -/
theorem Position.Marks.fits
    {p : Position}
    {source : String}
    {before after : List Char}
    (hMarks : p.Marks before)
    (hSource : source.toList = before ++ after)
    (hSize : source.utf8ByteSize < 2 ^ 32 - 1) :
    p.Fits := by
  have hBytes := length_le_utf8Length before
  rw [utf8ByteSize_eq, hSource, utf8Length_append] at hSize
  constructor
  · rw [hMarks.offset]
    omega
  · have hLines : before.count '\n' ≤ before.length :=
      List.count_le_length
    rw [hMarks.line]
    omega
  · have hColumns :=
      (List.rtakeWhile_suffix (· != '\n') before).length_le
    rw [hMarks.column]
    omega

end SourceCheck
