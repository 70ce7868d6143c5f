import SourceCheck.Source.Position

/-
  The line of a source text that holds a byte offset.

  A line ends with its line feed.  An offset at the very end
  of the text belongs to what follows the last line feed,
  which may be an empty line.

  Key definitions include:
    * `utf8Length`
    * `lines`
    * `SourceLine`
    * `lineAt`
-/

namespace SourceCheck

------------------------------------------------------------
-- Lines
------------------------------------------------------------

/- How many bytes the characters take in UTF-8. -/
def utf8Length : List Char → Nat
  | [] => 0
  | c :: cs => c.utf8Size + utf8Length cs

@[simp]
theorem utf8Length_nil : utf8Length [] = 0 :=
  rfl

@[simp]
theorem utf8Length_cons (c : Char) (cs : List Char) :
    utf8Length (c :: cs) = c.utf8Size + utf8Length cs :=
  rfl

theorem utf8Length_append (cs ds : List Char) :
    utf8Length (cs ++ ds) =
      utf8Length cs + utf8Length ds := by
  induction cs with
  | nil => simp
  | cons c cs ih => simp [ih, Nat.add_assoc]

/- No text has more characters than bytes. -/
theorem length_le_utf8Length (cs : List Char) :
    cs.length ≤ utf8Length cs := by
  induction cs with
  | nil => exact Nat.le_refl 0
  | cons c cs ih =>
      have hSize := c.utf8Size_pos
      rw [List.length_cons, utf8Length_cons]
      omega

/- Passing characters passes their bytes. -/
theorem Position.offset_afterAll
    (p : Position)
    (cs : List Char) :
    (p.afterAll cs).offset = p.offset + utf8Length cs := by
  induction cs generalizing p with
  | nil => rfl
  | cons c cs ih => simp [ih, Nat.add_assoc]

/-
  The lines of a text, each with its line feed.  What
  follows the last line feed is a line too, even when it is
  empty.
-/
def lines : List Char → List (List Char)
  | [] => [[]]
  | c :: cs =>
      if c = '\n' then
        [c] :: lines cs
      else
        match lines cs with
        | [] => [[c]]
        | l :: ls => (c :: l) :: ls

/- The lines make up the whole text. -/
theorem flatten_lines (cs : List Char) :
    (lines cs).flatten = cs := by
  induction cs with
  | nil => rfl
  | cons c cs ih =>
      by_cases h : c = '\n'
      · simp [lines, h, ih]
      · cases hl : lines cs with
        | nil =>
            rw [hl] at ih
            subst ih
            simp [lines] at hl
        | cons l ls =>
            rw [hl] at ih
            simp [lines, h, hl]
            simpa using ih

------------------------------------------------------------
-- The line of an offset
------------------------------------------------------------

/-
  A line with its number, and the number of bytes before the
  place that was asked for.
-/
structure SourceLine where
  number : Nat
  text : List Char
  column : Nat
deriving DecidableEq

/-
  The line among `ls` that holds the byte `offset`, counted
  from the start of the first of them, which is line
  `number`.  The end of the text lies in the last line.
-/
def lineAmong
    (number offset : Nat) :
    List (List Char) → Option SourceLine
  | [] => none
  | [l] =>
      if offset ≤ utf8Length l then
        some ⟨number, l, offset⟩
      else
        none
  | l :: ls =>
      if offset < utf8Length l then
        some ⟨number, l, offset⟩
      else
        lineAmong (number + 1) (offset - utf8Length l) ls

/- The line of a source text that holds a byte offset. -/
def lineAt
    (source : String)
    (offset : Nat) :
    Option SourceLine :=
  lineAmong 1 offset (lines source.toList)

end SourceCheck
