import SourceCheck.Text.CharRange

/-
  Blank characters and the trimming of a line.

  A character is blank when it has the property that is
  called White_Space.

  Key definitions include:
    * `blankRanges`
    * `isBlank`
    * `trimEnd`
-/

namespace SourceCheck

------------------------------------------------------------
-- Blanks
------------------------------------------------------------

/- The characters with the property. -/
def blankRanges : List CharRange :=
  [ ⟨0x9, 0xd⟩, ⟨0x20, 0x20⟩, ⟨0x85, 0x85⟩,
    ⟨0xa0, 0xa0⟩, ⟨0x1680, 0x1680⟩, ⟨0x2000, 0x200a⟩,
    ⟨0x2028, 0x2029⟩, ⟨0x202f, 0x202f⟩, ⟨0x205f, 0x205f⟩,
    ⟨0x3000, 0x3000⟩ ]

/- Whether a character is blank. -/
def isBlank (c : Char) : Bool :=
  CharRange.anyHas blankRanges c

------------------------------------------------------------
-- Trimming
------------------------------------------------------------

/- A text without the blanks at its end. -/
def trimEnd (cs : List Char) : List Char :=
  (cs.reverse.dropWhile isBlank).reverse

end SourceCheck
