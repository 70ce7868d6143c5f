import SourceCheck.Diagnostic.Basic
import SourceCheck.Source.Line
import SourceCheck.Text.Blank

/-
  Diagnostics as they are shown to the reader.

  A diagnostic is shown with its name, its tip and its
  place; below stands the line of the source text, without
  its indentation, and a caret below the place.

  Key definitions include:
    * `padLeft`
    * `SourceLine.rendered`
    * `Diagnostic.rendered`
-/

namespace SourceCheck

------------------------------------------------------------
-- Texts of a given width
------------------------------------------------------------

/- A text that is filled up on its left to a width. -/
def padLeft
    (width : Nat)
    (fill : Char)
    (s : String) :
    String :=
  String.ofList
    (List.replicate (width - s.length) fill ++ s.toList)

/- Lines of output, each ended by a line feed. -/
def printed (ls : List String) : String :=
  String.join (ls.map (· ++ "\n"))

------------------------------------------------------------
-- Source lines
------------------------------------------------------------

/- A character of the indentation of a line. -/
def isIndentation (c : Char) : Bool :=
  c = ' ' || c = '\t'

namespace SourceLine

/- How much the line is indented. -/
def indentation (l : SourceLine) : Nat :=
  (l.text.takeWhile isIndentation).length

/- The line without its indentation and its end. -/
def visible (l : SourceLine) : String :=
  String.ofList (trimEnd (l.text.dropWhile isIndentation))

/-
  The line with its number, and a caret below the place that
  was asked for.  The number sets the width of the margin.
-/
def rendered (l : SourceLine) : List String :=
  let number := toString l.number
  let margin := padLeft (number.length + 2) ' ' "|"
  let width := l.column - l.indentation + 1
  [ margin,
    number ++ " | " ++ l.visible,
    margin ++ " " ++ padLeft width '-' "^" ]

end SourceLine

------------------------------------------------------------
-- Diagnostics
------------------------------------------------------------

namespace Diagnostic

/- The name of a diagnostic, with its tip. -/
def headline (d : Diagnostic) : String :=
  match d.problem.tip? with
  | none => "Error: " ++ d.problem.name
  | some tip =>
      "Error: " ++ d.problem.name ++ " (" ++ tip ++ ")"

/-
  A diagnostic as it is shown.  The line is left out if the
  place lies outside of the source text.
-/
def rendered (d : Diagnostic) (source : String) : String :=
  let place := "-> " ++ d.position.text
  match lineAt source d.position.offset with
  | none => printed [d.headline, place]
  | some l => printed ([d.headline, place] ++ l.rendered)

end Diagnostic

end SourceCheck
