import SourceCheck.Text.GraphemeExtend
import SourceCheck.Text.Unprintable

/-
  Texts as they are quoted in messages.

  A quoted text stands between double quotes.  A backslash,
  a double quote and the common controls have a short escape,
  every other character that has no printed form of its own,
  or joins the character before it, is written as a code
  point in hexadecimal, and the rest stands for itself.

  Key definitions include:
    * `needsEscape`
    * `escaped`
    * `quoted`
-/

namespace SourceCheck

------------------------------------------------------------
-- Escapes
------------------------------------------------------------

/- A code point in lower-case hexadecimal, in braces. -/
def codePointEscape (c : Char) : List Char :=
  ['\\', 'u', '\x7b'] ++ Nat.toDigits 16 c.toNat ++
    ['\x7d']

/-
  The sound marks of halfwidth text extend the character
  before them, but have a width and a form of their own.
-/
def isHalfwidthMark (c : Char) : Bool :=
  c = '\uff9e' || c = '\uff9f'

/-
  A character that cannot be shown by itself: it has no
  printed form, or it joins the character before it.
-/
def needsEscape (c : Char) : Bool :=
  isUnprintable c ||
    (isGraphemeExtend c && !isHalfwidthMark c)

/- One character as it is written between the quotes. -/
def escaped (c : Char) : List Char :=
  match c with
  | '\x00' => ['\\', '0']
  | '\t' => ['\\', 't']
  | '\r' => ['\\', 'r']
  | '\n' => ['\\', 'n']
  | '"' => ['\\', '"']
  | '\\' => ['\\', '\\']
  | c =>
      if needsEscape c then
        codePointEscape c
      else
        [c]

------------------------------------------------------------
-- Quoted texts
------------------------------------------------------------

/- A text between double quotes, with escapes. -/
def quoted (s : String) : String :=
  String.ofList (['"'] ++ s.toList.flatMap escaped ++ ['"'])

end SourceCheck
