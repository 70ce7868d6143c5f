import SourceCheck.Text.Numeral
import SourceCheck.Tree.Basic

/-
  The values of literals.

  Key definitions include:
    * `intForm?`
    * `unescape?`
    * `StringPart`
    * `mergeTexts`
    * `stringForm`
-/

namespace SourceCheck

------------------------------------------------------------
-- Integers
------------------------------------------------------------

/- The radix of an integer literal, and its digits. -/
def radixOf : List Char → Nat × List Char
  | '0' :: 'x' :: ds => (16, ds)
  | '0' :: 'X' :: ds => (16, ds)
  | '0' :: 'b' :: ds => (2, ds)
  | '0' :: 'B' :: ds => (2, ds)
  | ds => (10, ds)

/- The text ends with the mark of long integers. -/
def endsWithLongMark (cs : List Char) : Bool :=
  match cs.getLast? with
  | some c => c = 'l' || c = 'L'
  | none => false

/- The first number that no integer of 32 bits reaches. -/
def intLimit : Nat :=
  0x80000000

/- The first number that no integer of 64 bits reaches. -/
def longLimit : Nat :=
  0x8000000000000000

/-
  The value of an integer literal, whose underscores do not
  count.  Integers have 32 bits, long ones have 64.
-/
def intForm? (text : String) : Option ExprForm :=
  let cs := text.toList.filter (· != '_')
  if endsWithLongMark cs then
    let (radix, ds) := radixOf cs.dropLast
    (signed? radix longLimit ds).map .long
  else
    let (radix, ds) := radixOf cs
    (signed? radix intLimit ds).map .int

------------------------------------------------------------
-- Escapes
------------------------------------------------------------

/- A text without the braces around it, if it has both. -/
def unbraced (cs : List Char) : List Char :=
  match cs with
  | '\x7b' :: ds =>
      if ds.getLast? = some '\x7d' then ds.dropLast else cs
  | _ => cs

/- Escapes hold numbers of 32 bits. -/
def codeLimit : Nat :=
  0x100000000

/- The character of a code point in hexadecimal. -/
def codePoint? (cs : List Char) : Option Char :=
  match unsigned? 16 codeLimit cs with
  | none => none
  | some n =>
      if n.isValidChar then some (Char.ofNat n) else none

/- The character that an escape stands for. -/
def unescape? (text : String) : Option Char :=
  match text.toList with
  | ['\\', 'n'] => some '\n'
  | ['\\', 't'] => some '\t'
  | ['\\', 'r'] => some '\r'
  | ['\\', '"'] => some '"'
  | ['\\', '\\'] => some '\\'
  | '\\' :: 'u' :: code => codePoint? (unbraced code)
  | _ => none

------------------------------------------------------------
-- Strings
------------------------------------------------------------

/- A part of a string: its own text, or an expression. -/
inductive StringPart where
  | text (value : String) (span : Span)
  | embedded (e : Expr)

namespace StringPart

/- A part as an expression. -/
def expression : StringPart → Expr
  | text value span => .new (.string value) span
  | embedded e => e

/- The part is an expression. -/
def isEmbedded : StringPart → Bool
  | text _ _ => false
  | embedded _ => true

/- The text of a part that is no expression. -/
def ownText : StringPart → String
  | text value _ => value
  | embedded _ => ""

end StringPart

/- Two texts in a row are one text. -/
def joinTexts? (a b : Expr) : Option Expr :=
  match a.form, b.form with
  | .string x, .string y =>
      some (.new (.string (x ++ y)) (a.span.between b.span))
  | _, _ => none

/-
  Put a part behind others.  A text is joined to the last of
  them, if that is a text too.
-/
def appendMerged : List Expr → Expr → List Expr
  | [], e => [e]
  | [last], e =>
      match joinTexts? last e with
      | some text => [text]
      | none => [last, e]
  | first :: second :: others, e =>
      first :: appendMerged (second :: others) e

/- The parts of a template, without neighbouring texts. -/
def mergeTexts (parts : List Expr) : List Expr :=
  parts.foldl appendMerged []

/-
  A string with an expression in it is a template; any other
  is one text.
-/
def stringForm (parts : List StringPart) : ExprForm :=
  if parts.any (·.isEmbedded) then
    .template (mergeTexts (parts.map (·.expression)))
  else
    .string (String.join (parts.map (·.ownText)))

end SourceCheck
