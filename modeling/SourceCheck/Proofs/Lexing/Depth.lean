import SourceCheck.Proofs.Layout.TokenOrder

/-
  What tokens say, and how they nest.

  A token says the same wherever it stands.  Strings and
  templates nest, and the tokens of a text tell how many of
  them are open behind each one.

  Key definitions include:
    * `TokenKind.deepen`
    * `depthAfter`

  The main statement is `depthAfter_cons`.
-/

namespace SourceCheck

------------------------------------------------------------
-- Words
------------------------------------------------------------

section Words

variable {a b : Token}

theorem kind_eq_of_word (hWord : a.word = b.word) :
    a.kind = b.kind :=
  (Prod.ext_iff.1 hWord).1

theorem value_eq_of_word (hWord : a.word = b.word) :
    a.value = b.value :=
  (Prod.ext_iff.1 hWord).2

theorem name_eq_of_word (hWord : a.word = b.word) :
    a.name = b.name := by
  unfold Token.name
  rw [kind_eq_of_word hWord, value_eq_of_word hWord]

end Words

------------------------------------------------------------
-- Depths
------------------------------------------------------------

/-
  How many strings and templates are open behind a token, if
  it may follow.  Nothing follows the end of the text.
-/
def TokenKind.deepen : TokenKind → Nat → Option Nat
  | .stringStart, depth => some (depth + 1)
  | .stringTemplateStart, depth => some (depth + 1)
  | .stringEnd, depth + 1 => some depth
  | .stringEnd, 0 => none
  | .stringTemplateEnd, depth + 1 => some depth
  | .stringTemplateEnd, 0 => none
  | .eof, _ => none
  | _, depth => some depth

/- How many are open behind several tokens. -/
def depthAfter (depth : Nat) (ts : List Token) : Option Nat :=
  ts.foldlM (fun depth t => t.kind.deepen depth) depth

/- What is read first makes its depth, and then the rest. -/
theorem depthAfter_cons
    (depth : Nat)
    (t : Token)
    (ts : List Token) :
    depthAfter depth (t :: ts) =
      (t.kind.deepen depth).bind (depthAfter · ts) :=
  List.foldlM_cons

end SourceCheck
