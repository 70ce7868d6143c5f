import Mathlib
import SourceCheck.Proofs.Literals.Parts
import SourceCheck.Proofs.Syntax.Declared

/-
  Templates hold what was written.

  A string is a template if a template is opened in it, and
  one text otherwise.  Neighbouring texts of a template are
  joined, also with a text that is embedded, and nothing is
  lost, added or moved: what the template holds, character by
  character and expression by expression, is what the parts
  hold that were read.

  Key definitions include:
    * `Expr.flattened`
    * `StringPart.flattened`
    * `opensTemplate`

  Key theorems include:
    * `isChain_mergeTexts`
    * `Nested.ReadsParts.opensTemplate_iff`
    * `stringLiteral_preserves`
-/

namespace SourceCheck

open SourceCheck.Parser
open SourceCheck.Grammar

------------------------------------------------------------
-- What strings hold
------------------------------------------------------------

/- The characters of a text. -/
def characters (value : String) : List (Char ⊕ Expr) :=
  value.toList.map .inl

theorem characters_append (a b : String) :
    characters (a ++ b) = characters a ++ characters b := by
  unfold characters
  rw [String.toList_append, List.map_append]

/- The expression is a text. -/
def Expr.isText (e : Expr) : Bool :=
  match e.form with
  | .string _ => true
  | _ => false

theorem exists_of_isText
    {e : Expr}
    (hText : e.isText) :
    ∃ value, e.form = .string value := by
  unfold Expr.isText at hText
  split at hText
  · rename_i value hForm
    exact ⟨value, hForm⟩
  · cases hText

/- The characters of a text, or any other expression. -/
def Expr.flattened (e : Expr) : List (Char ⊕ Expr) :=
  match e.form with
  | .string value => characters value
  | _ => [.inr e]

/- What a part holds. -/
def StringPart.flattened :
    StringPart → List (Char ⊕ Expr)
  | text value _ => characters value
  | embedded e => e.flattened

theorem flattened_of_string
    {e : Expr}
    {value : String}
    (hForm : e.form = .string value) :
    e.flattened = characters value := by
  unfold Expr.flattened
  rw [hForm]

theorem flattened_expression (part : StringPart) :
    part.expression.flattened = part.flattened := by
  cases part with
  | text value span => exact flattened_of_string rfl
  | embedded e => rfl

------------------------------------------------------------
-- Joining
------------------------------------------------------------

/- Not both of the expressions are texts. -/
def Alternate (a b : Expr) : Prop :=
  ¬ (a.isText ∧ b.isText)

/- A text is joined to the first part, or that is no text. -/
theorem isChain_consMerged
    (e : Expr)
    {es : List Expr}
    (hChain : es.IsChain Alternate) :
    (consMerged e es).IsChain Alternate := by
  unfold consMerged
  split
  · rename_i value other span type others hForm
    cases others with
    | nil => exact .singleton _
    | cons f others =>
        rw [List.isChain_cons_cons] at hChain
        exact .cons_cons hChain.1 hChain.2
  · rename_i parts _ _ hOther
    cases parts with
    | nil => exact .singleton e
    | cons f others =>
        refine .cons_cons ?_ hChain
        rintro ⟨hText, hNext⟩
        rcases exists_of_isText hText with ⟨value, hForm⟩
        rcases exists_of_isText hNext with ⟨other, hSame⟩
        rcases f with ⟨form, span, type⟩
        dsimp only at hSame
        subst hSame
        exact hOther value other span type others hForm rfl

/- No neighbours are texts behind the joining. -/
theorem isChain_mergeTexts (es : List Expr) :
    (mergeTexts es).IsChain Alternate := by
  induction es with
  | nil => exact .nil
  | cons e es ih =>
      rw [mergeTexts_cons]
      exact isChain_consMerged e ih

/- And everything stays in its order. -/
theorem flattened_mergeTexts (es : List Expr) :
    (mergeTexts es).flatMap Expr.flattened =
      es.flatMap Expr.flattened :=
  flatMap_mergeTexts (fun _ _ => flattened_of_string)
    characters_append es

/- A string without templates holds the texts of its parts. -/
theorem characters_join
    {parts : List StringPart}
    (hNone : ¬ parts.any (·.isEmbedded)) :
    characters (String.join (parts.map (·.ownText))) =
      parts.flatMap StringPart.flattened := by
  induction parts with
  | nil => rfl
  | cons part parts ih =>
      rw [List.any_cons, Bool.or_eq_true, not_or] at hNone
      cases part with
      | text value span =>
          rw [List.map_cons, String.join_cons,
            characters_append, ih hNone.2, List.flatMap_cons]
          rfl
      | embedded e => exact absurd rfl hNone.1

------------------------------------------------------------
-- Openings
------------------------------------------------------------

/- A template is opened before a string is closed. -/
def opensTemplate (ts : List Token) : Bool :=
  (ts.takeWhile (·.kind ≠ .stringEnd)).any
    (·.kind = .stringTemplateStart)

/- Other parts of a string neither open nor close. -/
theorem opensTemplate_next
    {s : ParserState}
    {kind : TokenKind}
    (hKind : s.token.kind = kind)
    (hMore : kind ≠ .eof)
    (hEnd : kind ≠ .stringEnd)
    (hOpen : kind ≠ .stringTemplateStart) :
    opensTemplate s.stream.ahead =
      opensTemplate s.next.stream.ahead := by
  subst hKind
  rw [ParserState.ahead_eq hMore]
  unfold opensTemplate
  rw [List.takeWhile_cons_of_pos (by simpa using hEnd),
    List.any_cons, decide_eq_false hOpen, Bool.false_or]

/-
  Something is embedded in a string if a template is opened
  in it.
-/
theorem Nested.ReadsParts.opensTemplate_eq
    {nested : Nested}
    {s t : ParserState}
    {parts : List StringPart}
    (hParts : nested.ReadsParts s parts t) :
    opensTemplate s.stream.ahead =
      parts.any (·.isEmbedded) := by
  induction hParts with
  | @done s hEnd =>
      have hMore : s.token.kind ≠ .eof := by
        rw [hEnd]
        decide
      rw [ParserState.ahead_eq hMore]
      unfold opensTemplate
      rw [List.takeWhile_cons_of_neg (by simpa using hEnd)]
      rfl
  | @part s part t parts u hPart _ ih =>
      rw [List.any_cons]
      cases hPart with
      | text hText =>
          rw [opensTemplate_next hText nofun nofun nofun, ih]
          rfl
      | escape hEscape hChar =>
          rw [opensTemplate_next hEscape nofun nofun nofun, ih]
          rfl
      | embedded hOpen hExpr hClose =>
          have hMore : s.token.kind ≠ .eof := by
            rw [hOpen]
            decide
          have hEnd : s.token.kind ≠ .stringEnd := by
            rw [hOpen]
            decide
          rw [ParserState.ahead_eq hMore]
          unfold opensTemplate
          rw [List.takeWhile_cons_of_pos (by simpa using hEnd),
            List.any_cons, decide_eq_true hOpen]
          rfl

/-
  Templates preserve what is written.

  Whatever the nested parsers are, if a string is accepted
  its parts were read up to its end.  If a template is opened
  in it, the result is a template in which no neighbours are
  texts, and which holds the same characters and expressions
  as the parts, in the same order.  Else the result is one
  text of the same characters.
-/
theorem stringLiteral_preserves
    {nested : Nested}
    {token : Token}
    {s u : ParserState}
    {e : Expr}
    (hRun :
      (stringLiteral nested token).outcome s = (.ok e, u)) :
    ∃ parts t,
      nested.ReadsParts s parts t ∧
        u = t.next ∧
          (opensTemplate s.stream.ahead = true →
            ∃ es,
              e.form = .template es ∧
                es.IsChain Alternate ∧
                  es.flatMap Expr.flattened =
                    parts.flatMap StringPart.flattened) ∧
            (opensTemplate s.stream.ahead = false →
              ∃ value,
                e.form = .string value ∧
                  characters value =
                    parts.flatMap StringPart.flattened) := by
  rcases readsParts_of_stringLiteral hRun with
    ⟨parts, t, hParts, rfl, rfl⟩
  refine ⟨parts, t, hParts, rfl, ?_, ?_⟩
  · intro hOpens
    rw [hParts.opensTemplate_eq] at hOpens
    refine ⟨_, if_pos hOpens, isChain_mergeTexts _, ?_⟩
    rw [flattened_mergeTexts, List.flatMap_map]
    exact congrArg (List.flatMap · parts)
      (funext flattened_expression)
  · intro hNone
    rw [hParts.opensTemplate_eq] at hNone
    have hTexts : ¬ parts.any (·.isEmbedded) := by
      rw [hNone]
      exact Bool.false_ne_true
    exact ⟨_, if_neg hTexts, characters_join hTexts⟩

/- A text is embedded between two others, and then a name. -/
def embeddedText : ParserState :=
  .initial "\"a\\\x7b\"b\"\x7dc\\\x7bx\x7d\"" "main"

theorem stringLiteral_preserves_embedded :
    ∃ e u es parts t,
      (stringLiteral (nestedWithin 9)
            embeddedText.token).outcome embeddedText.next =
          (.ok e, u) ∧
        (nestedWithin 9).ReadsParts embeddedText.next parts t ∧
          e.form = .template es ∧
            es.IsChain Alternate ∧
              es.flatMap Expr.flattened =
                parts.flatMap StringPart.flattened := by
  have hOpens :
      opensTemplate embeddedText.next.stream.ahead = true := by
    cbv
  have hAccepted :
      ((stringLiteral (nestedWithin 9)
          embeddedText.token).outcome
        embeddedText.next).1.isOk = true := by
    cbv
  cases hRun :
      (stringLiteral (nestedWithin 9)
        embeddedText.token).outcome embeddedText.next with
  | mk result u =>
      rw [hRun] at hAccepted
      cases result with
      | error d => cases hAccepted
      | ok e =>
          rcases stringLiteral_preserves hRun with
            ⟨parts, t, hParts, -, hTemplate, -⟩
          rcases hTemplate hOpens with
            ⟨es, hForm, hChain, hSame⟩
          exact ⟨e, u, es, parts, t, rfl, hParts, hForm,
            hChain, hSame⟩

end SourceCheck
