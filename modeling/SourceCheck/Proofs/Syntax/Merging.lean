import SourceCheck.Grammar.Literal

/-
  Joined texts, from the other end.

  Texts are joined while the parts of a string are read, each
  to the one before it.  The same parts are left when each
  text is joined to the one behind it, which is how a proof
  by induction on the parts goes.

  Key definitions include:
    * `consMerged`

  Key theorems include:
    * `mergeTexts_cons`
-/

namespace SourceCheck

/- Put a part before others, and join it to a text. -/
def consMerged (e : Expr) (parts : List Expr) : List Expr :=
  match e.form, parts with
  | .string a, ⟨.string b, span, _⟩ :: others =>
      .new (.string (a ++ b)) (e.span.between span) ::
        others
  | _, _ => e :: parts

/- Nothing is joined but texts. -/
theorem consMerged_eq_cons
    {e : Expr}
    {parts : List Expr}
    (hApart :
      ∀ a b others span type,
        e.form = .string a →
          parts ≠ ⟨.string b, span, type⟩ :: others) :
    consMerged e parts = e :: parts := by
  unfold consMerged
  split
  · rename_i a b span type others hForm
    exact absurd rfl (hApart a b others span type hForm)
  · rfl

theorem consMerged_nil (e : Expr) : consMerged e [] = [e] :=
  consMerged_eq_cons nofun

/- A part is joined to the next one, if both are texts. -/
theorem consMerged_cons (e p : Expr) (parts : List Expr) :
    consMerged e (p :: parts) =
      match joinTexts? e p with
      | some text => text :: parts
      | none => e :: p :: parts := by
  rcases p with ⟨form, span, type⟩
  unfold joinTexts?
  split
  · rename_i both text hBoth
    split at hBoth
    · rename_i a b hFirst hSecond
      cases hBoth
      cases hSecond
      unfold consMerged
      rw [hFirst]
    · cases hBoth
  · rename_i both hBoth
    refine consMerged_eq_cons ?_
    rintro a b others place slot hFirst hParts
    cases hParts
    rw [hFirst] at hBoth
    cases hBoth

/- Only texts are joined. -/
theorem exists_of_joinTexts?
    {a b text : Expr}
    (hText : joinTexts? a b = some text) :
    ∃ x y,
      a.form = .string x ∧ b.form = .string y ∧
        text =
          .new (.string (x ++ y)) (a.span.between b.span) := by
  unfold joinTexts? at hText
  split at hText
  · rename_i x y hFirst hSecond
    cases hText
    exact ⟨x, y, hFirst, hSecond, rfl⟩
  · cases hText

section Three

variable {a b c front back : Expr}

/- What is no text is not joined to a longer text either. -/
theorem joinTexts?_eq_none_of_left
    (hFront : joinTexts? a b = some front)
    (hNone : joinTexts? b c = none) :
    joinTexts? front c = none := by
  rcases exists_of_joinTexts? hFront with
    ⟨x, y, -, hSecond, rfl⟩
  unfold joinTexts? at hNone ⊢
  rw [hSecond] at hNone
  cases hThird : c.form with
  | string z =>
      rw [hThird] at hNone
      cases hNone
  | _ => rfl

theorem joinTexts?_eq_none_of_right
    (hBack : joinTexts? b c = some back)
    (hNone : joinTexts? a b = none) :
    joinTexts? a back = none := by
  rcases exists_of_joinTexts? hBack with
    ⟨y, z, hSecond, -, rfl⟩
  unfold joinTexts? at hNone ⊢
  rw [hSecond] at hNone
  cases hFirst : a.form with
  | string x =>
      rw [hFirst] at hNone
      cases hNone
  | _ => rfl

/- Of three texts in a row, either two are joined first. -/
theorem exists_joinTexts?
    (hFront : joinTexts? a b = some front)
    (hBack : joinTexts? b c = some back) :
    ∃ text,
      joinTexts? front c = some text ∧
        joinTexts? a back = some text := by
  rcases exists_of_joinTexts? hFront with
    ⟨x, y, hFirst, hSecond, rfl⟩
  rcases exists_of_joinTexts? hBack with
    ⟨_, z, hSame, hThird, rfl⟩
  cases hSecond.symm.trans hSame
  unfold joinTexts?
  rw [hFirst, hThird]
  refine ⟨_, rfl, ?_⟩
  simp only [Expr.new, String.append_assoc]
  rfl

end Three

/- It does not matter which end of the parts grows first. -/
theorem appendMerged_consMerged
    (e : Expr)
    (parts : List Expr)
    (last : Expr) :
    appendMerged (consMerged e parts) last =
      consMerged e (appendMerged parts last) := by
  match parts with
  | [] =>
      rw [consMerged_nil]
      exact (consMerged_cons e last []).symm
  | [p] =>
      rw [consMerged_cons]
      cases hFront : joinTexts? e p with
      | none =>
          cases hBack : joinTexts? p last with
          | none =>
              simp [appendMerged, consMerged_cons, hFront,
                hBack]
          | some back =>
              have hNone :=
                joinTexts?_eq_none_of_right hBack hFront
              simp [appendMerged, consMerged_cons, hBack,
                hNone]
      | some front =>
          cases hBack : joinTexts? p last with
          | none =>
              have hNone :=
                joinTexts?_eq_none_of_left hFront hBack
              simp [appendMerged, consMerged_cons, hFront,
                hBack, hNone]
          | some back =>
              rcases exists_joinTexts? hFront hBack with
                ⟨text, hLeft, hRight⟩
              simp [appendMerged, consMerged_cons, hBack,
                hLeft, hRight]
  | p :: q :: others =>
      rw [appendMerged, consMerged_cons, consMerged_cons]
      cases joinTexts? e p with
      | none => rfl
      | some text => rfl

/- A part before others is joined to what becomes of them. -/
theorem mergeTexts_cons (e : Expr) (es : List Expr) :
    mergeTexts (e :: es) = consMerged e (mergeTexts es) := by
  have hFold (parts : List Expr) :
      es.foldl appendMerged (consMerged e parts) =
        consMerged e (es.foldl appendMerged parts) := by
    induction es generalizing parts with
    | nil => rfl
    | cons last es ih =>
        rw [List.foldl_cons, appendMerged_consMerged, ih,
          List.foldl_cons]
  have hAll := hFold []
  rw [consMerged_nil] at hAll
  exact hAll

end SourceCheck
