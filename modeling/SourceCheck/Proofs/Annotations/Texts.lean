import SourceCheck.Proofs.Lexing.Names
import SourceCheck.Proofs.Syntax.Fresh
import SourceCheck.Proofs.Syntax.Standing
import SourceCheck.Resolution.TypeExpr

/-
  The texts of written types.

  The text of a written type has no brackets.  Still it can
  be read back: names have no joins in them, and what the
  parser makes is grouped as the joins bind.  So written
  types with the same text say the same, and stand for the
  same type.

  Key definitions include:
    * `TypeForm.IsReadable`
    * `Ty.combined`
    * `TypeForm.evaluate`

  Key theorems include:
    * `TypeForm.equivalent_of_text`
    * `TypeForm.evaluate_of_text`
    * `TypeForm.isReadable_of_parsed`
-/

namespace SourceCheck

------------------------------------------------------------
-- Readable texts
------------------------------------------------------------

/- There is no join in a name. -/
def IsTypeName (name : String) : Prop :=
  '|' ∉ name.toList ∧ '&' ∉ name.toList

mutual

/-
  The text of a form can be read back.  Nothing is left out,
  and the joins in the form group as they bind.
-/
def TypeForm.IsReadable : TypeForm → Prop
  | .absent => False
  | .named name => IsTypeName name
  | .union left right =>
      (left.IsReadable ∧ right.IsReadable) ∧
        right.form.isUnion = false
  | .intersection left right =>
      (left.IsReadable ∧ right.IsReadable) ∧
        left.form.isUnion = false ∧ right.form.isName

/- The text of a written type can be read back. -/
def TypeExpr.IsReadable : TypeExpr → Prop
  | ⟨form, _, _⟩ => form.IsReadable

end

------------------------------------------------------------
-- Joins in texts
------------------------------------------------------------

/- The last join of a list divides it in one way only. -/
theorem divided_at_last
    {α : Type}
    {a : α}
    {xs ys us vs : List α}
    (hSame : xs ++ a :: ys = us ++ a :: vs)
    (hYs : a ∉ ys)
    (hVs : a ∉ vs) :
    xs = us ∧ ys = vs := by
  rcases List.append_eq_append_iff.1 hSame with
    ⟨as, hLeft, hRight⟩ | ⟨as, hLeft, hRight⟩
  · cases as with
    | nil =>
        cases hRight
        exact ⟨(hLeft.trans (List.append_nil xs)).symm, rfl⟩
    | cons b as =>
        cases hRight
        exact absurd List.mem_append_cons_self hYs
  · cases as with
    | nil =>
        cases hRight
        exact ⟨hLeft.trans (List.append_nil us), rfl⟩
    | cons b as =>
        cases hRight
        exact absurd List.mem_append_cons_self hVs

/- The characters of two texts and of a join between them. -/
theorem toList_joined
    {join : String}
    {j : Char}
    (hJoin : join.toList = [' ', j, ' '])
    (a b : String) :
    (a ++ join ++ b).toList =
      (a.toList ++ [' ']) ++ j :: ' ' :: b.toList := by
  rw [String.toList_append, String.toList_append, hJoin]
  simp only [List.append_assoc, List.cons_append,
    List.nil_append]

/- The last join between two texts divides them. -/
theorem texts_eq_of_joined
    {join : String}
    {j : Char}
    (hJoin : join.toList = [' ', j, ' '])
    (hBlank : j ≠ ' ')
    {a b c d : String}
    (hSame : a ++ join ++ b = c ++ join ++ d)
    (hB : j ∉ b.toList)
    (hD : j ∉ d.toList) :
    a = c ∧ b = d := by
  have hChars := congrArg String.toList hSame
  rw [toList_joined hJoin, toList_joined hJoin] at hChars
  rcases divided_at_last hChars
      (List.mem_cons.not.2 (not_or.2 ⟨hBlank, hB⟩))
      (List.mem_cons.not.2 (not_or.2 ⟨hBlank, hD⟩)) with
    ⟨hLeft, hRight⟩
  exact ⟨String.toList_inj.1 (List.append_cancel_right hLeft),
    String.toList_inj.1 (List.cons_inj_right _ |>.1 hRight)⟩

theorem toList_bar : " | ".toList = [' ', '|', ' '] := by
  decide

theorem toList_ampersand :
    " & ".toList = [' ', '&', ' '] := by
  decide

/- The join of a text is found in it. -/
theorem mem_toList_joined
    {join : String}
    {j : Char}
    (hJoin : join.toList = [' ', j, ' '])
    (a b : String) :
    j ∈ (a ++ join ++ b).toList := by
  rw [toList_joined hJoin]
  exact List.mem_append_cons_self

mutual

/- What is no union has no bar in its text. -/
theorem TypeForm.bar_notMem_text :
    ∀ f : TypeForm,
      f.IsReadable → f.isUnion = false → '|' ∉ f.text.toList
  | .absent, hReadable, _ => hReadable.elim
  | .named _, hReadable, _ => hReadable.1
  | .union _ _, _, hUnion => absurd hUnion nofun
  | .intersection left right, hReadable, _ => by
      have hLeft := TypeExpr.bar_notMem_text left
        hReadable.1.1 hReadable.2.1
      have hRight := TypeExpr.bar_notMem_text right
        hReadable.1.2 (isUnion_of_isName hReadable.2.2)
      unfold TypeForm.text
      rw [toList_joined toList_ampersand]
      simp only [List.mem_append, List.mem_cons, hLeft,
        hRight, List.not_mem_nil, or_false, false_or]
      decide
termination_by structural f => f

theorem TypeExpr.bar_notMem_text :
    ∀ t : TypeExpr,
      t.IsReadable →
        t.form.isUnion = false → '|' ∉ t.text.toList
  | ⟨form, _, _⟩, hReadable, hUnion =>
      TypeForm.bar_notMem_text form hReadable hUnion
termination_by structural t => t

end

/- What is a name has no ampersand in its text. -/
theorem TypeExpr.ampersand_notMem_text
    {t : TypeExpr}
    (hReadable : t.IsReadable)
    (hName : t.form.isName) :
    '&' ∉ t.text.toList := by
  rcases t with ⟨form, span, type⟩
  cases form with
  | named name => exact hReadable.2
  | _ => cases hName

------------------------------------------------------------
-- Equal texts
------------------------------------------------------------

mutual

/-
  Forms with the same text say the same.  The induction is on
  the first form, and its last join is that of the other.
-/
theorem TypeForm.equivalent_of_text :
    ∀ f g : TypeForm,
      f.IsReadable →
        g.IsReadable → f.text = g.text → f.equivalent g
  | .absent, _, hFirst, _, _ => hFirst.elim
  | .named a, g, hFirst, hSecond, hText => by
      cases g with
      | absent => exact hSecond.elim
      | named b =>
          have hSame : a = b := hText
          exact decide_eq_true hSame
      | union left right =>
          have hBar :=
            mem_toList_joined toList_bar left.text right.text
          have hName : a = left.text ++ " | " ++ right.text :=
            hText
          rw [← hName] at hBar
          exact absurd hBar hFirst.1
      | intersection left right =>
          have hAmpersand :=
            mem_toList_joined toList_ampersand left.text
              right.text
          have hName : a = left.text ++ " & " ++ right.text :=
            hText
          rw [← hName] at hAmpersand
          exact absurd hAmpersand hFirst.2
  | .union a b, g, hFirst, hSecond, hText => by
      have hBar := mem_toList_joined toList_bar a.text b.text
      have hUnion : g.isUnion := by
        by_contra hOther
        have hNone := TypeForm.bar_notMem_text g hSecond
          (eq_false_of_ne_true hOther)
        rw [← hText] at hNone
        exact hNone hBar
      cases g with
      | union c d =>
          rcases texts_eq_of_joined toList_bar (by decide)
              hText
              (TypeExpr.bar_notMem_text b hFirst.1.2
                hFirst.2)
              (TypeExpr.bar_notMem_text d hSecond.1.2
                hSecond.2) with
            ⟨hLeft, hRight⟩
          have hLefts := TypeExpr.equivalent_of_text a c
            hFirst.1.1 hSecond.1.1 hLeft
          have hRights := TypeExpr.equivalent_of_text b d
            hFirst.1.2 hSecond.1.2 hRight
          rw [TypeForm.equivalent, hLefts, hRights]
          rfl
      | _ => cases hUnion
  | .intersection a b, g, hFirst, hSecond, hText => by
      have hAmpersand :=
        mem_toList_joined toList_ampersand a.text b.text
      have hBar := TypeForm.bar_notMem_text
        (.intersection a b) hFirst rfl
      cases g with
      | absent => exact hSecond.elim
      | named name =>
          have hName : a.text ++ " & " ++ b.text = name :=
            hText
          rw [hName] at hAmpersand
          exact absurd hAmpersand hSecond.2
      | union c d =>
          rw [hText] at hBar
          exact absurd
            (mem_toList_joined toList_bar c.text d.text) hBar
      | intersection c d =>
          rcases texts_eq_of_joined toList_ampersand
              (by decide) hText
              (TypeExpr.ampersand_notMem_text hFirst.1.2
                hFirst.2.2)
              (TypeExpr.ampersand_notMem_text hSecond.1.2
                hSecond.2.2) with
            ⟨hLeft, hRight⟩
          have hLefts := TypeExpr.equivalent_of_text a c
            hFirst.1.1 hSecond.1.1 hLeft
          have hRights := TypeExpr.equivalent_of_text b d
            hFirst.1.2 hSecond.1.2 hRight
          rw [TypeForm.equivalent, hLefts, hRights]
          rfl
termination_by structural f => f

theorem TypeExpr.equivalent_of_text :
    ∀ s t : TypeExpr,
      s.IsReadable →
        t.IsReadable → s.text = t.text → s.equivalent t
  | ⟨f, _, _⟩, ⟨g, _, _⟩, hFirst, hSecond, hText =>
      TypeForm.equivalent_of_text f g hFirst hSecond hText
termination_by structural s => s

end

------------------------------------------------------------
-- Evaluation
------------------------------------------------------------

/- The first error of two types, or else what they make. -/
def Ty.combined (join : Ty → Ty → Ty) : Ty → Ty → Ty
  | .error text, _ => .error text
  | _, .error text => .error text
  | left, right => join left right

/- Types are joined so where written types are resolved. -/
theorem joinTypes_eq
    (join : Ty → Ty → Ty)
    (left right : Ty) :
    Resolver.joinTypes join left right =
      Ty.combined join left right := by
  cases left with
  | error text => rfl
  | _ =>
      cases right with
      | error text => rfl
      | _ => rfl

mutual

/-
  The type that a form stands for, where some names are
  known.  The first error among its parts is passed on.
-/
def TypeForm.evaluate
    (known : String → Option Ty) :
    TypeForm → Ty
  | .absent => .error "undefined type name"
  | .named name =>
      (known name).getD
        (.error (Problem.unknownType name).message)
  | .union left right =>
      Ty.combined .union (left.evaluate known)
        (right.evaluate known)
  | .intersection left right =>
      Ty.combined .intersection (left.evaluate known)
        (right.evaluate known)

/- The type that a written type stands for. -/
def TypeExpr.evaluate
    (known : String → Option Ty) :
    TypeExpr → Ty
  | ⟨form, _, _⟩ => form.evaluate known

end

mutual

/- Forms that say the same stand for the same type. -/
theorem TypeForm.evaluate_of_equivalent
    (known : String → Option Ty) :
    ∀ f g : TypeForm,
      f.equivalent g → f.evaluate known = g.evaluate known
  | .absent, g, hSame => by
      cases g with
      | absent => rfl
      | _ => cases hSame
  | .named a, g, hSame => by
      cases g with
      | named b => rw [of_decide_eq_true hSame]
      | _ => cases hSame
  | .union a b, g, hSame => by
      cases g with
      | union c d =>
          rcases Bool.and_eq_true_iff.1 hSame with
            ⟨hLeft, hRight⟩
          rw [TypeForm.evaluate, TypeForm.evaluate,
            TypeExpr.evaluate_of_equivalent known a c hLeft,
            TypeExpr.evaluate_of_equivalent known b d hRight]
      | _ => cases hSame
  | .intersection a b, g, hSame => by
      cases g with
      | intersection c d =>
          rcases Bool.and_eq_true_iff.1 hSame with
            ⟨hLeft, hRight⟩
          rw [TypeForm.evaluate, TypeForm.evaluate,
            TypeExpr.evaluate_of_equivalent known a c hLeft,
            TypeExpr.evaluate_of_equivalent known b d hRight]
      | _ => cases hSame
termination_by structural f => f

theorem TypeExpr.evaluate_of_equivalent
    (known : String → Option Ty) :
    ∀ s t : TypeExpr,
      s.equivalent t → s.evaluate known = t.evaluate known
  | ⟨f, _, _⟩, ⟨g, _, _⟩, hSame =>
      TypeForm.evaluate_of_equivalent known f g hSame
termination_by structural s => s

end

/- The text of a form decides on its type. -/
theorem TypeForm.evaluate_of_text
    (known : String → Option Ty)
    {f g : TypeForm}
    (hFirst : f.IsReadable)
    (hSecond : g.IsReadable)
    (hText : f.text = g.text) :
    f.evaluate known = g.evaluate known :=
  TypeForm.evaluate_of_equivalent known f g
    (TypeForm.equivalent_of_text f g hFirst hSecond hText)

------------------------------------------------------------
-- Parsed types
------------------------------------------------------------

/- The names of these tokens have no joins in them. -/
def NamesTypes (T : Token → Prop) : Prop :=
  ∀ t, T t → t.kind.isName → IsTypeName t.name

/- The names of a source text have no joins in them. -/
theorem namesTypes_isTokenOf (source file : String) :
    NamesTypes (IsTokenOf source file) := by
  intro t hToken hName
  have hParts := isWordPart_of_name hToken hName
  exact ⟨fun hBar => absurd (hParts '|' hBar) (by decide),
    fun hAmpersand =>
      absurd (hParts '&' hAmpersand) (by decide)⟩

mutual

/- What is parsed can be read back, if it is there. -/
theorem TypeForm.isReadable_of_parsed
    {T : Token → Prop}
    (hNames : NamesTypes T) :
    ∀ f : TypeForm,
      f.Obeys .parsed →
        f.IsWhole →
          f ≠ .absent →
            f.Obeys (.standing T) →
              f.Stands T → f.IsReadable
  | .absent, _, _, hThere, _, _ => absurd rfl hThere
  | .named _, _, _, _, _, hStands => by
      rcases hStands with ⟨t, hToken, hName, rfl⟩
      exact hNames t hToken hName
  | .union left right, hParsed, hWhole, _, hObeys,
      hStands =>
      ⟨⟨TypeExpr.isReadable_of_parsed hNames left hParsed.1
            hWhole.1 hObeys.1,
          TypeExpr.isReadable_of_parsed hNames right
            hParsed.2 hWhole.2 hObeys.2⟩,
        hStands⟩
  | .intersection left right, hParsed, hWhole, _, hObeys,
      hStands =>
      ⟨⟨TypeExpr.isReadable_of_parsed hNames left hParsed.1
            hWhole.1 hObeys.1,
          TypeExpr.isReadable_of_parsed hNames right
            hParsed.2 hWhole.2 hObeys.2⟩,
        hStands⟩
termination_by structural f => f

theorem TypeExpr.isReadable_of_parsed
    {T : Token → Prop}
    (hNames : NamesTypes T) :
    ∀ t : TypeExpr,
      t.Obeys .parsed →
        t.isAbsent = false →
          t.Obeys (.standing T) → t.IsReadable
  | ⟨form, span, type⟩, hParsed, hPresent, hStands => by
      have hThere : form ≠ .absent := by
        rintro rfl
        cases hPresent
      exact TypeForm.isReadable_of_parsed hNames form
        hParsed.2 hParsed.1.2 hThere hStands.2 hStands.1.2
termination_by structural t => t

end

end SourceCheck
