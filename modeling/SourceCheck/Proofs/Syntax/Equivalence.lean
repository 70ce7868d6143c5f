import Mathlib.Data.List.Forall2
import Mathlib.Data.Option.Basic
import SourceCheck.Proofs.Syntax.Merging
import SourceCheck.Tree.Equivalence

/-
  Expressions that can stand for each other.

  An expression mirrors an equivalent one.  The parser also
  asks for how an expression ends, and whether it is a name
  or the call of a name, and mirrors agree there.  Trees are
  equivalent if their parts mirror each other.

  Key definitions include:
    * `Expr.Mirrors`
    * `StringPart.Mirrors`

  Key theorems include:
    * `mirrors_stringForm`
-/

namespace SourceCheck

------------------------------------------------------------
-- Mirrors
------------------------------------------------------------

/- The expressions are equivalent, and treated alike. -/
structure Expr.Mirrors (e f : Expr) : Prop where
  equivalent : e.equivalent f = true
  endsWithBlock : e.endsWithBlock = f.endsWithBlock
  isCalled :
    e.isReferenceOrInvocation = f.isReferenceOrInvocation

section Nodes

variable {g h : ExprForm}
variable {a b : Span}

theorem TypeExpr.equivalent_new (g h : TypeForm) :
    (TypeExpr.new g a).equivalent (.new h b) =
      g.equivalent h := by
  simp only [TypeExpr.new, TypeExpr.equivalent]

theorem Expr.equivalent_new :
    (Expr.new g a).equivalent (.new h b) =
      g.equivalent h := by
  simp only [Expr.new, Expr.equivalent]

theorem Expr.endsWithBlock_new :
    (Expr.new g a).endsWithBlock = g.endsWithBlock := by
  simp only [Expr.new, Expr.endsWithBlock]

/- Forms that are no names or calls of names. -/
theorem Expr.mirrors_new
    (hForms : g.equivalent h = true)
    (hEnds : g.endsWithBlock = h.endsWithBlock)
    (hFirst :
      (Expr.new g a).isReferenceOrInvocation = false)
    (hSecond :
      (Expr.new h b).isReferenceOrInvocation = false) :
    (Expr.new g a).Mirrors (.new h b) where
  equivalent := Expr.equivalent_new.trans hForms
  endsWithBlock := by
    rw [Expr.endsWithBlock_new, Expr.endsWithBlock_new]
    exact hEnds
  isCalled := hFirst.trans hSecond.symm

theorem mirrors_reference (name : String) (a b : Span) :
    (Expr.reference name a).Mirrors (.reference name b) where
  equivalent := by
    simp only [Expr.reference, Expr.equivalent_new,
      ExprForm.equivalent, decide_true]
  endsWithBlock := rfl
  isCalled := rfl

theorem mirrors_invocation
    {xs ys : List Argument}
    (hArguments : equivalentArguments xs ys = true)
    (name : String)
    (a b : Span) :
    (Expr.invocation name xs a).Mirrors
      (.invocation name ys b) where
  equivalent := by
    simp only [Expr.invocation, Expr.equivalent_new,
      ExprForm.equivalent, hArguments, decide_true,
      Bool.and_self]
  endsWithBlock := rfl
  isCalled := rfl

/- A number is an integer or a long one. -/
theorem exists_of_intForm?
    {text : String}
    {form : ExprForm}
    (hForm : intForm? text = some form) :
    (∃ n, form = .int n) ∨ ∃ n, form = .long n := by
  unfold intForm? at hForm
  dsimp only at hForm
  split at hForm
  · rcases Option.map_eq_some_iff.1 hForm with ⟨n, -, rfl⟩
    exact .inr ⟨n, rfl⟩
  · rcases Option.map_eq_some_iff.1 hForm with ⟨n, -, rfl⟩
    exact .inl ⟨n, rfl⟩

/- A literal is what it says. -/
theorem mirrors_intForm
    {text : String}
    {form : ExprForm}
    (hForm : intForm? text = some form)
    (a b : Span) :
    (Expr.new form a).Mirrors (.new form b) := by
  rcases exists_of_intForm? hForm with ⟨n, rfl⟩ | ⟨n, rfl⟩
  · refine Expr.mirrors_new ?_ rfl rfl rfl
    simp only [ExprForm.equivalent, decide_true]
  · refine Expr.mirrors_new ?_ rfl rfl rfl
    simp only [ExprForm.equivalent, decide_true]

end Nodes

------------------------------------------------------------
-- Lists
------------------------------------------------------------

theorem equivalentOptions_of_mirrors
    {o p : Option Expr}
    (hBoth : Option.Rel Expr.Mirrors o p) :
    equivalentOptions o p = true := by
  cases hBoth with
  | none => simp only [equivalentOptions]
  | some hMirrors =>
      simp only [equivalentOptions, hMirrors.equivalent]

theorem equivalentExprs_of_mirrors
    {es fs : List Expr}
    (hAll : List.Forall₂ Expr.Mirrors es fs) :
    equivalentExprs es fs = true := by
  induction hAll with
  | nil => simp only [equivalentExprs]
  | cons hMirrors _ ih =>
      simp only [equivalentExprs, hMirrors.equivalent, ih,
        Bool.and_self]

theorem equivalentArguments_of_forall₂
    {xs ys : List Argument}
    (hAll : List.Forall₂ (·.equivalent · = true) xs ys) :
    equivalentArguments xs ys = true := by
  induction hAll with
  | nil => simp only [equivalentArguments]
  | cons hFirst _ ih =>
      simp only [equivalentArguments, hFirst, ih,
        Bool.and_self]

theorem equivalentParameters_of_forall₂
    {xs ys : List Parameter}
    (hAll : List.Forall₂ (·.equivalent · = true) xs ys) :
    equivalentParameters xs ys = true := by
  induction hAll with
  | nil => simp only [equivalentParameters]
  | cons hFirst _ ih =>
      simp only [equivalentParameters, hFirst, ih,
        Bool.and_self]

theorem equivalentStatements_of_forall₂
    {xs ys : List Statement}
    (hAll : List.Forall₂ (·.equivalent · = true) xs ys) :
    equivalentStatements xs ys = true := by
  induction hAll with
  | nil => simp only [equivalentStatements]
  | cons hFirst _ ih =>
      simp only [equivalentStatements, hFirst, ih,
        Bool.and_self]

------------------------------------------------------------
-- Strings
------------------------------------------------------------

/- Parts of strings with the same text or with mirrors. -/
inductive StringPart.Mirrors :
    StringPart → StringPart → Prop where
  | text {value a b} :
      Mirrors (.text value a) (.text value b)
  | embedded {e f}
      (hExpr : e.Mirrors f) :
      Mirrors (.embedded e) (.embedded f)

theorem mirrors_string (value : String) (a b : Span) :
    (Expr.new (.string value) a).Mirrors
      (.new (.string value) b) :=
  Expr.mirrors_new
    (by simp only [ExprForm.equivalent, decide_true])
    rfl rfl rfl

/- What mirrors a text is the same text. -/
theorem Expr.Mirrors.string_iff
    {e f : Expr}
    (hMirrors : e.Mirrors f)
    (value : String) :
    e.form = .string value ↔ f.form = .string value := by
  rcases e with ⟨g, a, t⟩
  rcases f with ⟨h, b, u⟩
  have hForms := hMirrors.equivalent
  simp only [Expr.equivalent] at hForms
  dsimp only
  constructor
  · rintro rfl
    cases h <;>
      simp_all only [ExprForm.equivalent, decide_eq_true_eq,
        Bool.false_eq_true]
  · rintro rfl
    cases g <;>
      simp_all only [ExprForm.equivalent, decide_eq_true_eq,
        Bool.false_eq_true]

/- Texts in front of mirrors are joined alike. -/
theorem mirrors_consMerged
    {e f : Expr}
    {es fs : List Expr}
    (hFirst : e.Mirrors f)
    (hOthers : List.Forall₂ Expr.Mirrors es fs) :
    List.Forall₂ Expr.Mirrors
      (consMerged e es) (consMerged f fs) := by
  by_cases hTexts :
      ∃ a b others span type,
        e.form = .string a ∧
          es = ⟨.string b, span, type⟩ :: others
  · rcases hTexts with ⟨a, b, others, span, type, hForm, rfl⟩
    cases hOthers with
    | @cons _ second _ rest hSecond hRest =>
        have hText := (hFirst.string_iff a).1 hForm
        have hOther := (hSecond.string_iff b).1 rfl
        rcases second with ⟨form, place, other⟩
        dsimp only at hOther
        subst hOther
        unfold consMerged
        rw [hForm, hText]
        exact .cons (mirrors_string (a ++ b) _ _) hRest
  · rw [consMerged_eq_cons, consMerged_eq_cons]
    · exact .cons hFirst hOthers
    · intro a b others span type hForm hParts
      subst hParts
      rcases List.forall₂_cons_right_iff.1 hOthers with
        ⟨second, rest, hSecond, -, rfl⟩
      have hOther := (hSecond.string_iff b).2 rfl
      rcases second with ⟨form, place, other⟩
      dsimp only at hOther
      subst hOther
      exact hTexts ⟨a, b, rest, place, other,
        (hFirst.string_iff a).2 hForm, rfl⟩
    · intro a b others span type hForm hParts
      exact hTexts ⟨a, b, others, span, type, hForm, hParts⟩

theorem mirrors_mergeTexts
    {es fs : List Expr}
    (hParts : List.Forall₂ Expr.Mirrors es fs) :
    List.Forall₂ Expr.Mirrors
      (mergeTexts es) (mergeTexts fs) := by
  induction hParts with
  | nil => exact .nil
  | cons hFirst _ ih =>
      rw [mergeTexts_cons, mergeTexts_cons]
      exact mirrors_consMerged hFirst ih

/- Strings of mirrors mirror each other. -/
theorem mirrors_stringForm
    {ps qs : List StringPart}
    (hParts : List.Forall₂ StringPart.Mirrors ps qs)
    (a b : Span) :
    (Expr.new (stringForm ps) a).Mirrors
      (.new (stringForm qs) b) := by
  have hPart
      {p q : StringPart}
      (hMirrors : p.Mirrors q) :
      p.isEmbedded = q.isEmbedded ∧
        p.ownText = q.ownText := by
    cases hMirrors with
    | text => exact ⟨rfl, rfl⟩
    | embedded _ => exact ⟨rfl, rfl⟩
  have hBoth :
      ps.any (·.isEmbedded) = qs.any (·.isEmbedded) ∧
        ps.map (·.ownText) = qs.map (·.ownText) := by
    induction hParts with
    | nil => exact ⟨rfl, rfl⟩
    | cons hFirst _ ih =>
        rw [List.any_cons, List.any_cons, List.map_cons,
          List.map_cons, (hPart hFirst).1,
          (hPart hFirst).2, ih.1, ih.2]
        exact ⟨rfl, rfl⟩
  have hExprs :
      List.Forall₂ Expr.Mirrors
        (ps.map (·.expression)) (qs.map (·.expression)) := by
    rw [List.forall₂_map_left_iff, List.forall₂_map_right_iff]
    refine hParts.imp fun p q hMirrors => ?_
    cases hMirrors with
    | text => exact mirrors_string _ _ _
    | embedded hExpr => exact hExpr
  unfold stringForm
  rw [hBoth.1, hBoth.2]
  split
  · refine Expr.mirrors_new ?_ rfl rfl rfl
    simp only [ExprForm.equivalent]
    exact equivalentExprs_of_mirrors
      (mirrors_mergeTexts hExprs)
  · exact mirrors_string _ _ _

end SourceCheck
