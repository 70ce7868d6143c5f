import SourceCheck.Ty.Assignable

/-
  Assignability orders the types.

  The checks for one type standing for another are tried in
  a fixed order, with the sides of the target first.  Without
  errors in the two types the order plays no role: a type
  fits where the rules of `Ty.Fits` derive it, each of which
  takes apart one side of one of the two types.  Two
  derivations in a row are cut down to one, so fitting is
  transitive, and a union is the least type that takes both
  of its sides.

  An error fits everywhere and takes everything.  It would
  join any two types, so no type may have it as a side.

  Key definitions include:
    * `Ty.isPlain`
    * `Ty.Fits`

  Key theorems include:
    * `Ty.Fits.trans`
    * `Ty.accepts_iff_fits`
    * `Ty.accepts_order`
-/

namespace SourceCheck

namespace Ty

------------------------------------------------------------
-- Types without errors as sides
------------------------------------------------------------

/-
  No side of the type is an error.  What a function takes and
  gives may be one, and so may what a container holds.
-/
def isPlain : Ty → Bool
  | .union left right => left.isPlain && right.isPlain
  | .intersection left right => left.isPlain && right.isPlain
  | .error _ => false
  | _ => true

theorem isPlain_union
    {left right : Ty} :
    (Ty.union left right).isPlain ↔
      left.isPlain ∧ right.isPlain := by
  rw [isPlain, Bool.and_eq_true]

theorem isPlain_intersection
    {left right : Ty} :
    (Ty.intersection left right).isPlain ↔
      left.isPlain ∧ right.isPlain := by
  rw [isPlain, Bool.and_eq_true]

theorem isError_of_isPlain
    {t : Ty}
    (hPlain : t.isPlain) :
    t.isError = false := by
  cases t with
  | error description => simp [isPlain] at hPlain
  | _ => rfl

------------------------------------------------------------
-- Rules of fitting
------------------------------------------------------------

/- A value of the second type may stand for the first. -/
inductive Fits : Ty → Ty → Prop where
  | same (t : Ty) : Fits t t
  | any (source : Ty) : Fits (.builtin .any) source
  | nothing (target : Ty) : Fits target (.builtin .nothing)
  | widened
      {target source : Ty}
      (hWidens : widens target source) :
      Fits target source
  | targetLeft
      {left source : Ty}
      (right : Ty)
      (hLeft : Fits left source) :
      Fits (.union left right) source
  | targetRight
      {right source : Ty}
      (left : Ty)
      (hRight : Fits right source) :
      Fits (.union left right) source
  | sourceLeft
      {target left : Ty}
      (right : Ty)
      (hLeft : Fits target left) :
      Fits target (.intersection left right)
  | sourceRight
      {target right : Ty}
      (left : Ty)
      (hRight : Fits target right) :
      Fits target (.intersection left right)
  | sourceBoth
      {target left right : Ty}
      (hLeft : Fits target left)
      (hRight : Fits target right) :
      Fits target (.union left right)

/- A type that widens another is built in, and so is that. -/
theorem builtins_of_widens
    {target source : Ty}
    (hWidens : widens target source) :
    ∃ b c m n,
      target = .builtin b ∧ source = .builtin c ∧
        b.rank? = some m ∧ c.rank? = some n ∧ n ≤ m := by
  unfold widens at hWidens
  split at hWidens
  · next m n hTarget hSource =>
      cases target with
      | builtin b =>
          cases source with
          | builtin c =>
              exact ⟨b, c, m, n, rfl, rfl, hTarget, hSource,
                of_decide_eq_true hWidens⟩
          | _ => cases hSource
      | _ => cases hTarget
  · cases hWidens

theorem widens_trans
    {a b c : Ty}
    (hFirst : widens a b)
    (hSecond : widens b c) :
    widens a c := by
  obtain ⟨_, _, l, m, rfl, rfl, hA, hB, hBelow⟩ :=
    builtins_of_widens hFirst
  obtain ⟨_, _, m', n, hSame, rfl, hB', hC, hBelow'⟩ :=
    builtins_of_widens hSecond
  cases hSame
  rw [hB] at hB'
  cases hB'
  simp only [widens, rank?, hA, hC]
  exact decide_eq_true (Nat.le_trans hBelow' hBelow)

------------------------------------------------------------
-- Two derivations in a row
------------------------------------------------------------

namespace Fits

/-
  One type takes whatever another takes if it does so when
  the source stays whole.  The rules that take the source
  apart do not look at the target.
-/
theorem of_whole
    {a b c : Ty}
    (hFits : Fits b c)
    (hSame : Fits a b)
    (hAny : b = .builtin .any → ∀ c, Fits a c)
    (hWidened :
      ∀ x c, b = .builtin x → widens b c → Fits a c)
    (hLeft :
      ∀ left right c,
        b = .union left right → Fits left c → Fits a c)
    (hRight :
      ∀ left right c,
        b = .union left right → Fits right c → Fits a c) :
    Fits a c := by
  induction hFits with
  | same => exact hSame
  | any source => exact hAny rfl source
  | nothing => exact .nothing a
  | widened hWidens =>
      obtain ⟨x, _, _, _, hBuiltin, _⟩ :=
        builtins_of_widens hWidens
      exact hWidened x _ hBuiltin hWidens
  | targetLeft right hFits => exact hLeft _ _ _ rfl hFits
  | targetRight left hFits => exact hRight _ _ _ rfl hFits
  | sourceLeft right _ ih =>
      exact .sourceLeft right
        (ih hSame hAny hWidened hLeft hRight)
  | sourceRight left _ ih =>
      exact .sourceRight left
        (ih hSame hAny hWidened hLeft hRight)
  | sourceBoth _ _ ihLeft ihRight =>
      exact .sourceBoth
        (ihLeft hSame hAny hWidened hLeft hRight)
        (ihRight hSame hAny hWidened hLeft hRight)

/- What `nothing` takes fits everywhere. -/
theorem of_nothing
    {a c : Ty}
    (hFits : Fits (.builtin .nothing) c) :
    Fits a c := by
  refine of_whole hFits (.nothing a) nofun ?_ nofun nofun
  intro x c hNothing hWidens
  obtain ⟨_, _, _, _, hSame, _, hRank, _⟩ :=
    builtins_of_widens hWidens
  cases hSame
  cases hRank

/-
  Fitting is transitive.  The induction is on how the second
  type fits the first; where that type is a union, what the
  side of it that the third type fits in takes is known.
-/
theorem trans
    {a b c : Ty}
    (hFirst : Fits a b)
    (hSecond : Fits b c) :
    Fits a c := by
  induction hFirst generalizing c with
  | same => exact hSecond
  | any source => exact .any c
  | nothing target => exact of_nothing hSecond
  | widened hWidens =>
      obtain ⟨_, _, _, _, rfl, rfl, _, hRank, _⟩ :=
        builtins_of_widens hWidens
      refine of_whole hSecond (.widened hWidens) ?_ ?_
        nofun nofun
      · intro hAny
        cases hAny
        cases hRank
      · intro x c _ hNext
        exact .widened (widens_trans hWidens hNext)
  | targetLeft right _ ih => exact .targetLeft right (ih hSecond)
  | targetRight left _ ih => exact .targetRight left (ih hSecond)
  | sourceLeft right hLeft _ =>
      exact of_whole hSecond (.sourceLeft right hLeft) nofun
        nofun nofun nofun
  | sourceRight left hRight _ =>
      exact of_whole hSecond (.sourceRight left hRight) nofun
        nofun nofun nofun
  | sourceBoth hLeft hRight ihLeft ihRight =>
      refine of_whole hSecond (.sourceBoth hLeft hRight) nofun
        nofun ?_ ?_
      · intro left right c hUnion hNext
        cases hUnion
        exact ihLeft hNext
      · intro left right c hUnion hNext
        cases hUnion
        exact ihRight hNext

/- A union fits where both of its sides do. -/
theorem union_iff
    {target left right : Ty} :
    Fits target (.union left right) ↔
      Fits target left ∧ Fits target right := by
  constructor
  · intro hFits
    have hLeft : Fits (.union left right) left :=
      .targetLeft right (.same left)
    have hRight : Fits (.union left right) right :=
      .targetRight left (.same right)
    exact ⟨hFits.trans hLeft, hFits.trans hRight⟩
  · rintro ⟨hLeft, hRight⟩
    exact .sourceBoth hLeft hRight

end Fits

------------------------------------------------------------
-- The checks and the rules
------------------------------------------------------------

/- Whatever the rules derive passes the checks. -/
theorem accepts_of_fits
    {target source : Ty}
    (hFits : Fits target source) :
    target.accepts source := by
  induction hFits with
  | same t =>
      unfold accepts
      simp [fitsAtOnce]
  | any source =>
      unfold accepts
      simp [fitsAtOnce]
  | nothing target =>
      unfold accepts
      simp [fitsAtOnce]
  | widened hWidens =>
      obtain ⟨_, _, _, _, rfl, rfl, _⟩ :=
        builtins_of_widens hWidens
      simp [accepts, hWidens]
  | targetLeft right _ ih =>
      unfold accepts
      simp [ih]
  | targetRight left _ ih =>
      unfold accepts
      simp [ih]
  | sourceLeft right _ ih =>
      unfold accepts
      simp [ih]
  | sourceRight left _ ih =>
      unfold accepts
      simp [ih]
  | sourceBoth _ _ ihLeft ihRight =>
      unfold accepts
      simp [ihLeft, ihRight]

/- What is accepted at once is derived by one rule. -/
theorem fits_of_fitsAtOnce
    {target source : Ty}
    (hTarget : target.isPlain)
    (hSource : source.isPlain)
    (hAtOnce : fitsAtOnce target source) :
    Fits target source := by
  simp only [fitsAtOnce, isError_of_isPlain hTarget,
    isError_of_isPlain hSource, Bool.false_or,
    Bool.or_eq_true, decide_eq_true_eq] at hAtOnce
  rcases hAtOnce with (rfl | rfl) | rfl
  · exact .same _
  · exact .any _
  · exact .nothing _

/- What passes the checks is derived, one rule for each. -/
theorem fits_of_accepts
    {target source : Ty}
    (hTarget : target.isPlain)
    (hSource : source.isPlain)
    (hAccepts : target.accepts source) :
    Fits target source := by
  fun_induction accepts target source with
  | case1 target source ihTarget ihSource =>
      rw [Bool.or_eq_true, Bool.or_eq_true] at hAccepts
      rcases hAccepts with (hAtOnce | hSides) | hSides
      · exact fits_of_fitsAtOnce hTarget hSource hAtOnce
      · -- A side of the target takes the whole source.
        cases target with
        | union left right =>
            obtain ⟨hLeft, hRight⟩ := isPlain_union.mp hTarget
            rcases Bool.or_eq_true_iff.mp hSides with
              hSide | hSide
            · exact .targetLeft right
                (ihTarget.1 hLeft hSource hSide)
            · exact .targetRight left
                (ihTarget.2 hRight hSource hSide)
        | _ => cases hSides
      · -- The whole target takes the sides of the source.
        cases source with
        | intersection left right =>
            obtain ⟨hLeft, hRight⟩ :=
              isPlain_intersection.mp hSource
            rcases Bool.or_eq_true_iff.mp hSides with
              hSide | hSide
            · exact .sourceLeft right
                (ihSource.1 hTarget hLeft hSide)
            · exact .sourceRight left
                (ihSource.2 hTarget hRight hSide)
        | union left right =>
            obtain ⟨hLeft, hRight⟩ := isPlain_union.mp hSource
            obtain ⟨hSideLeft, hSideRight⟩ :=
              Bool.and_eq_true_iff.mp hSides
            exact .sourceBoth
              (ihSource.1 hTarget hLeft hSideLeft)
              (ihSource.2 hTarget hRight hSideRight)
        | _ => exact .widened hSides

/- Without errors the checks are the rules. -/
theorem accepts_iff_fits
    {target source : Ty}
    (hTarget : target.isPlain)
    (hSource : source.isPlain) :
    target.accepts source ↔ Fits target source :=
  ⟨fits_of_accepts hTarget hSource, accepts_of_fits⟩

------------------------------------------------------------
-- The order of the types
------------------------------------------------------------

/-
  Among types without errors as sides, assignability is
  reflexive and transitive, with `any` above all types and
  `nothing` below them.  A union is the least type above its
  sides, and an intersection lies below each of its sides.
-/
theorem accepts_order
    {a b c : Ty}
    (hA : a.isPlain)
    (hB : b.isPlain)
    (hC : c.isPlain) :
    a.accepts a ∧
      (a.accepts b → b.accepts c → a.accepts c) ∧
      (builtin .any).accepts a ∧
      a.accepts (builtin .nothing) ∧
      (a.accepts (.union b c) ↔
        a.accepts b ∧ a.accepts c) ∧
      (Ty.union b c).accepts b ∧
      (Ty.union b c).accepts c ∧
      (a.accepts b ∨ a.accepts c →
        a.accepts (.intersection b c)) := by
  have hUnion : (Ty.union b c).isPlain :=
    isPlain_union.mpr ⟨hB, hC⟩
  refine ⟨?_, ?_, ?_, ?_, ?_, ?_, ?_, ?_⟩
  · exact accepts_of_fits (.same a)
  · intro hFirst hSecond
    have hFirst := fits_of_accepts hA hB hFirst
    have hSecond := fits_of_accepts hB hC hSecond
    exact accepts_of_fits (hFirst.trans hSecond)
  · exact accepts_of_fits (.any a)
  · exact accepts_of_fits (.nothing a)
  · rw [accepts_iff_fits hA hUnion, accepts_iff_fits hA hB,
      accepts_iff_fits hA hC]
    exact Fits.union_iff
  · exact accepts_of_fits (.targetLeft c (.same b))
  · exact accepts_of_fits (.targetRight b (.same c))
  · rintro (hSide | hSide)
    · exact accepts_of_fits
        (.sourceLeft c (fits_of_accepts hA hB hSide))
    · exact accepts_of_fits
        (.sourceRight b (fits_of_accepts hA hC hSide))

/-
  A union of wider types takes one of narrower types, which
  takes an intersection with one of them.
-/
theorem accepts_order_numeric :
    (Ty.union .long .boolean).isPlain ∧
      (Ty.union .int .boolean).isPlain ∧
      (Ty.intersection .int .string).isPlain ∧
      (Ty.union .long .boolean).accepts
        (.union .int .boolean) ∧
      (Ty.union .int .boolean).accepts
        (.intersection .int .string) ∧
      (Ty.union .long .boolean).accepts
        (.intersection .int .string) := by
  have hOrder :=
    accepts_order
      (show (Ty.union .long .boolean).isPlain from rfl)
      (show (Ty.union .int .boolean).isPlain from rfl)
      (show (Ty.intersection .int .string).isPlain from rfl)
  have hWider :
      (Ty.union .long .boolean).accepts
        (.union .int .boolean) :=
    accepts_of_fits
      (.sourceBoth
        (.targetLeft .boolean (.widened rfl))
        (.targetRight .long (.same .boolean)))
  have hSide :
      (Ty.union .int .boolean).accepts
        (.intersection .int .string) :=
    accepts_of_fits
      (.sourceLeft .string (.targetLeft .boolean (.same .int)))
  exact ⟨rfl, rfl, rfl, hWider, hSide,
    hOrder.2.1 hWider hSide⟩

end Ty

end SourceCheck
