import Mathlib
import SourceCheck.Check
import SourceCheck.Proofs.Typing.Assignability

/-
  The order of the sides of an intersection.

  A source that is an intersection is taken for either of its
  sides, in whichever order they are written.  A target that
  is an intersection has no rule of its own: it takes what
  equals it, and what fits everywhere.  So the order counts
  where an intersection itself is expected, and only there.

  Key definitions include:
    * `Ty.alternatives`
    * `Ty.sides`
    * `Ty.turned`

  Key theorems include:
    * `Ty.accepts_intersection`
    * `Ty.intersection_accepts`
    * `Ty.accepts_turned`
    * `Ty.accepts_either_order`
-/

namespace SourceCheck

namespace Ty

------------------------------------------------------------
-- Parts of types
------------------------------------------------------------

/- The types that a type offers a choice of. -/
def alternatives : Ty → List Ty
  | .union left right => left.alternatives ++ right.alternatives
  | t => [t]

/- A type and all that it is joined from. -/
def sides : Ty → List Ty
  | .union left right =>
      .union left right :: (left.sides ++ right.sides)
  | .intersection left right =>
      .intersection left right :: (left.sides ++ right.sides)
  | t => [t]

/- The type with all its intersections the other way round. -/
def turned : Ty → Ty
  | .union left right => .union left.turned right.turned
  | .intersection left right =>
      .intersection right.turned left.turned
  | t => t

theorem mem_sides (t : Ty) : t ∈ t.sides := by
  cases t <;> exact List.mem_cons_self

/- No side is larger than the type. -/
theorem sizeOf_le_of_mem_sides
    {s t : Ty}
    (hSide : s ∈ t.sides) :
    sizeOf s ≤ sizeOf t := by
  fun_induction sides t with
  | case1 left right ihLeft ihRight =>
      rw [List.mem_cons, List.mem_append] at hSide
      rcases hSide with rfl | hLeft | hRight
      · exact Nat.le_refl _
      · have hLess := ihLeft hLeft
        rw [union.sizeOf_spec]
        omega
      · have hLess := ihRight hRight
        rw [union.sizeOf_spec]
        omega
  | case2 left right ihLeft ihRight =>
      rw [List.mem_cons, List.mem_append] at hSide
      rcases hSide with rfl | hLeft | hRight
      · exact Nat.le_refl _
      · have hLess := ihLeft hLeft
        rw [intersection.sizeOf_spec]
        omega
      · have hLess := ihRight hRight
        rw [intersection.sizeOf_spec]
        omega
  | case3 t _ _ =>
      rw [List.mem_singleton] at hSide
      rw [hSide]

/- An intersection is no side of either of its sides. -/
theorem intersection_notMem_sides
    (a b : Ty) :
    .intersection a b ∉ a.sides ∧
      .intersection a b ∉ b.sides := by
  constructor
  · intro hSide
    have hLess := sizeOf_le_of_mem_sides hSide
    rw [intersection.sizeOf_spec] at hLess
    omega
  · intro hSide
    have hLess := sizeOf_le_of_mem_sides hSide
    rw [intersection.sizeOf_spec] at hLess
    omega

------------------------------------------------------------
-- The checks one by one
------------------------------------------------------------

theorem fitsAtOnce_iff
    {t s : Ty} :
    fitsAtOnce t s ↔
      t.isError ∨ s.isError ∨ t = s ∨ t = .builtin .any ∨
        s = .builtin .nothing := by
  simp only [fitsAtOnce, Bool.or_eq_true, decide_eq_true_eq,
    or_assoc]

/- What is accepted passes one of the checks. -/
theorem accepts_cases
    {t s : Ty}
    (hAccepts : t.accepts s) :
    fitsAtOnce t s ∨
      (∃ left right,
        t = .union left right ∧
          (left.accepts s ∨ right.accepts s)) ∨
      (∃ left right,
        s = .intersection left right ∧
          (t.accepts left ∨ t.accepts right)) ∨
      (∃ left right,
        s = .union left right ∧
          t.accepts left ∧ t.accepts right) ∨
      widens t s := by
  unfold accepts at hAccepts
  rw [Bool.or_eq_true, Bool.or_eq_true] at hAccepts
  rcases hAccepts with (hAtOnce | hTarget) | hSource
  · exact .inl hAtOnce
  · cases t with
    | union left right =>
        exact .inr (.inl
          ⟨left, right, rfl, Bool.or_eq_true_iff.mp hTarget⟩)
    | _ => cases hTarget
  · cases s with
    | intersection left right =>
        exact .inr (.inr (.inl
          ⟨left, right, rfl, Bool.or_eq_true_iff.mp hSource⟩))
    | union left right =>
        exact .inr (.inr (.inr (.inl
          ⟨left, right, rfl, Bool.and_eq_true_iff.mp hSource⟩)))
    | _ => exact .inr (.inr (.inr (.inr hSource)))

/- What fits at once is accepted. -/
theorem accepts_of_fitsAtOnce
    {t s : Ty}
    (hAtOnce : fitsAtOnce t s) :
    t.accepts s := by
  unfold accepts
  simp [hAtOnce]

/- A union takes what one of its sides takes. -/
theorem accepts_union_of_side
    {left right s : Ty}
    (hSide : left.accepts s ∨ right.accepts s) :
    (Ty.union left right).accepts s := by
  unfold accepts
  simp [hSide]

/- An intersection fits where one of its sides fits. -/
theorem accepts_intersection_of_side
    {t left right : Ty}
    (hSide : t.accepts left ∨ t.accepts right) :
    t.accepts (.intersection left right) := by
  unfold accepts
  simp [hSide]

/- A union fits where both of its sides fit. -/
theorem accepts_union_of_sides
    {t left right : Ty}
    (hLeft : t.accepts left)
    (hRight : t.accepts right) :
    t.accepts (.union left right) := by
  unfold accepts
  simp [hLeft, hRight]

------------------------------------------------------------
-- Intersections as sources
------------------------------------------------------------

/-
  An intersection fits where one of its sides does.  Only a
  type that has it as an alternative takes it as a whole.
-/
theorem accepts_intersection (t a b : Ty) :
    t.accepts (.intersection a b) ↔
      t.accepts a ∨ t.accepts b ∨
        .intersection a b ∈ t.alternatives := by
  constructor
  · intro hAccepts
    fun_induction alternatives t with
    | case1 left right ihLeft ihRight =>
        rcases accepts_cases hAccepts with
          hAtOnce | ⟨_, _, hUnion, hSide⟩ |
            ⟨_, _, hSame, hSide⟩ | ⟨_, _, hSame, _⟩ | hWidens
        · rcases fitsAtOnce_iff.mp hAtOnce with
            h | h | h | h | h <;> cases h
        · cases hUnion
          rcases hSide with hSide | hSide
          · rcases ihLeft hSide with hA | hB | hWhole
            · exact .inl (accepts_union_of_side (.inl hA))
            · exact .inr (.inl (accepts_union_of_side (.inl hB)))
            · exact .inr (.inr (List.mem_append_left _ hWhole))
          · rcases ihRight hSide with hA | hB | hWhole
            · exact .inl (accepts_union_of_side (.inr hA))
            · exact .inr (.inl (accepts_union_of_side (.inr hB)))
            · exact .inr (.inr (List.mem_append_right _ hWhole))
        · cases hSame
          exact or_assoc.mp (.inl hSide)
        · cases hSame
        · cases hWidens
    | case2 t hNone =>
        rcases accepts_cases hAccepts with
          hAtOnce | ⟨_, _, hUnion, _⟩ |
            ⟨_, _, hSame, hSide⟩ | ⟨_, _, hSame, _⟩ | hWidens
        · rcases fitsAtOnce_iff.mp hAtOnce with
            hError | h | rfl | hAny | h
          · exact .inl (accepts_of_fitsAtOnce
              (fitsAtOnce_iff.mpr (.inl hError)))
          · cases h
          · exact .inr (.inr (List.mem_singleton_self _))
          · rw [hAny]
            exact .inl (accepts_of_fits (.any a))
          · cases h
        · exact absurd hUnion (hNone _ _)
        · cases hSame
          exact or_assoc.mp (.inl hSide)
        · cases hSame
        · obtain ⟨_, _, _, _, _, hSame, _⟩ :=
            builtins_of_widens hWidens
          cases hSame
  · rintro (hA | hB | hWhole)
    · exact accepts_intersection_of_side (.inl hA)
    · exact accepts_intersection_of_side (.inr hB)
    · fun_induction alternatives t with
      | case1 left right ihLeft ihRight =>
          rcases List.mem_append.mp hWhole with hLeft | hRight
          · exact accepts_union_of_side (.inl (ihLeft hLeft))
          · exact accepts_union_of_side (.inr (ihRight hRight))
      | case2 t hNone =>
          rw [List.mem_singleton.mp hWhole]
          exact accepts_of_fits (.same _)

------------------------------------------------------------
-- Intersections as targets
------------------------------------------------------------

/-
  A target that is no union is asked about the whole source
  and about its sides.  Where another one takes all that it
  takes as a whole, that one takes the source too.
-/
theorem accepts_of_wholes
    {t u s : Ty}
    (hTarget : ∀ left right, t ≠ .union left right)
    (hWholes :
      ∀ x ∈ s.sides,
        fitsAtOnce t x ∨ widens t x → u.accepts x)
    (hAccepts : t.accepts s) :
    u.accepts s := by
  have hWhole := hWholes s s.mem_sides
  rcases accepts_cases hAccepts with
    hAtOnce | ⟨left, right, hUnion, _⟩ |
      ⟨left, right, rfl, hSide⟩ |
        ⟨left, right, rfl, hLeft, hRight⟩ | hWidens
  · exact hWhole (.inl hAtOnce)
  · exact absurd hUnion (hTarget left right)
  · have hSides (x : Ty) :
        x ∈ left.sides ∨ x ∈ right.sides →
          fitsAtOnce t x ∨ widens t x → u.accepts x :=
      fun hMem => hWholes x
        (List.mem_cons_of_mem _ (List.mem_append.mpr hMem))
    apply accepts_intersection_of_side
    rcases hSide with hSide | hSide
    · exact .inl (accepts_of_wholes hTarget
        (fun x hMem => hSides x (.inl hMem)) hSide)
    · exact .inr (accepts_of_wholes hTarget
        (fun x hMem => hSides x (.inr hMem)) hSide)
  · have hSides (x : Ty) :
        x ∈ left.sides ∨ x ∈ right.sides →
          fitsAtOnce t x ∨ widens t x → u.accepts x :=
      fun hMem => hWholes x
        (List.mem_cons_of_mem _ (List.mem_append.mpr hMem))
    exact accepts_union_of_sides
      (accepts_of_wholes hTarget
        (fun x hMem => hSides x (.inl hMem)) hLeft)
      (accepts_of_wholes hTarget
        (fun x hMem => hSides x (.inr hMem)) hRight)
  · exact hWhole (.inr hWidens)

/-
  An intersection takes no source that it is no side of, but
  for what fits everywhere.
-/
theorem intersection_accepts
    {a b s : Ty}
    (hNone : .intersection a b ∉ s.sides) :
    (Ty.intersection a b).accepts s ↔
      (Ty.builtin .nothing).accepts s := by
  constructor
  · refine accepts_of_wholes nofun ?_
    rintro x hMem (hAtOnce | hWidens)
    · rcases fitsAtOnce_iff.mp hAtOnce with
        h | hError | rfl | h | rfl
      · cases h
      · exact accepts_of_fitsAtOnce
          (fitsAtOnce_iff.mpr (.inr (.inl hError)))
      · exact absurd hMem hNone
      · cases h
      · exact accepts_of_fits (.nothing _)
    · cases hWidens
  · refine accepts_of_wholes nofun ?_
    rintro x - (hAtOnce | hWidens)
    · rcases fitsAtOnce_iff.mp hAtOnce with
        h | hError | rfl | h | rfl
      · cases h
      · exact accepts_of_fitsAtOnce
          (fitsAtOnce_iff.mpr (.inr (.inl hError)))
      · exact accepts_of_fits (.nothing _)
      · cases h
      · exact accepts_of_fits (.nothing _)
    · obtain ⟨_, _, _, _, hSame, _, hRank, _⟩ :=
        builtins_of_widens hWidens
      cases hSame
      cases hRank

------------------------------------------------------------
-- All intersections the other way round
------------------------------------------------------------

theorem turned_turned (t : Ty) : t.turned.turned = t := by
  fun_induction turned t with
  | case1 left right ihLeft ihRight =>
      rw [turned, ihLeft, ihRight]
  | case2 left right ihLeft ihRight =>
      rw [turned, ihLeft, ihRight]
  | case3 t hUnion hIntersection =>
      rw [turned]
      · exact hUnion
      · exact hIntersection

theorem isError_turned (t : Ty) :
    t.turned.isError = t.isError := by
  cases t <;> rfl

/- What is accepted is so with all intersections turned. -/
theorem accepts_turned_of_accepts
    {t s : Ty}
    (hAccepts : t.accepts s) :
    t.turned.accepts s.turned := by
  rcases accepts_cases hAccepts with
    hAtOnce | ⟨left, right, rfl, hSide⟩ |
      ⟨left, right, rfl, hSide⟩ |
        ⟨left, right, rfl, hLeft, hRight⟩ | hWidens
  · apply accepts_of_fitsAtOnce
    apply fitsAtOnce_iff.mpr
    rw [isError_turned, isError_turned]
    rcases fitsAtOnce_iff.mp hAtOnce with
      h | h | rfl | rfl | rfl
    · exact .inl h
    · exact .inr (.inl h)
    · exact .inr (.inr (.inl rfl))
    · exact .inr (.inr (.inr (.inl rfl)))
    · exact .inr (.inr (.inr (.inr rfl)))
  · exact accepts_union_of_side
      (hSide.imp accepts_turned_of_accepts
        accepts_turned_of_accepts)
  · exact accepts_intersection_of_side
      (hSide.symm.imp accepts_turned_of_accepts
        accepts_turned_of_accepts)
  · exact accepts_union_of_sides
      (accepts_turned_of_accepts hLeft)
      (accepts_turned_of_accepts hRight)
  · obtain ⟨_, _, _, _, rfl, rfl, _⟩ :=
      builtins_of_widens hWidens
    exact accepts_of_fits (.widened hWidens)
termination_by sizeOf t + sizeOf s

theorem accepts_turned (t s : Ty) :
    t.turned.accepts s.turned ↔ t.accepts s := by
  constructor
  · intro hAccepts
    have hBack := accepts_turned_of_accepts hAccepts
    rwa [turned_turned, turned_turned] at hBack
  · exact accepts_turned_of_accepts

------------------------------------------------------------
-- Both orders
------------------------------------------------------------

/-
  The order of the sides of an intersection counts only for
  types that name an intersection.  A type takes it for one
  of its sides, or as one of its own alternatives; types
  without either order among these take both or none.  As
  targets, both orders take the same types that hold neither
  of them, and each takes the other only if they are equal or
  a side fits everywhere.  Turning all intersections of two
  types at once changes nothing.
-/
theorem accepts_either_order (t a b : Ty) :
    (t.accepts (.intersection a b) ↔
        t.accepts a ∨ t.accepts b ∨
          .intersection a b ∈ t.alternatives) ∧
      (.intersection a b ∉ t.alternatives →
        .intersection b a ∉ t.alternatives →
          (t.accepts (.intersection a b) ↔
            t.accepts (.intersection b a))) ∧
      (.intersection a b ∉ t.sides →
        .intersection b a ∉ t.sides →
          ((Ty.intersection a b).accepts t ↔
            (Ty.intersection b a).accepts t)) ∧
      ((Ty.intersection a b).accepts (.intersection b a) ↔
        a = b ∨ (Ty.builtin .nothing).accepts a ∨
          (Ty.builtin .nothing).accepts b) ∧
      ∀ s : Ty, t.turned.accepts s.turned ↔ t.accepts s := by
  refine ⟨accepts_intersection t a b, ?_, ?_, ?_,
    accepts_turned t⟩
  · intro hNone hOther
    rw [accepts_intersection, accepts_intersection]
    simp only [hNone, hOther, or_false]
    exact or_comm
  · intro hNone hOther
    rw [intersection_accepts hNone,
      intersection_accepts hOther]
  · have hSides := intersection_notMem_sides a b
    rw [accepts_intersection, intersection_accepts hSides.1,
      intersection_accepts hSides.2, alternatives,
      List.mem_singleton, intersection.injEq]
    · constructor
      · rintro (hB | hA | ⟨hSame, _⟩)
        · exact .inr (.inr hB)
        · exact .inr (.inl hA)
        · exact .inl hSame.symm
      · rintro (rfl | hA | hB)
        · exact .inr (.inr ⟨rfl, rfl⟩)
        · exact .inr (.inl hA)
        · exact .inl hB
    · nofun

/-
  A union of numbers and truth values takes integers that are
  texts, in both orders.
-/
theorem accepts_either_order_union :
    (Ty.union .long .boolean).accepts
        (.intersection .int .string) ∧
      (Ty.union .long .boolean).accepts
        (.intersection .string .int) ∧
      (Ty.intersection .string .int).accepts
          (.union .long .boolean) =
        (Ty.intersection .int .string).accepts
          (.union .long .boolean) := by
  have hOrders :=
    accepts_either_order (.union .long .boolean) .int .string
  have hSide :
      (Ty.union .long .boolean).accepts .int :=
    accepts_of_fits (.targetLeft .boolean (.widened rfl))
  have hFirst := hOrders.1.mpr (.inl hSide)
  have hChoice (a b : Ty) :
      .intersection a b ∉
        (Ty.union .long .boolean).alternatives := by
    simp [alternatives, long, boolean]
  have hSides (a b : Ty) :
      .intersection a b ∉ (Ty.union .long .boolean).sides := by
    simp [sides, long, boolean]
  have hSecond :=
    (hOrders.2.1 (hChoice _ _) (hChoice _ _)).mp hFirst
  have hTargets := hOrders.2.2.1 (hSides _ _) (hSides _ _)
  exact ⟨hFirst, hSecond, Bool.eq_iff_iff.mpr hTargets.symm⟩

/-
  An intersection that is expected is not the other one.  A
  program that declares both its parameters alike does not
  compile any more when one of the types is turned.
-/
theorem not_accepts_other_order :
    Ty.int.isPlain ∧ Ty.string.isPlain ∧
      (Ty.intersection .int .string).accepts
        (.intersection .int .string) ∧
      ¬ (Ty.intersection .int .string).accepts
        (.intersection .string .int) ∧
      (compile .empty
          "fun f(x: int & string, y: int & string = x);"
          "main").isOk ∧
      ¬ (compile .empty
          "fun f(x: string & int, y: int & string = x);"
          "main").isOk := by
  refine ⟨rfl, rfl, accepts_of_fits (.same _), ?_, ?_, ?_⟩
  · cbv
    exact Bool.false_ne_true
  · cbv
  · cbv
    exact Bool.false_ne_true

end Ty

end SourceCheck
