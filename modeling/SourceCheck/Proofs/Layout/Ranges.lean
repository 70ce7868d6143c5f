import SourceCheck.Proofs.Layout.TokenOrder

/-
  Ranges in and behind one another.

  The range of a node holds the ranges of its parts, one
  behind the other.  The ranges of runs of tokens hold each
  token of the runs once.

  Key definitions include:
    * `Span.Within`
    * `Span.Precedes`
    * `Span.Holds`
    * `Span.Laid`
    * `Span.SpansRun`
    * `Span.Cover`

  Key theorems include:
    * `Span.Laid.holds`
    * `Span.cover_of_spansRun`
-/

namespace SourceCheck

namespace Span

------------------------------------------------------------
-- Ranges and their parts
------------------------------------------------------------

/- One range lies in another one. -/
def Within (a b : Span) : Prop :=
  b.start.offset ≤ a.start.offset ∧
    a.stop.offset ≤ b.stop.offset

/- One range stops before another one starts. -/
def Precedes (a b : Span) : Prop :=
  a.stop.offset ≤ b.start.offset

/- A range holds others, one behind the other. -/
structure Holds (whole : Span) (parts : List Span) : Prop where
  within : ∀ part ∈ parts, part.Within whole
  pairwise : parts.Pairwise Precedes

/- From one offset to another stand ranges in their order. -/
inductive Laid : Nat → List Span → Nat → Prop where
  | nil {a b}
      (hLe : a ≤ b) :
      Laid a [] b
  | cons {a x xs b}
      (hFrom : a ≤ x.start.offset)
      (hForward : x.start.offset ≤ x.stop.offset)
      (hRest : Laid x.stop.offset xs b) :
      Laid a (x :: xs) b

namespace Laid

variable {a b c d : Nat}
variable {x y whole : Span}
variable {xs ys : List Span}

/- One range lies between two offsets. -/
theorem single
    (hFrom : a ≤ x.start.offset)
    (hForward : x.start.offset ≤ x.stop.offset)
    (hTo : x.stop.offset ≤ b) :
    Laid a [x] b :=
  .cons hFrom hForward (.nil hTo)

theorem le (hLaid : Laid a xs b) : a ≤ b := by
  induction hLaid with
  | nil hLe => exact hLe
  | cons hFrom hForward _ ih =>
      exact Nat.le_trans (Nat.le_trans hFrom hForward) ih

/- The offsets may lie further apart. -/
theorem widen
    (hLaid : Laid a xs b)
    (hFrom : c ≤ a)
    (hTo : b ≤ d) :
    Laid c xs d := by
  induction hLaid generalizing c with
  | nil hLe =>
      exact .nil (Nat.le_trans (Nat.le_trans hFrom hLe) hTo)
  | cons hStart hForward _ ih =>
      exact .cons (Nat.le_trans hFrom hStart) hForward
        (ih (Nat.le_refl _) hTo)

theorem append
    (hFirst : Laid a xs b)
    (hSecond : Laid b ys c) :
    Laid a (xs ++ ys) c := by
  induction hFirst with
  | nil hLe => exact hSecond.widen hLe (Nat.le_refl _)
  | cons hFrom hForward _ ih =>
      exact .cons hFrom hForward (ih hSecond)

/- More ranges start behind the first one. -/
theorem andThen
    (hFirst : Laid a [x] b)
    (hSecond : Laid b ys c) :
    Laid a (x :: ys) c :=
  hFirst.append hSecond

/- Two ranges side by side are joined. -/
theorem join (hLaid : Laid a (x :: y :: xs) b) :
    Laid a (x.between y :: xs) b := by
  rcases hLaid with _ | ⟨hFrom, hForward, hRest⟩
  rcases hRest with _ | ⟨hBehind, hNext, hRest⟩
  refine .cons hFrom ?_ hRest
  exact Nat.le_trans hForward (Nat.le_trans hBehind hNext)

/- Nothing is laid before the first range. -/
theorem own (hLaid : Laid a (x :: xs) b) :
    Laid x.start.offset (x :: xs) b := by
  rcases hLaid with _ | ⟨-, hForward, hRest⟩
  exact .cons (Nat.le_refl _) hForward hRest

theorem from_le
    (hLaid : Laid a xs b)
    {z : Span}
    (hMember : z ∈ xs) :
    a ≤ z.start.offset := by
  induction hLaid with
  | nil _ => cases hMember
  | cons hFrom hForward _ ih =>
      rcases List.mem_cons.1 hMember with rfl | hMember
      · exact hFrom
      · exact Nat.le_trans (Nat.le_trans hFrom hForward)
          (ih hMember)

theorem le_to
    (hLaid : Laid a xs b)
    {z : Span}
    (hMember : z ∈ xs) :
    z.stop.offset ≤ b := by
  induction hLaid with
  | nil _ => cases hMember
  | cons _ _ hRest ih =>
      rcases List.mem_cons.1 hMember with rfl | hMember
      · exact hRest.le
      · exact ih hMember

theorem pairwise (hLaid : Laid a xs b) :
    xs.Pairwise Precedes := by
  induction hLaid with
  | nil _ => exact .nil
  | cons _ _ hRest ih =>
      exact .cons (fun _ hMember => hRest.from_le hMember) ih

/- A range around the offsets holds what is laid there. -/
theorem holds
    (hLaid : Laid a xs b)
    (hStart : whole.start.offset ≤ a)
    (hStop : b ≤ whole.stop.offset) :
    whole.Holds xs where
  within _ hMember :=
    ⟨Nat.le_trans hStart (hLaid.from_le hMember),
      Nat.le_trans (hLaid.le_to hMember) hStop⟩
  pairwise := hLaid.pairwise

end Laid

/- A range without parts holds them. -/
theorem holds_nil (whole : Span) : whole.Holds [] :=
  ⟨nofun, .nil⟩

------------------------------------------------------------
-- Runs of tokens
------------------------------------------------------------

/- The range is from the first to the last of the tokens. -/
def SpansRun (x : Span) (ts : List Token) : Prop :=
  ∃ first last,
    ts.head? = some first ∧
      ts.getLast? = some last ∧
        x = first.span.between last.span

/-
  Of the ranges, which are in order, exactly one holds a
  token, and each starts and stops with a token.
-/
structure Cover (xs : List Span) (ts : List Token) : Prop where
  pairwise : xs.Pairwise Precedes
  existsUnique :
    ∀ t ∈ ts, ∃! i : Fin xs.length, t.span.Within xs[i]
  starts : ∀ x ∈ xs, ∃ t ∈ ts, x.start = t.span.start
  stops : ∀ x ∈ xs, ∃ t ∈ ts, x.stop = t.span.stop

section Runs

variable {x : Span}
variable {xs : List Span}
variable {ts : List Token}
variable {tss : List (List Token)}

namespace SpansRun

theorem start_mem (hRun : x.SpansRun ts) :
    ∃ t ∈ ts, x.start = t.span.start := by
  rcases hRun with ⟨first, last, hFirst, -, rfl⟩
  exact ⟨first, List.mem_of_mem_head? hFirst, rfl⟩

theorem stop_mem (hRun : x.SpansRun ts) :
    ∃ t ∈ ts, x.stop = t.span.stop := by
  rcases hRun with ⟨first, last, -, hLast, rfl⟩
  exact ⟨last, List.mem_of_getLast? hLast, rfl⟩

/- The range of tokens in order holds each of them. -/
theorem within
    (hRun : x.SpansRun ts)
    (hOrder : ts.Pairwise Token.StopsBefore)
    (hForward :
      ∀ t ∈ ts, t.span.start.offset < t.span.stop.offset)
    {t : Token}
    (hMember : t ∈ ts) :
    t.span.Within x := by
  rcases hRun with ⟨first, last, hFirst, hLast, rfl⟩
  constructor
  · rcases ts with _ | ⟨head, tail⟩
    · cases hMember
    cases hFirst
    rcases List.mem_cons.1 hMember with rfl | hMember
    · exact Nat.le_refl _
    · have hBefore := (List.pairwise_cons.1 hOrder).1 t hMember
      exact Nat.le_trans (Nat.le_of_lt hBefore.start_lt)
        hBefore.stop_le
  · rcases List.getLast?_eq_some_iff.1 hLast with ⟨front, rfl⟩
    rcases List.mem_append.1 hMember with hMember | hMember
    · have hBefore :=
        (List.pairwise_append.1 hOrder).2.2 t hMember last
          (List.mem_singleton_self last)
      have hLess := hForward last (by simp)
      exact Nat.le_trans hBefore.stop_le (Nat.le_of_lt hLess)
    · rw [List.mem_singleton.1 hMember]
      exact Nat.le_refl _

end SpansRun

/- The range of each run starts and stops with a token. -/
theorem exists_run_of_mem
    (hRuns : List.Forall₂ SpansRun xs tss)
    (hMember : x ∈ xs) :
    ∃ ts ∈ tss, x.SpansRun ts := by
  induction hRuns with
  | nil => cases hMember
  | cons hFirst _ ih =>
      rcases List.mem_cons.1 hMember with rfl | hMember
      · exact ⟨_, List.mem_cons_self, hFirst⟩
      · rcases ih hMember with ⟨ts, hRun, hSpans⟩
        exact ⟨ts, List.mem_cons_of_mem _ hRun, hSpans⟩

/- Each token is in one of the ranges of the runs. -/
theorem exists_within_of_mem
    (hRuns : List.Forall₂ SpansRun xs tss)
    (hOrder : tss.flatten.Pairwise Token.StopsBefore)
    (hForward :
      ∀ t ∈ tss.flatten,
        t.span.start.offset < t.span.stop.offset)
    {t : Token}
    (hMember : t ∈ tss.flatten) :
    ∃ x ∈ xs, t.span.Within x := by
  induction hRuns with
  | nil => cases hMember
  | @cons x ts xs tss hFirst _ ih =>
      rw [List.flatten_cons] at hOrder hForward hMember
      rcases List.pairwise_append.1 hOrder with
        ⟨hHead, hTail, -⟩
      rcases List.forall_mem_append.1 hForward with
        ⟨hNear, hFar⟩
      rcases List.mem_append.1 hMember with hMember | hMember
      · exact ⟨x, List.mem_cons_self,
          hFirst.within hHead hNear hMember⟩
      · rcases ih hTail hFar hMember with ⟨y, hThere, hWithin⟩
        exact ⟨y, List.mem_cons_of_mem _ hThere, hWithin⟩

/- In ranges one behind the other a token lies only once. -/
theorem eq_of_within
    (hPairwise : xs.Pairwise Precedes)
    {t : Token}
    (hForward : t.span.start.offset < t.span.stop.offset)
    {i j : Fin xs.length}
    (hFirst : t.span.Within xs[i])
    (hSecond : t.span.Within xs[j]) :
    i = j := by
  have hNever
      {i j : Fin xs.length}
      (hFirst : t.span.Within xs[i])
      (hSecond : t.span.Within xs[j]) :
      ¬ i < j := by
    intro hLess
    have hBefore : xs[i].Precedes xs[j] :=
      List.pairwise_iff_getElem.1 hPairwise i j i.isLt j.isLt
        hLess
    unfold Precedes at hBefore
    have hStop := hFirst.2
    have hStart := hSecond.1
    omega
  rcases Nat.lt_trichotomy i j with hLess | hSame | hLess
  · exact absurd hLess (hNever hFirst hSecond)
  · exact Fin.ext hSame
  · exact absurd hLess (hNever hSecond hFirst)

/- The ranges of runs in order cover the tokens. -/
theorem cover_of_spansRun
    (hRuns : List.Forall₂ SpansRun xs tss)
    (hPairwise : xs.Pairwise Precedes)
    (hOrder : tss.flatten.Pairwise Token.StopsBefore)
    (hForward :
      ∀ t ∈ tss.flatten,
        t.span.start.offset < t.span.stop.offset) :
    Cover xs tss.flatten where
  pairwise := hPairwise
  existsUnique := by
    intro t hMember
    rcases exists_within_of_mem hRuns hOrder hForward hMember
      with ⟨x, hThere, hWithin⟩
    rcases List.mem_iff_getElem.1 hThere with ⟨i, hLess, rfl⟩
    refine ⟨⟨i, hLess⟩, hWithin, fun j hOther => ?_⟩
    exact eq_of_within hPairwise (hForward t hMember) hOther
      hWithin
  starts := by
    intro x hMember
    rcases exists_run_of_mem hRuns hMember with
      ⟨ts, hThere, hRun⟩
    rcases hRun.start_mem with ⟨t, hFirst, hStart⟩
    exact ⟨t, List.mem_flatten.2 ⟨ts, hThere, hFirst⟩, hStart⟩
  stops := by
    intro x hMember
    rcases exists_run_of_mem hRuns hMember with
      ⟨ts, hThere, hRun⟩
    rcases hRun.stop_mem with ⟨t, hLast, hStop⟩
    exact ⟨t, List.mem_flatten.2 ⟨ts, hThere, hLast⟩, hStop⟩

end Runs

end Span

end SourceCheck
