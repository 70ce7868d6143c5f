import SourceCheck.Proofs.Parsing.Comparison

/-
  Quiet runs.

  A run is quiet if it succeeds and reports nothing.  What
  the quiet runs of a parser do is stated by a relation of
  the state before, the result and the state behind; along
  other runs it only matters that tokens are never given
  back, that scopes are closed again and that reports are
  never taken back, so that a part of a quiet run is quiet.

  Key definitions include:
    * `ParserState.Ready`
    * `ParserState.Kept`
    * `Parser.Obeys`
    * `Parser.Repeats`
    * `Parser.Collects`
-/

namespace SourceCheck

------------------------------------------------------------
-- States along runs
------------------------------------------------------------

namespace ParserState

/-
  The end of the text is ahead, and the given scopes are
  open.
-/
structure Ready
    (scopes : List ScopeId)
    (s : ParserState) :
    Prop where
  ends :
    ∃ front last,
      s.stream.ahead = front ++ [last] ∧ last.kind = .eof
  scopes_eq : s.scopes = scopes

variable {scopes : List ScopeId}
variable {s t u : ParserState}

theorem Ready.ahead_ne (hReady : Ready scopes s) :
    s.stream.ahead ≠ [] := by
  rcases hReady.ends with ⟨front, last, hAhead, -⟩
  rw [hAhead]
  exact List.concat_ne_nil _ _

/- A token is left, be it the end of the text. -/
theorem Ready.left_pos (hReady : Ready scopes s) :
    0 < s.left :=
  List.length_pos_of_ne_nil hReady.ahead_ne

theorem Ready.next
    (hReady : Ready scopes s)
    (hMore : s.token.kind ≠ .eof) :
    Ready scopes s.next := by
  refine ⟨?_, hReady.scopes_eq⟩
  rcases hReady.ends with ⟨front, last, hAhead, hLast⟩
  cases front with
  | nil =>
      have hToken : s.token = last := by
        unfold token TokenStream.current
        rw [hAhead]
        rfl
      rw [hToken] at hMore
      exact absurd hLast hMore
  | cons a front =>
      refine ⟨front, last, ?_, hLast⟩
      unfold ParserState.next
      rw [TokenStream.ahead_consume, hAhead]
      rfl

theorem Ready.opened (hReady : Ready scopes s) :
    Ready (s.newScope :: scopes) s.opened := by
  refine ⟨hReady.ends, ?_⟩
  unfold ParserState.opened
  rw [hReady.scopes_eq]

/-
  What every run keeps: the text, which is only passed, the
  open scopes, and what was reported.
-/
structure Kept
    (scopes : List ScopeId)
    (s t : ParserState) :
    Prop where
  ready : Ready scopes t
  tokens_eq : t.stream.tokens = s.stream.tokens
  left_le : t.left ≤ s.left
  reports_le : s.reports ≤ t.reports

theorem Kept.refl (hReady : Ready scopes s) :
    Kept scopes s s :=
  ⟨hReady, rfl, Nat.le_refl _, Nat.le_refl _⟩

theorem Kept.trans
    (hFirst : Kept scopes s t)
    (hSecond : Kept scopes t u) :
    Kept scopes s u :=
  ⟨hSecond.ready,
    hSecond.tokens_eq.trans hFirst.tokens_eq,
    Nat.le_trans hSecond.left_le hFirst.left_le,
    Nat.le_trans hFirst.reports_le hSecond.reports_le⟩

theorem Kept.next
    (hReady : Ready scopes s)
    (hMore : s.token.kind ≠ .eof) :
    Kept scopes s s.next :=
  ⟨hReady.next hMore, TokenStream.tokens_consume _,
    left_next_le s, Nat.le_refl _⟩

theorem Kept.reported
    (hReady : Ready scopes s)
    (d : Diagnostic) :
    Kept scopes s (s.reported d) :=
  ⟨⟨hReady.ends, hReady.scopes_eq⟩, rfl, Nat.le_refl _,
    by rw [reports_reported]; exact Nat.le_succ _⟩

theorem Kept.closed
    {scope : ScopeId}
    (hKept : Kept (scope :: scopes) s.opened t) :
    Kept scopes s t.closed := by
  refine ⟨⟨hKept.ready.ends, ?_⟩, hKept.tokens_eq,
    hKept.left_le, hKept.reports_le⟩
  unfold ParserState.closed
  rw [hKept.ready.scopes_eq]
  rfl

theorem Kept.declared
    {scope : ScopeId}
    (hReady : Ready scopes s)
    (d : Definition)
    (p : Position) :
    Kept scopes s (s.declared scope d p) := by
  unfold ParserState.declared
  split
  · exact ⟨⟨hReady.ends, hReady.scopes_eq⟩, rfl,
      Nat.le_refl _,
      by rw [reports_reported]; exact Nat.le_succ _⟩
  · exact ⟨⟨hReady.ends, hReady.scopes_eq⟩, rfl,
      Nat.le_refl _, Nat.le_refl _⟩

/- Nothing is lost on the way to a checkpoint. -/
theorem Kept.skipTo
    (stop : TokenStream → Bool)
    {s : ParserState}
    (hReady : Ready scopes s) :
    Kept scopes s
      { s with stream := s.stream.skipTo stop } := by
  rw [TokenStream.skipTo]
  split
  · rename_i hGo
    have hMore : s.token.kind ≠ .eof := by
      simp only [Bool.and_eq_true] at hGo
      exact of_decide_eq_true hGo.1
    have hShorter := left_next hMore
    exact (Kept.next hReady hMore).trans
      (Kept.skipTo stop (hReady.next hMore))
  · exact .refl hReady
termination_by s.left

/-
  A cursor that passed as many tokens as before stands where
  it stood.
-/
theorem Kept.token_eq
    (hKept : Kept scopes s t)
    (hSame : t.stream.index = s.stream.index) :
    t.token = s.token := by
  have hTokens := hKept.tokens_eq
  unfold TokenStream.tokens at hTokens
  have hAhead : t.stream.ahead = s.stream.ahead := by
    apply List.append_inj_right hTokens
    simpa [TokenStream.index] using hSame
  unfold token TokenStream.current
  cases hCons : t.stream.ahead with
  | nil => exact absurd hCons hKept.ready.ahead_ne
  | cons a as =>
      rw [← hAhead, hCons]
      rfl

/-
  A failure leaves the text in order where the run started
  before its end.
-/
theorem Kept.resumed
    (hKept : Kept scopes s t)
    (hMore : s.token.kind ≠ .eof)
    (stop : TokenStream → Bool)
    (d : Diagnostic) :
    Kept scopes s (s.resumed stop t d) := by
  have hReported :=
    hKept.trans (Kept.reported hKept.ready d)
  unfold ParserState.resumed
  dsimp only
  by_cases hSame : t.stream.index = s.stream.index
  · have hToken : (t.reported d).token.kind ≠ .eof := by
      change t.token.kind ≠ .eof
      rw [hKept.token_eq hSame]
      exact hMore
    have hNext := Kept.next hReported.ready hToken
    rw [if_pos hSame]
    exact (hReported.trans hNext).trans
      (.skipTo stop hNext.ready)
  · rw [if_neg hSame]
    exact hReported.trans (.skipTo stop hReported.ready)

/- A failure that is recovered from is reported. -/
theorem reports_resumed
    (stop : TokenStream → Bool)
    (s t : ParserState)
    (d : Diagnostic) :
    (s.resumed stop t d).reports = t.reports + 1 := by
  unfold resumed reports
  dsimp only
  split
  · exact reports_reported t d
  · exact reports_reported t d

end ParserState

------------------------------------------------------------
-- What quiet runs do
------------------------------------------------------------

namespace Parser

open ParserState

variable {n : Nat}
variable {scopes : List ScopeId}
variable {α β : Type}

/-
  A run keeps what every run keeps, and its result and the
  state behind it are as stated if it is quiet.
-/
inductive Obeyed
    (scopes : List ScopeId)
    (s : ParserState)
    (P : α → ParserState → Prop) :
    Except Diagnostic α × ParserState → Prop where
  | ok {a t}
      (hKept : Kept scopes s t)
      (hQuiet : t.reports ≤ s.reports → P a t) :
      Obeyed scopes s P (.ok a, t)
  | error {d t}
      (hKept : Kept scopes s t) :
      Obeyed scopes s P (.error d, t)

/-
  The runs of a parser do what is stated where not too many
  tokens are left.
-/
def Obeys
    (n : Nat)
    (scopes : List ScopeId)
    (P : ParserState → α → ParserState → Prop)
    (p : Parser α) :
    Prop :=
  ∀ s,
    Ready scopes s →
      2 * s.left < n → Obeyed scopes s (P s) (p.outcome s)

variable {P P' : ParserState → α → ParserState → Prop}

theorem Obeyed.imp
    {s : ParserState}
    {P P' : α → ParserState → Prop}
    {x : Except Diagnostic α × ParserState}
    (hRun : Obeyed scopes s P x)
    (hImp : ∀ {a t}, P a t → P' a t) :
    Obeyed scopes s P' x := by
  cases hRun with
  | ok hKept hQuiet =>
      exact .ok hKept fun hNone => hImp (hQuiet hNone)
  | error hKept => exact .error hKept

theorem Obeys.imp
    {p : Parser α}
    (hRuns : Obeys n scopes P p)
    (hImp : ∀ {s a t}, P s a t → P' s a t) :
    Obeys n scopes P' p :=
  fun s hReady hFew => (hRuns s hReady hFew).imp hImp

/- Fewer tokens may be left. -/
theorem Obeys.fewer
    {m : Nat}
    {p : Parser α}
    (hRuns : Obeys n scopes P p)
    (hLess : m ≤ n) :
    Obeys m scopes P p :=
  fun s hReady hFew =>
    hRuns s hReady (Nat.lt_of_lt_of_le hFew hLess)

/- A run from a later state is a part of a longer run. -/
theorem Obeyed.after
    {s t : ParserState}
    {Q : β → ParserState → Prop}
    {x : Except Diagnostic β × ParserState}
    (hKept : Kept scopes s t)
    (hRun : Obeyed scopes t Q x) :
    Obeyed scopes s
      (fun b u => t.reports ≤ s.reports ∧ Q b u) x := by
  cases hRun with
  | ok hRest hQuiet =>
      refine .ok (hKept.trans hRest) fun hNone => ?_
      have hFirst := hKept.reports_le
      have hSecond := hRest.reports_le
      exact ⟨by omega, hQuiet (by omega)⟩
  | error hRest => exact .error (hKept.trans hRest)

theorem Obeyed.bind
    {s : ParserState}
    {P : α → ParserState → Prop}
    {Q : α → ParserState → β → ParserState → Prop}
    {p : Parser α}
    {f : α → Parser β}
    (hFirst : Obeyed scopes s P (p.outcome s))
    (hFew : 2 * s.left < n)
    (hRest : ∀ a, Obeys n scopes (Q a) (f a)) :
    Obeyed scopes s
      (fun b u => ∃ a t, P a t ∧ Q a t b u)
      ((p >>= f).outcome s) := by
  rw [outcome_bind]
  generalize p.outcome s = x at hFirst
  cases hFirst with
  | @ok a t hKept hQuiet =>
      have hLeft := hKept.left_le
      have hRun := hRest a t hKept.ready (by omega)
      refine (hRun.after hKept).imp fun hBoth => ?_
      exact ⟨a, t, hQuiet hBoth.1, hBoth.2⟩
  | error hKept => exact .error hKept

theorem Obeys.bind
    {Q : α → ParserState → β → ParserState → Prop}
    {p : Parser α}
    {f : α → Parser β}
    (hFirst : Obeys n scopes P p)
    (hRest : ∀ a, Obeys n scopes (Q a) (f a)) :
    Obeys n scopes
      (fun s b u => ∃ a t, P s a t ∧ Q a t b u)
      (p >>= f) :=
  fun s hReady hFew =>
    (hFirst s hReady hFew).bind hFew hRest

theorem obeys_pure (a : α) :
    Obeys n scopes (fun s b t => b = a ∧ t = s)
      (pure a) :=
  fun _ hReady _ => .ok (.refl hReady) fun _ => ⟨rfl, rfl⟩

/- A parser that always fails has no quiet runs. -/
theorem obeys_fail
    (problem : Problem)
    (p : Position) :
    Obeys n scopes (fun _ (_ : α) _ => False)
      (fail problem p) :=
  fun _ hReady _ => .error (.refl hReady)

theorem obeys_ite
    {c : Prop}
    [Decidable c]
    {p q : Parser α}
    (hThen : Obeys n scopes P p)
    (hElse : Obeys n scopes P' q) :
    Obeys n scopes
      (fun s a t => c ∧ P s a t ∨ ¬ c ∧ P' s a t)
      (if c then p else q) := by
  intro s hReady hFew
  by_cases hCondition : c
  · rw [if_pos hCondition]
    exact (hThen s hReady hFew).imp
      fun hRun => .inl ⟨hCondition, hRun⟩
  · rw [if_neg hCondition]
    exact (hElse s hReady hFew).imp
      fun hRun => .inr ⟨hCondition, hRun⟩

------------------------------------------------------------
-- Tokens
------------------------------------------------------------

theorem obeys_look (f : TokenStream → α) :
    Obeys n scopes (fun s a t => a = f s.stream ∧ t = s)
      (look f) :=
  fun _ hReady _ => .ok (.refl hReady) fun _ => ⟨rfl, rfl⟩

theorem obeys_current :
    Obeys n scopes (fun s a t => a = s.token ∧ t = s)
      current :=
  obeys_look _

theorem obeys_check (kind : TokenKind) :
    Obeys n scopes
      (fun s b t => b = decide (s.token.kind = kind) ∧ t = s)
      (check kind) :=
  fun _ hReady _ => .ok (.refl hReady) fun _ => ⟨rfl, rfl⟩

theorem obeys_checkName :
    Obeys n scopes
      (fun s b t => b = s.token.kind.isName ∧ t = s)
      checkName :=
  fun _ hReady _ => .ok (.refl hReady) fun _ => ⟨rfl, rfl⟩

/- A token that does not end the text may be taken. -/
theorem obeyed_consume
    {s : ParserState}
    (hReady : Ready scopes s)
    (hMore : s.token.kind ≠ .eof) :
    Obeyed scopes s (fun a t => a = s.token ∧ t = s.next)
      (consume.outcome s) :=
  .ok (.next hReady hMore) fun _ => ⟨rfl, rfl⟩

theorem obeys_accept
    {kind : TokenKind}
    (hKind : kind ≠ .eof) :
    Obeys n scopes
      (fun s b t =>
        b = true ∧ s.token.kind = kind ∧ t = s.next ∨
          b = false ∧ s.token.kind ≠ kind ∧ t = s)
      (accept kind) := by
  intro s hReady _
  rw [outcome_accept]
  split
  · rename_i hIs
    exact .ok (.next hReady (hIs ▸ hKind))
      fun _ => .inl ⟨rfl, hIs, rfl⟩
  · rename_i hIs
    exact .ok (.refl hReady) fun _ => .inr ⟨rfl, hIs, rfl⟩

theorem obeys_unexpected (expected : String) :
    Obeys n scopes (fun _ (_ : α) _ => False)
      (unexpected expected) :=
  fun _ hReady _ => .error (.refl hReady)

theorem obeys_expect
    {kind : TokenKind}
    (hKind : kind ≠ .eof)
    (expected : String) :
    Obeys n scopes
      (fun s a t =>
        s.token.kind = kind ∧ a = s.token ∧ t = s.next)
      (expect kind expected) := by
  intro s hReady hFew
  unfold expect
  rw [outcome_bind, outcome_check]
  by_cases hIs : s.token.kind = kind
  · rw [decide_eq_true hIs]
    exact (obeyed_consume hReady (hIs ▸ hKind)).imp
      fun hRun => ⟨hIs, hRun⟩
  · rw [decide_eq_false hIs]
    exact .error (.refl hReady)

theorem obeys_expectName :
    Obeys n scopes
      (fun s a t =>
        s.token.kind.isName ∧ a = s.token ∧ t = s.next)
      expectName := by
  intro s hReady hFew
  unfold expectName
  rw [outcome_bind, outcome_checkName]
  by_cases hIs : s.token.kind.isName
  · rw [hIs]
    exact (obeyed_consume hReady (ne_eof_of_isName hIs)).imp
      fun hRun => ⟨hIs, hRun⟩
  · rw [eq_false_of_ne_true hIs]
    exact .error (.refl hReady)

/- The token is taken, if it is there. -/
theorem obeys_ifAccept
    {kind : TokenKind}
    (hKind : kind ≠ .eof)
    {p q : Parser α}
    (hThen : Obeys n scopes P p)
    (hElse : Obeys n scopes P' q) :
    Obeys n scopes
      (fun s a t =>
        s.token.kind = kind ∧ P s.next a t ∨
          s.token.kind ≠ kind ∧ P' s a t)
      (do if ← accept kind then p else q) := by
  refine ((obeys_accept hKind).bind fun isThere =>
    obeys_ite hThen hElse).imp ?_
  rintro s a u ⟨isThere, t, hToken, hRest⟩
  rcases hToken with ⟨rfl, hIs, rfl⟩ | ⟨rfl, hIs, rfl⟩
  · rcases hRest with ⟨-, hRun⟩ | ⟨hFalse, -⟩
    · exact .inl ⟨hIs, hRun⟩
    · exact absurd rfl hFalse
  · rcases hRest with ⟨hTrue, -⟩ | ⟨-, hRun⟩
    · cases hTrue
    · exact .inr ⟨hIs, hRun⟩

/- The next token decides, and stays where it is. -/
theorem obeys_ifCheck
    (kind : TokenKind)
    {p q : Parser α}
    (hThen : Obeys n scopes P p)
    (hElse : Obeys n scopes P' q) :
    Obeys n scopes
      (fun s a t =>
        s.token.kind = kind ∧ P s a t ∨
          s.token.kind ≠ kind ∧ P' s a t)
      (do if ← check kind then p else q) := by
  refine ((obeys_check kind).bind fun isThere =>
    obeys_ite hThen hElse).imp ?_
  rintro s a u ⟨isThere, t, ⟨rfl, rfl⟩, hRest⟩
  simpa only [decide_eq_true_eq] using hRest

/- The token is taken and passed on, if it is there. -/
theorem obeys_ifConsume
    {kind : TokenKind}
    (hKind : kind ≠ .eof)
    {P : Token → ParserState → α → ParserState → Prop}
    {f : Token → Parser α}
    {q : Parser α}
    (hThen : ∀ token, Obeys (n - 1) scopes (P token) (f token))
    (hElse : Obeys n scopes P' q) :
    Obeys n scopes
      (fun s a t =>
        s.token.kind = kind ∧ P s.token s.next a t ∨
          s.token.kind ≠ kind ∧ P' s a t)
      (do if ← check kind then f (← consume) else q) := by
  intro s hReady hFew
  rw [outcome_bind, outcome_check]
  by_cases hIs : s.token.kind = kind
  · have hMore : s.token.kind ≠ .eof := hIs ▸ hKind
    have hPassed := left_next hMore
    have hRun :=
      hThen s.token s.next (hReady.next hMore) (by omega)
    rw [decide_eq_true hIs]
    exact (hRun.after (.next hReady hMore)).imp
      fun hBoth => .inl ⟨hIs, hBoth.2⟩
  · rw [decide_eq_false hIs]
    exact (hElse s hReady hFew).imp
      fun hRun => .inr ⟨hIs, hRun⟩

------------------------------------------------------------
-- Scopes and definitions
------------------------------------------------------------

/- A quiet declaration binds a new name. -/
theorem obeys_declare
    {scope : ScopeId}
    (name : Token)
    (kind : DefinitionKind)
    (span : Span)
    (visibleFrom : Nat)
    (isMutable : Bool) :
    Obeys n (scope :: scopes)
      (fun s id t =>
        s.Declares
          ⟨name.name, kind, span, visibleFrom, isMutable,
            none⟩
          id t)
      (declare name kind span visibleFrom isMutable) := by
  intro s hReady _
  rw [outcome_declare, hReady.scopes_eq]
  refine .ok (.declared hReady _ _) fun hNone => ?_
  refine ⟨rfl, scope, by rw [hReady.scopes_eq]; rfl, ?_⟩
  unfold ParserState.declared at hNone ⊢
  split at hNone
  · rw [reports_reported, reports_withSymbols] at hNone
    omega
  · rename_i hLocal
    exact ⟨eq_false_of_ne_true hLocal,
      by rw [if_neg hLocal]⟩

theorem obeys_inNewScope
    {Q : ScopeId → ParserState → α → ParserState → Prop}
    {body : ScopeId → Parser α}
    (hBody :
      ∀ scope,
        Obeys n (scope :: scopes) (Q scope) (body scope)) :
    Obeys n scopes
      (fun s a t =>
        ∃ u, Q s.newScope s.opened a u ∧ t = u.closed)
      (inNewScope body) := by
  intro s hReady hFew
  rw [outcome_inNewScope]
  have hRun := hBody s.newScope _ hReady.opened hFew
  generalize (body s.newScope).outcome s.opened = x at hRun
  cases hRun with
  | ok hKept hQuiet =>
      exact .ok hKept.closed
        fun hNone => ⟨_, hQuiet hNone, rfl⟩
  | error hKept => exact .error hKept.closed

/-
  A failure that is recovered from is reported, so that a
  quiet run is one of the parser itself.
-/
theorem obeyed_recovering
    {s : ParserState}
    {P : α → ParserState → Prop}
    {p : Parser α}
    (stop : TokenStream → Bool)
    (hRun : Obeyed scopes s P (p.outcome s))
    (hMore : s.token.kind ≠ .eof) :
    Obeyed scopes s (fun r t => ∃ a, r = some a ∧ P a t)
      ((recovering stop p).outcome s) := by
  rw [outcome_recovering]
  generalize p.outcome s = x at hRun
  cases hRun with
  | ok hKept hQuiet =>
      exact .ok hKept fun hNone => ⟨_, rfl, hQuiet hNone⟩
  | @error d t hKept =>
      refine .ok (hKept.resumed hMore stop d)
        fun hNone => ?_
      have hFirst := hKept.reports_le
      rw [reports_resumed] at hNone
      omega

------------------------------------------------------------
-- Repetition
------------------------------------------------------------

/- Repeated steps, up to one that gives nothing. -/
inductive Repeats
    (P : α → ParserState → Option α → ParserState → Prop) :
    α → ParserState → α → ParserState → Prop where
  | stop {a s t}
      (hStop : P a s none t) :
      Repeats P a s a t
  | more {a b c s t u}
      (hStep : P a s (some b) t)
      (hMore : Repeats P b t c u) :
      Repeats P a s c u

/- What repeated steps give, up to one that gives nothing. -/
inductive Collects
    (P : ParserState → Option α → ParserState → Prop) :
    ParserState → List α → ParserState → Prop where
  | stop {s t}
      (hStop : P s none t) :
      Collects P s [] t
  | more {a as s t u}
      (hStep : P s (some a) t)
      (hMore : Collects P t as u) :
      Collects P s (a :: as) u

theorem obeyed_loopWithin
    {P : α → ParserState → Option α → ParserState → Prop}
    {step : α → Parser (Option α)}
    (hSteps : ∀ a, Obeys n scopes (P a) (step a))
    (hPasses :
      ∀ {a b s t}, P a s (some b) t → t.left < s.left) :
    ∀ (budget : List Token) (a : α) (s : ParserState),
      Ready scopes s →
        2 * s.left < n →
          Obeyed scopes s
            (fun b t =>
              s.left ≤ budget.length → Repeats P a s b t)
            ((loopWithin step budget a).outcome s)
  | [], a, s, hReady, hFew => by
      unfold loopWithin
      refine ((hSteps a s hReady hFew).bind hFew
        fun _ => obeys_pure _).imp fun _ hBudget => ?_
      have hPos := hReady.left_pos
      rw [List.length_nil] at hBudget
      omega
  | _ :: budget, a, s, hReady, hFew => by
      unfold loopWithin
      rw [outcome_bind]
      have hStep := hSteps a s hReady hFew
      generalize (step a).outcome s = x at hStep
      cases hStep with
      | error hKept => exact .error hKept
      | @ok r t hKept hQuiet =>
          have hLeft := hKept.left_le
          cases r with
          | none =>
              exact .ok hKept
                fun hNone _ => .stop (hQuiet hNone)
          | some b =>
              have hRest :=
                obeyed_loopWithin hSteps hPasses budget b t
                  hKept.ready (by omega)
              refine (hRest.after hKept).imp
                fun hBoth hBudget => ?_
              have hFirst := hQuiet hBoth.1
              have hShorter := hPasses hFirst
              rw [List.length_cons] at hBudget
              exact .more hFirst (hBoth.2 (by omega))

theorem obeys_loop
    {P : α → ParserState → Option α → ParserState → Prop}
    {step : α → Parser (Option α)}
    (hSteps : ∀ a, Obeys n scopes (P a) (step a))
    (hPasses :
      ∀ {a b s t}, P a s (some b) t → t.left < s.left)
    (a : α) :
    Obeys n scopes (fun s b t => Repeats P a s b t)
      (loop step a) := by
  intro s hReady hFew
  exact (obeyed_loopWithin hSteps hPasses _ a s hReady
    hFew).imp fun hRun => hRun (Nat.le_refl _)

theorem obeyed_collectWithin
    {P : ParserState → Option α → ParserState → Prop}
    {step : Parser (Option α)}
    (hSteps : Obeys n scopes P step)
    (hPasses :
      ∀ {a s t}, P s (some a) t → t.left < s.left) :
    ∀ (budget : List Token) (s : ParserState),
      Ready scopes s →
        2 * s.left < n →
          Obeyed scopes s
            (fun as t =>
              s.left ≤ budget.length → Collects P s as t)
            ((collectWithin step budget).outcome s)
  | [], s, hReady, hFew => by
      unfold collectWithin
      refine ((hSteps s hReady hFew).bind hFew
        fun _ => obeys_pure _).imp fun _ hBudget => ?_
      have hPos := hReady.left_pos
      rw [List.length_nil] at hBudget
      omega
  | _ :: budget, s, hReady, hFew => by
      unfold collectWithin
      rw [outcome_bind]
      have hStep := hSteps s hReady hFew
      generalize step.outcome s = x at hStep
      cases hStep with
      | error hKept => exact .error hKept
      | @ok r t hKept hQuiet =>
          have hLeft := hKept.left_le
          cases r with
          | none =>
              exact .ok hKept
                fun hNone _ => .stop (hQuiet hNone)
          | some a =>
              have hFewer : 2 * t.left < n := by omega
              have hRest :=
                (obeyed_collectWithin hSteps hPasses budget t
                  hKept.ready hFewer).bind
                    hFewer fun as => obeys_pure (a :: as)
              refine (hRest.after hKept).imp ?_
              rintro _ _ ⟨hNone, as, u, hOthers, rfl, rfl⟩
                hBudget
              have hFirst := hQuiet hNone
              have hShorter := hPasses hFirst
              rw [List.length_cons] at hBudget
              exact .more hFirst (hOthers (by omega))

theorem obeys_collect
    {P : ParserState → Option α → ParserState → Prop}
    {step : Parser (Option α)}
    (hSteps : Obeys n scopes P step)
    (hPasses :
      ∀ {a s t}, P s (some a) t → t.left < s.left) :
    Obeys n scopes (Collects P) (collect step) := by
  intro s hReady hFew
  exact (obeyed_collectWithin hSteps hPasses _ s hReady
    hFew).imp fun hRun => hRun (Nat.le_refl _)

end Parser

end SourceCheck
