import SourceCheck.Proofs.Parsing.Quiet

/-
  Relations of parsers.

  A `ParserRelation` says something of two parsers at a
  state, and each way to put parsers together keeps it.  So
  it holds of the whole grammar, once it does of the parsers
  that the grammar is put together from.  Along the way each
  run keeps what every run keeps, and steps of loops that
  give something pass a token.

  Key definitions include:
    * `ParserRelation`
    * `ParserRelation.Always`
    * `ParserRelation.Tied`
    * `ParserRelation.TiedPast`
    * `ParserRelation.TiedStep`
-/

namespace SourceCheck

open SourceCheck.Parser
open SourceCheck.ParserState

------------------------------------------------------------
-- Recovery passes a token
------------------------------------------------------------

/- A cursor on the way to a checkpoint never goes back. -/
theorem length_ahead_skipTo
    (stop : TokenStream → Bool)
    (s : TokenStream) :
    (s.skipTo stop).ahead.length ≤ s.ahead.length := by
  fun_induction TokenStream.skipTo stop s with
  | case1 s hGo ih =>
      rw [Bool.and_eq_true] at hGo
      have hShorter :=
        TokenStream.length_ahead_consume hGo.1
      omega
  | case2 s hStop => exact Nat.le_refl _

/-
  A run that failed goes on behind the token at which it
  started.
-/
theorem left_resumed_lt
    {scopes : List ScopeId}
    {s t : ParserState}
    (hKept : Kept scopes s t)
    (hMore : s.token.kind ≠ .eof)
    (stop : TokenStream → Bool)
    (d : Diagnostic) :
    (s.resumed stop t d).left < s.left := by
  have hSkip := length_ahead_skipTo stop
  unfold resumed
  dsimp only
  split
  · rename_i hSame
    have hToken : (t.reported d).token = s.token :=
      hKept.token_eq hSame
    have hPassed :=
      left_next (s := t.reported d) (by rwa [hToken])
    exact Nat.lt_of_le_of_lt (hSkip _)
      (Nat.lt_of_lt_of_le hPassed hKept.left_le)
  · rename_i hOther
    have hLengths := congrArg List.length hKept.tokens_eq
    unfold TokenStream.tokens at hLengths
    rw [List.length_append, List.length_append,
      List.length_reverse, List.length_reverse] at hLengths
    have hLeft : t.left < s.left := by
      have hLess := hKept.left_le
      unfold TokenStream.index at hOther
      unfold left at hLess ⊢
      omega
    exact Nat.lt_of_le_of_lt (hSkip _) hLeft

------------------------------------------------------------
-- Relations
------------------------------------------------------------

/-
  What is said of two parsers at a state, and how it follows
  for a parser from its parts.
-/
structure ParserRelation where
  holds :
    {α : Type} → ParserState → Parser α → Parser α → Prop
  ofPure :
    ∀ {α : Type} (a : α) {s}, holds s (pure a) (pure a)
  ofThrow :
    ∀ {α : Type} (d : Diagnostic) {s},
      @holds α s (throw d) (throw d)
  ofBind :
    ∀ {α β : Type} {s} {p q : Parser α} {f g : α → Parser β},
      holds s p q →
        (∀ {a t},
          p.outcome s = (.ok a, t) → holds t (f a) (g a)) →
          holds s (p >>= f) (q >>= g)
  ofLook :
    ∀ {α : Type} (f : TokenStream → α) {s},
      holds s (look f) (look f)
  ofMove :
    ∀ (f : TokenStream → TokenStream) {s},
      (∃ moves, f s.stream = s.stream.moved moves) →
        holds s (move f) (move f)
  ofDeclare :
    ∀ (name : Token) (kind : DefinitionKind) (span : Span)
      (visibleFrom : Nat) (isMutable : Bool) {s scope},
      s.scopes.head? = some scope →
        holds s
          (declare name kind span visibleFrom isMutable)
          (declare name kind span visibleFrom isMutable)
  ofNewScope :
    ∀ {α : Type} {s} {body body' : ScopeId → Parser α},
      holds s.opened (body s.newScope)
          (body' s.newScope) →
        holds s (inNewScope body) (inNewScope body')
  ofRecovering :
    ∀ {α : Type} {s} {p q : Parser α}
      (stop : TokenStream → Bool),
      holds s p q →
        holds s (recovering stop p) (recovering stop q)

namespace ParserRelation

variable {L : ParserRelation}
variable {n : Nat}
variable {scopes : List ScopeId}
variable {α β : Type}

------------------------------------------------------------
-- Parsers that are related to themselves
------------------------------------------------------------

/- At all states the parser is related to itself. -/
def Always (L : ParserRelation) (p : Parser α) : Prop :=
  ∀ s, L.holds s p p

theorem always_pure (a : α) : L.Always (pure a) :=
  fun _ => L.ofPure a

theorem always_fail (problem : Problem) (p : Position) :
    L.Always (fail problem p : Parser α) :=
  fun _ => L.ofThrow ⟨problem, p⟩

theorem Always.bind
    {p : Parser α}
    {f : α → Parser β}
    (hFirst : L.Always p)
    (hRest : ∀ a, L.Always (f a)) :
    L.Always (p >>= f) :=
  fun s => L.ofBind (hFirst s) fun _ => hRest _ _

theorem always_ite
    {c : Prop}
    [Decidable c]
    {p q : Parser α}
    (hThen : L.Always p)
    (hElse : L.Always q) :
    L.Always (if c then p else q) := by
  split
  · exact hThen
  · exact hElse

theorem always_look (f : TokenStream → α) :
    L.Always (look f) :=
  fun _ => L.ofLook f

theorem always_checkName : L.Always checkName :=
  always_look (·.checkAny TokenKind.names)

theorem always_consume : L.Always consume :=
  (always_look _).bind fun token =>
    Always.bind
      (fun _ => L.ofMove _ ⟨[.consume], rfl⟩) fun _ =>
      always_pure token

theorem always_unconsume : L.Always unconsume :=
  fun _ => L.ofMove _ ⟨[.unconsume], rfl⟩

theorem always_accept (kind : TokenKind) :
    L.Always (accept kind) :=
  (always_look _).bind fun _ =>
    always_ite (always_consume.bind fun _ => always_pure true)
      (always_pure false)

theorem always_unexpected (expected : String) :
    L.Always (unexpected expected : Parser α) :=
  (always_look _).bind fun _ _ => L.ofThrow _

theorem always_expect
    (kind : TokenKind)
    (expected : String) :
    L.Always (expect kind expected) :=
  (always_look _).bind fun _ =>
    always_ite always_consume (always_unexpected _)

theorem always_expectName : L.Always expectName :=
  always_checkName.bind fun _ =>
    always_ite always_consume (always_unexpected _)

------------------------------------------------------------
-- Parsers that are related where few tokens are left
------------------------------------------------------------

/-
  Two parsers are related at a state, from which the first
  one keeps what every run keeps.
-/
structure Tied
    (L : ParserRelation)
    (scopes : List ScopeId)
    (s : ParserState)
    (p q : Parser α) :
    Prop where
  kept : Kept scopes s (p.outcome s).2
  holds : L.holds s p q

/- They are so wherever not too many tokens are left. -/
def Ties
    (L : ParserRelation)
    (n : Nat)
    (scopes : List ScopeId)
    (p q : Parser α) :
    Prop :=
  ∀ s,
    Ready scopes s →
      2 * s.left < n → L.Tied scopes s p q

/- Fewer tokens may be left. -/
theorem Ties.fewer
    {m : Nat}
    {p q : Parser α}
    (hTies : L.Ties n scopes p q)
    (hLess : m ≤ n) :
    L.Ties m scopes p q :=
  fun s hReady hFew =>
    hTies s hReady (Nat.lt_of_lt_of_le hFew hLess)

/- All runs that obey a relation keep what every run keeps. -/
theorem kept_of_obeyed
    {s : ParserState}
    {P : α → ParserState → Prop}
    {x : Except Diagnostic α × ParserState}
    (hRun : Obeyed scopes s P x) :
    Kept scopes s x.2 := by
  cases hRun with
  | ok hKept _ => exact hKept
  | error hKept => exact hKept

theorem Always.ties
    {P : ParserState → α → ParserState → Prop}
    {p : Parser α}
    (hAlways : L.Always p)
    (hRuns : Obeys n scopes P p) :
    L.Ties n scopes p p :=
  fun s hReady hFew =>
    ⟨kept_of_obeyed (hRuns s hReady hFew), hAlways s⟩

theorem Tied.bind
    {s : ParserState}
    {p q : Parser α}
    {f g : α → Parser β}
    (hFirst : L.Tied scopes s p q)
    (hFew : 2 * s.left < n)
    (hRest : ∀ a, L.Ties n scopes (f a) (g a)) :
    L.Tied scopes s (p >>= f) (q >>= g) := by
  have hThen {a : α} {t : ParserState}
      (hRun : p.outcome s = (.ok a, t)) :
      Kept scopes s t ∧ L.Tied scopes t (f a) (g a) := by
    have hKept := hFirst.kept
    rw [hRun] at hKept
    have hLeft : t.left ≤ s.left := hKept.left_le
    exact ⟨hKept, hRest a t hKept.ready (by omega)⟩
  refine ⟨?_, L.ofBind hFirst.holds
    fun hRun => (hThen hRun).2.holds⟩
  rw [outcome_bind]
  rcases hRun : p.outcome s with ⟨d | a, t⟩
  · have hKept := hFirst.kept
    rw [hRun] at hKept
    exact hKept
  · rcases hThen hRun with ⟨hKept, hTied⟩
    exact hKept.trans hTied.kept

theorem Ties.bind
    {p q : Parser α}
    {f g : α → Parser β}
    (hFirst : L.Ties n scopes p q)
    (hRest : ∀ a, L.Ties n scopes (f a) (g a)) :
    L.Ties n scopes (p >>= f) (q >>= g) :=
  fun s hReady hFew =>
    (hFirst s hReady hFew).bind hFew hRest

/- Moreover, if the first one succeeds it passes a token. -/
structure TiedPast
    (L : ParserRelation)
    (scopes : List ScopeId)
    (s : ParserState)
    (p q : Parser α) :
    Prop
    extends L.Tied scopes s p q where
  left_lt :
    ∀ {a t}, p.outcome s = (.ok a, t) → t.left < s.left

def TiesPast
    (L : ParserRelation)
    (n : Nat)
    (scopes : List ScopeId)
    (p q : Parser α) :
    Prop :=
  ∀ s,
    Ready scopes s →
      2 * s.left < n → L.TiedPast scopes s p q

theorem TiesPast.ties
    {p q : Parser α}
    (hTies : L.TiesPast n scopes p q) :
    L.Ties n scopes p q :=
  fun s hReady hFew => (hTies s hReady hFew).toTied

/- What comes behind a token that was passed is behind it. -/
theorem TiedPast.bind
    {s : ParserState}
    {p q : Parser α}
    {f g : α → Parser β}
    (hFirst : L.TiedPast scopes s p q)
    (hFew : 2 * s.left < n)
    (hRest : ∀ a, L.Ties n scopes (f a) (g a)) :
    L.TiedPast scopes s (p >>= f) (q >>= g) := by
  refine ⟨hFirst.toTied.bind hFew hRest, ?_⟩
  intro b u hRun
  rw [outcome_bind] at hRun
  rcases hOutcome : p.outcome s with ⟨d | a, t⟩
  · rw [hOutcome] at hRun
    cases hRun
  · have hKept := hFirst.kept
    have hPassed := hFirst.left_lt hOutcome
    rw [hOutcome] at hKept hRun
    have hLater :=
      (hRest a t hKept.ready (by omega)).kept.left_le
    change (f a).outcome t = _ at hRun
    rw [hRun] at hLater
    exact Nat.lt_of_le_of_lt hLater hPassed

theorem TiesPast.bind
    {p q : Parser α}
    {f g : α → Parser β}
    (hFirst : L.TiesPast n scopes p q)
    (hRest : ∀ a, L.Ties n scopes (f a) (g a)) :
    L.TiesPast n scopes (p >>= f) (q >>= g) :=
  fun s hReady hFew =>
    (hFirst s hReady hFew).bind hFew hRest

/-
  The first of two parsers passes a token if it gives
  something, as a step of a loop has to.
-/
structure TiedStep
    (L : ParserRelation)
    (scopes : List ScopeId)
    (s : ParserState)
    (p q : Parser (Option α)) :
    Prop
    extends L.Tied scopes s p q where
  left_lt :
    ∀ {a t},
      p.outcome s = (.ok (some a), t) → t.left < s.left

def TiesStep
    (L : ParserRelation)
    (n : Nat)
    (scopes : List ScopeId)
    (p q : Parser (Option α)) :
    Prop :=
  ∀ s,
    Ready scopes s →
      2 * s.left < n → L.TiedStep scopes s p q

theorem TiesStep.ties
    {p q : Parser (Option α)}
    (hTies : L.TiesStep n scopes p q) :
    L.Ties n scopes p q :=
  fun s hReady hFew => (hTies s hReady hFew).toTied

theorem TiedPast.step
    {s : ParserState}
    {p q : Parser (Option α)}
    (hTied : L.TiedPast scopes s p q) :
    L.TiedStep scopes s p q :=
  ⟨hTied.toTied, hTied.left_lt⟩

/- A step that gives nothing need not pass anything. -/
theorem tiedStep_none
    {s : ParserState}
    (hReady : Ready scopes s) :
    L.TiedStep scopes s (pure none : Parser (Option α))
      (pure none) :=
  ⟨⟨.refl hReady, L.ofPure none⟩, nofun⟩

theorem ties_pure (a : α) :
    L.Ties n scopes (pure a) (pure a) :=
  (always_pure a).ties (obeys_pure a)

theorem ties_fail (problem : Problem) (p : Position) :
    L.Ties n scopes (fail problem p : Parser α)
      (fail problem p) :=
  (always_fail problem p).ties (obeys_fail problem p)

theorem ties_ite
    {c : Prop}
    [Decidable c]
    {p q p' q' : Parser α}
    (hThen : L.Ties n scopes p q)
    (hElse : L.Ties n scopes p' q') :
    L.Ties n scopes (if c then p else p')
      (if c then q else q') := by
  split
  · exact hThen
  · exact hElse

theorem ties_look (f : TokenStream → α) :
    L.Ties n scopes (look f) (look f) :=
  (always_look f).ties (obeys_look f)

theorem ties_accept
    {kind : TokenKind}
    (hKind : kind ≠ .eof) :
    L.Ties n scopes (accept kind) (accept kind) :=
  (always_accept kind).ties (obeys_accept hKind)

theorem ties_unexpected (expected : String) :
    L.Ties n scopes (unexpected expected : Parser α)
      (unexpected expected) :=
  (always_unexpected expected).ties
    (obeys_unexpected expected)

theorem ties_expect
    {kind : TokenKind}
    (hKind : kind ≠ .eof)
    (expected : String) :
    L.Ties n scopes (expect kind expected)
      (expect kind expected) :=
  (always_expect kind expected).ties
    (obeys_expect hKind expected)

/- A token that is expected is passed. -/
theorem tiesPast_expect
    {kind : TokenKind}
    (hKind : kind ≠ .eof)
    (expected : String) :
    L.TiesPast n scopes (expect kind expected)
      (expect kind expected) := by
  intro s hReady hFew
  refine ⟨ties_expect hKind expected s hReady hFew, ?_⟩
  intro a t hRun
  unfold expect at hRun
  rw [outcome_bind, outcome_check] at hRun
  by_cases hIs : s.token.kind = kind
  · rw [decide_eq_true hIs] at hRun
    cases hRun
    exact left_next (ne_of_eq_of_ne hIs hKind)
  · rw [decide_eq_false hIs] at hRun
    cases hRun

theorem ties_expectName :
    L.Ties n scopes expectName expectName :=
  always_expectName.ties obeys_expectName

/- A token is taken at a state before the end of the text. -/
theorem tiedPast_consume
    {s : ParserState}
    {f g : Token → Parser α}
    (hReady : Ready scopes s)
    (hMore : s.token.kind ≠ .eof)
    (hRest :
      L.Tied scopes s.next (f s.token) (g s.token)) :
    L.TiedPast scopes s (consume >>= f) (consume >>= g) where
  kept := by
    rw [outcome_bind, outcome_consume]
    exact (Kept.next hReady hMore).trans hRest.kept
  holds := by
    refine L.ofBind (always_consume s) fun hRun => ?_
    rw [outcome_consume] at hRun
    cases hRun
    exact hRest.holds
  left_lt := by
    intro a t hRun
    rw [outcome_bind, outcome_consume] at hRun
    have hLater := hRest.kept.left_le
    change (f s.token).outcome s.next = _ at hRun
    rw [hRun] at hLater
    exact Nat.lt_of_le_of_lt hLater (left_next hMore)

/- What is seen at a state decides how to go on. -/
theorem Tied.look
    {s : ParserState}
    (see : TokenStream → α)
    {f g : α → Parser β}
    (hRest :
      L.Tied scopes s (f (see s.stream)) (g (see s.stream))) :
    L.Tied scopes s (Parser.look see >>= f)
      (Parser.look see >>= g) := by
  constructor
  · rw [outcome_bind, outcome_look]
    exact hRest.kept
  · refine L.ofBind (L.ofLook see) fun hRun => ?_
    cases hRun
    exact hRest.holds

theorem TiedStep.look
    {s : ParserState}
    (see : TokenStream → α)
    {f g : α → Parser (Option β)}
    (hRest :
      L.TiedStep scopes s (f (see s.stream))
        (g (see s.stream))) :
    L.TiedStep scopes s (Parser.look see >>= f)
      (Parser.look see >>= g) := by
  refine ⟨hRest.toTied.look see, ?_⟩
  intro a t hRun
  rw [outcome_bind, outcome_look] at hRun
  exact hRest.left_lt hRun

theorem TiedPast.look
    {s : ParserState}
    (see : TokenStream → α)
    {f g : α → Parser β}
    (hRest :
      L.TiedPast scopes s (f (see s.stream))
        (g (see s.stream))) :
    L.TiedPast scopes s (Parser.look see >>= f)
      (Parser.look see >>= g) := by
  refine ⟨hRest.toTied.look see, ?_⟩
  intro a t hRun
  rw [outcome_bind, outcome_look] at hRun
  exact hRest.left_lt hRun

/- The token is taken and passed on, if it is there. -/
theorem ties_ifConsume
    {kind : TokenKind}
    (hKind : kind ≠ .eof)
    {f g : Token → Parser α}
    {p q : Parser α}
    (hThen :
      ∀ token, L.Ties (n - 1) scopes (f token) (g token))
    (hElse : L.Ties n scopes p q) :
    L.Ties n scopes
      (do if ← check kind then f (← consume) else p)
      (do if ← check kind then g (← consume) else q) := by
  intro s hReady hFew
  refine .look (·.check kind) ?_
  split
  · rename_i hIs
    have hMore : s.token.kind ≠ .eof :=
      ne_of_eq_of_ne (of_decide_eq_true hIs) hKind
    have hPassed := left_next hMore
    exact (tiedPast_consume hReady hMore
      (hThen s.token s.next (hReady.next hMore)
        (by omega))).toTied
  · exact hElse s hReady hFew

/- A step takes a token, or gives nothing. -/
theorem tiesStep_ifAccept
    {kind : TokenKind}
    (hKind : kind ≠ .eof)
    {p q : Parser (Option α)}
    (hThen : L.Ties n scopes p q) :
    L.TiesStep n scopes
      (do if ← accept kind then p else return none)
      (do if ← accept kind then q else return none) := by
  intro s hReady hFew
  refine ⟨(ties_accept hKind).bind (fun _ =>
    ties_ite hThen (ties_pure none)) s hReady hFew, ?_⟩
  intro a t hRun
  rw [outcome_bind, outcome_accept] at hRun
  by_cases hIs : s.token.kind = kind
  · have hMore := ne_of_eq_of_ne hIs hKind
    have hPassed := left_next hMore
    have hLater :=
      (hThen s.next (hReady.next hMore)
        (by omega)).kept.left_le
    rw [if_pos hIs] at hRun
    change p.outcome s.next = _ at hRun
    rw [hRun] at hLater
    exact Nat.lt_of_le_of_lt hLater hPassed
  · rw [if_neg hIs] at hRun
    cases hRun

/- A list goes on until its end is there or the text ends. -/
theorem tiedStep_unlessEnd
    {s : ParserState}
    {kind : TokenKind}
    {p q : Parser (Option α)}
    (hReady : Ready scopes s)
    (hThen :
      s.token.kind ≠ .eof → L.TiedStep scopes s p q) :
    L.TiedStep scopes s
      (do
        if !(← check kind) && (← hasMore) then p
        else return none)
      (do
        if !(← check kind) && (← hasMore) then q
        else return none) := by
  refine .look (·.check kind) (.look (·.hasMore) ?_)
  split
  · rename_i hGo
    rw [Bool.and_eq_true] at hGo
    exact hThen (of_decide_eq_true hGo.2)
  · exact tiedStep_none hReady

------------------------------------------------------------
-- Scopes, definitions and recovery
------------------------------------------------------------

theorem ties_declare
    {scope : ScopeId}
    (name : Token)
    (kind : DefinitionKind)
    (span : Span)
    (visibleFrom : Nat)
    (isMutable : Bool) :
    L.Ties n (scope :: scopes)
      (declare name kind span visibleFrom isMutable)
      (declare name kind span visibleFrom isMutable) :=
  fun s hReady hFew =>
    { kept :=
        kept_of_obeyed
          (obeys_declare name kind span visibleFrom isMutable
            s hReady hFew)
      holds :=
        L.ofDeclare name kind span visibleFrom isMutable
          (by rw [hReady.scopes_eq]; rfl) }

theorem ties_inNewScope
    {body body' : ScopeId → Parser α}
    (hBody :
      ∀ scope,
        L.Ties n (scope :: scopes) (body scope)
          (body' scope)) :
    L.Ties n scopes (inNewScope body) (inNewScope body') := by
  intro s hReady hFew
  have hTied := hBody s.newScope s.opened hReady.opened hFew
  refine ⟨?_, L.ofNewScope hTied.holds⟩
  have hKept := hTied.kept
  rw [outcome_inNewScope]
  generalize (body s.newScope).outcome s.opened = x at hKept
  rcases x with ⟨d | a, t⟩
  · exact hKept.closed
  · exact hKept.closed

/-
  A token is passed by a run that is recovered from, if it
  succeeds and if it fails.
-/
theorem TiedPast.recovering
    {s : ParserState}
    {p q : Parser α}
    (hBody : L.TiedPast scopes s p q)
    (hMore : s.token.kind ≠ .eof)
    (stop : TokenStream → Bool) :
    L.TiedPast scopes s (Parser.recovering stop p)
      (Parser.recovering stop q) := by
  have hKept := hBody.kept
  have hRun := outcome_recovering stop p s
  rcases hOutcome : p.outcome s with ⟨d | a, t⟩
  · rw [hOutcome] at hKept hRun
    dsimp only at hRun
    refine ⟨⟨?_, L.ofRecovering stop hBody.holds⟩, ?_⟩
    · rw [hRun]
      exact hKept.resumed hMore stop d
    · intro r u hSame
      rw [hRun] at hSame
      cases hSame
      exact left_resumed_lt hKept hMore stop d
  · rw [hOutcome] at hKept hRun
    dsimp only at hRun
    refine ⟨⟨?_, L.ofRecovering stop hBody.holds⟩, ?_⟩
    · rw [hRun]
      exact hKept
    · intro r u hSame
      rw [hRun] at hSame
      cases hSame
      exact hBody.left_lt hOutcome

------------------------------------------------------------
-- Repetition
------------------------------------------------------------

theorem ties_loopWithin
    {step step' : α → Parser (Option α)}
    (hSteps : ∀ a, L.Ties n scopes (step a) (step' a)) :
    ∀ (budget : List Token) (a : α),
      L.Ties n scopes (loopWithin step budget a)
        (loopWithin step' budget a)
  | [], a => (hSteps a).bind fun _ => ties_pure _
  | _ :: budget, a => by
      refine (hSteps a).bind fun r => ?_
      cases r with
      | none => exact ties_pure a
      | some b => exact ties_loopWithin hSteps budget b

theorem ties_loop
    {step step' : α → Parser (Option α)}
    (hSteps : ∀ a, L.Ties n scopes (step a) (step' a))
    (a : α) :
    L.Ties n scopes (loop step a) (loop step' a) :=
  (ties_look (·.ahead)).bind fun budget =>
    ties_loopWithin hSteps budget a

theorem ties_collectWithin
    {step step' : Parser (Option α)}
    (hSteps : L.Ties n scopes step step') :
    ∀ budget : List Token,
      L.Ties n scopes (collectWithin step budget)
        (collectWithin step' budget)
  | [] => hSteps.bind fun _ => ties_pure _
  | _ :: budget => by
      refine hSteps.bind fun r => ?_
      cases r with
      | none => exact ties_pure []
      | some a =>
          exact (ties_collectWithin hSteps budget).bind
            fun as => ties_pure (a :: as)

theorem ties_collect
    {step step' : Parser (Option α)}
    (hSteps : L.Ties n scopes step step') :
    L.Ties n scopes (collect step) (collect step') :=
  (ties_look (·.ahead)).bind fun budget =>
    ties_collectWithin hSteps budget

theorem tiesStep_nextItem
    {separator : TokenKind}
    (hSeparator : separator ≠ .eof)
    (terminator : TokenKind)
    {item item' : Parser α}
    (hItem : L.Ties n scopes item item') :
    L.TiesStep n scopes (nextItem separator terminator item)
      (nextItem separator terminator item') :=
  tiesStep_ifAccept hSeparator
    ((ties_look _).bind fun _ =>
      ties_ite (ties_pure none)
        (hItem.bind fun a => ties_pure (some a)))

theorem ties_separated
    {separator : TokenKind}
    (hSeparator : separator ≠ .eof)
    (terminator : TokenKind)
    {item item' : Parser α}
    (hItem : L.Ties n scopes item item') :
    L.Ties n scopes (separated separator terminator item)
      (separated separator terminator item') :=
  (ties_look _).bind fun _ =>
    ties_ite (ties_pure [])
      (hItem.bind fun a =>
        (ties_collect (tiesStep_nextItem hSeparator terminator
          hItem).ties).bind fun as => ties_pure (a :: as))

end ParserRelation

end SourceCheck
