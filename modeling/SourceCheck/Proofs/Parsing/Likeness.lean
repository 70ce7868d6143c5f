import SourceCheck.Proofs.Parsing.Alike

/-
  Runs of a parser on states that are alike.

  Such runs end alike: with related results or failures of
  one sort, in states that are alike again.  Nothing is
  asked of the states themselves, so that this holds from
  every state, also where no scope is open.

  A `ParserProperty` says something of a parser at a state,
  and each way to put parsers together keeps it.  It is
  carried along, so that one walk over the grammar serves
  for what two runs have in common and for what one run
  does.  Where a name is declared, it is known which token
  of the text spells it.

  Key definitions include:
    * `IsNameOf`
    * `ParserProperty`
    * `EndsAlike`
    * `ParserProperty.Matches`
-/

namespace SourceCheck

open SourceCheck.Parser
open SourceCheck.ParserState

------------------------------------------------------------
-- Names of definitions
------------------------------------------------------------

/-
  Among the tokens, this one spells the name of a definition
  of the kind that stands at the range: a parameter starts
  with its name, and other definitions with the word before
  it.
-/
structure IsNameOf
    (ts : List Token)
    (name : Token)
    (kind : DefinitionKind)
    (span : Span) :
    Prop where
  isName : name.kind.isName
  mem : name ∈ ts
  ofArgument :
    kind = .argument → span.start = name.span.start
  ofOther :
    kind ≠ .argument →
      ∃ front word rest,
        ts = front ++ word :: name :: rest ∧
          span.start = word.span.start

------------------------------------------------------------
-- Properties of parsers
------------------------------------------------------------

/-
  What is said of a parser at a state, and how it follows
  for a parser from its parts.
-/
structure ParserProperty where
  holds : {α : Type} → Parser α → ParserState → Prop
  ofPure :
    ∀ {α : Type} (a : α) {s},
      holds (pure a : Parser α) s
  ofThrow :
    ∀ {α : Type} {d : Diagnostic} {s},
      d.problem.isRedefinition = false →
        holds (throw d : Parser α) s
  ofBind :
    ∀ {α β : Type} {p : Parser α} {f : α → Parser β} {s},
      holds p s →
        (∀ {a t},
          p.outcome s = (.ok a, t) → holds (f a) t) →
          holds (p >>= f) s
  ofLook :
    ∀ {α : Type} (f : TokenStream → α) {s}, holds (look f) s
  ofMove :
    ∀ {f : TokenStream → TokenStream} {s},
      (∀ t, (f t).tokens = t.tokens) → holds (move f) s
  ofDeclare :
    ∀ {name : Token} {kind : DefinitionKind} {span : Span}
      (visibleFrom : Nat) (isMutable : Bool) {s},
      IsNameOf s.stream.tokens name kind span →
        holds (declare name kind span visibleFrom isMutable)
          s
  ofNewScope :
    ∀ {α : Type} {body : ScopeId → Parser α} {s},
      holds (body s.newScope) s.opened →
        holds (inNewScope body) s
  ofRecovering :
    ∀ {α : Type} {p : Parser α} {s}
      (stop : TokenStream → Bool),
      holds p s → holds (recovering stop p) s

------------------------------------------------------------
-- Runs that end alike
------------------------------------------------------------

section Runs

variable {α β γ δ : Type}

/-
  Two runs end alike, and the first one leaves all tokens
  where they are.  No failure is a redefinition: these are
  reported, and stop nothing.
-/
inductive EndsAlike
    (R : α → β → Prop)
    (ts : List Token) :
    Except Diagnostic α × ParserState →
      Except Diagnostic β × ParserState → Prop where
  | ok {a b u v}
      (hResults : R a b)
      (hTokens : u.stream.tokens = ts)
      (hStates : u.Alike v) :
      EndsAlike R ts (.ok a, u) (.ok b, v)
  | error {d e u v}
      (hProblems : d.Alike e)
      (hOther : d.problem.isRedefinition = false)
      (hTokens : u.stream.tokens = ts)
      (hStates : u.Alike v) :
      EndsAlike R ts (.error d, u) (.error e, v)

namespace ParserProperty

variable {L : ParserProperty}
variable {ts : List Token}
variable {R : α → β → Prop}
variable {S : γ → δ → Prop}

/-
  Two parsers end alike on two states, and the property
  holds of the first one.
-/
structure Matched
    (L : ParserProperty)
    (ts : List Token)
    (R : α → β → Prop)
    (p : Parser α)
    (q : Parser β)
    (s t : ParserState) :
    Prop where
  ends : EndsAlike R ts (p.outcome s) (q.outcome t)
  holds : L.holds p s

/-
  They do so on all states that are alike, where these are
  the tokens of the first one.
-/
def Matches
    (L : ParserProperty)
    (ts : List Token)
    (R : α → β → Prop)
    (p : Parser α)
    (q : Parser β) :
    Prop :=
  ∀ s t,
    s.Alike t →
      s.stream.tokens = ts → L.Matched ts R p q s t

/- More may be known of the results of the first one. -/
theorem Matches.learning
    {p : Parser α}
    {q : Parser β}
    {P : α → Prop}
    (hMatches : L.Matches ts R p q)
    (hRuns :
      ∀ {s a u},
        s.stream.tokens = ts →
          p.outcome s = (.ok a, u) → P a) :
    L.Matches ts (fun a b => R a b ∧ P a) p q := by
  intro s t hAlike hTokens
  rcases hMatches s t hAlike hTokens with ⟨hEnds, hHolds⟩
  refine ⟨?_, hHolds⟩
  have hLearnt {a : α} {u : ParserState} :=
    hRuns (s := s) (a := a) (u := u) hTokens
  generalize p.outcome s = x at hEnds hLearnt
  generalize q.outcome t = y at hEnds
  cases hEnds with
  | ok hResults hKept hStates =>
      exact .ok ⟨hResults, hLearnt rfl⟩ hKept hStates
  | error hProblems hOther hKept hStates =>
      exact .error hProblems hOther hKept hStates

------------------------------------------------------------
-- Simple parsers
------------------------------------------------------------

theorem matches_pure
    {a : α}
    {b : β}
    (hResults : R a b) :
    L.Matches ts R (pure a) (pure b) :=
  fun _ _ hAlike hTokens =>
    ⟨.ok hResults hTokens hAlike, L.ofPure a⟩

theorem matches_throw
    {d e : Diagnostic}
    (hProblems : d.Alike e)
    (hOther : d.problem.isRedefinition = false) :
    L.Matches ts R (throw d) (throw e) :=
  fun _ _ hAlike hTokens =>
    ⟨.error hProblems hOther hTokens hAlike,
      L.ofThrow hOther⟩

theorem matches_fail
    {problem problem' : Problem}
    {p q : Position}
    (hName : problem.name = problem'.name)
    (hPlace : p = q)
    (hOther : problem.isRedefinition = false) :
    L.Matches ts R (fail problem p) (fail problem' q) :=
  matches_throw ⟨hName, hPlace⟩ hOther

theorem Matches.bind
    {p : Parser α}
    {q : Parser β}
    {f : α → Parser γ}
    {g : β → Parser δ}
    (hFirst : L.Matches ts R p q)
    (hRest : ∀ {a b}, R a b → L.Matches ts S (f a) (g b)) :
    L.Matches ts S (p >>= f) (q >>= g) := by
  intro s t hAlike hTokens
  rcases hFirst s t hAlike hTokens with ⟨hEnds, hHolds⟩
  constructor
  · rw [outcome_bind, outcome_bind]
    generalize p.outcome s = x at hEnds
    generalize q.outcome t = y at hEnds
    cases hEnds with
    | ok hResults hKept hStates =>
        exact (hRest hResults _ _ hStates hKept).ends
    | error hProblems hOther hKept hStates =>
        exact .error hProblems hOther hKept hStates
  · refine L.ofBind hHolds fun {a u} hRun => ?_
    rw [hRun] at hEnds
    generalize q.outcome t = y at hEnds
    cases hEnds with
    | ok hResults hKept hStates =>
        exact (hRest hResults _ _ hStates hKept).holds

/- A parser whose results are equal is followed by one. -/
theorem Matches.next
    {p q : Parser α}
    {f : α → Parser γ}
    {g : α → Parser δ}
    (hFirst : L.Matches ts Eq p q)
    (hRest : ∀ a, L.Matches ts S (f a) (g a)) :
    L.Matches ts S (p >>= f) (q >>= g) := by
  refine hFirst.bind fun {a b} hSame => ?_
  subst hSame
  exact hRest a

theorem matches_ite
    {c : Prop}
    [Decidable c]
    {p p' : Parser α}
    {q q' : Parser β}
    (hThen : L.Matches ts R p q)
    (hElse : L.Matches ts R p' q') :
    L.Matches ts R (if c then p else p')
      (if c then q else q') := by
  split
  · exact hThen
  · exact hElse

theorem matches_look
    {f : TokenStream → α}
    {g : TokenStream → β}
    (hSee : ∀ {s t}, s.Alike t → R (f s) (g t)) :
    L.Matches ts R (look f) (look g) :=
  fun _ _ hAlike hTokens =>
    ⟨.ok (hSee hAlike.stream) hTokens hAlike, L.ofLook f⟩

theorem matches_current :
    L.Matches ts Token.Alike current current :=
  matches_look fun hAlike => hAlike.current

theorem matches_previous :
    L.Matches ts Token.Alike previous previous :=
  matches_look fun hAlike => hAlike.previous

theorem matches_position :
    L.Matches ts Eq position position :=
  matches_look fun hAlike =>
    congrArg Span.start hAlike.current.span_eq

theorem matches_check
    {kind : TokenKind}
    (hKind : kind.isName = false) :
    L.Matches ts Eq (check kind) (check kind) :=
  matches_look fun hAlike => hAlike.check_eq hKind

theorem matches_checkName :
    L.Matches ts Eq checkName checkName :=
  matches_look fun hAlike => hAlike.checkAny_eq (by decide)

theorem matches_hasMore :
    L.Matches ts Eq hasMore hasMore :=
  matches_look fun hAlike => hAlike.hasMore_eq

theorem matches_move
    {f : TokenStream → TokenStream}
    (hMove : ∀ {s t}, s.Alike t → (f s).Alike (f t))
    (hKeeps : ∀ s, (f s).tokens = s.tokens) :
    L.Matches ts Eq (move f) (move f) :=
  fun s _ hAlike hTokens =>
    ⟨.ok rfl ((hKeeps s.stream).trans hTokens)
        (hAlike.moved (hMove hAlike.stream)),
      L.ofMove hKeeps⟩

theorem matches_consume :
    L.Matches ts Token.Alike consume consume :=
  matches_current.bind fun hTokens =>
    (matches_move (·.consume)
      TokenStream.tokens_consume).next
        fun _ => matches_pure hTokens

theorem matches_unconsume :
    L.Matches ts Eq unconsume unconsume :=
  matches_move (·.unconsume) TokenStream.tokens_unconsume

theorem matches_accept
    {kind : TokenKind}
    (hKind : kind.isName = false) :
    L.Matches ts Eq (accept kind) (accept kind) :=
  (matches_check hKind).next fun _ =>
    matches_ite
      (matches_consume.bind fun _ => matches_pure rfl)
      (matches_pure rfl)

theorem matches_unexpected (expected : String) :
    L.Matches ts R (unexpected expected)
      (unexpected expected) :=
  matches_current.bind fun {a _} hTokens =>
    matches_throw (hTokens.unexpected expected)
      (isRedefinition_unexpectedToken a expected)

theorem matches_expect
    {kind : TokenKind}
    (hKind : kind.isName = false)
    (expected : String) :
    L.Matches ts Token.Alike (expect kind expected)
      (expect kind expected) :=
  (matches_check hKind).next fun _ =>
    matches_ite matches_consume (matches_unexpected expected)

theorem matches_expectName :
    L.Matches ts Token.Alike expectName expectName :=
  matches_checkName.next fun _ =>
    matches_ite matches_consume (matches_unexpected _)

------------------------------------------------------------
-- Names and declarations
------------------------------------------------------------

/- A cursor in front of a name stands at one of its tokens. -/
theorem exists_tokens_of_isName
    {s : TokenStream}
    (hName : s.current.kind.isName) :
    ∃ rest,
      s.tokens = s.before.reverse ++ s.current :: rest := by
  unfold TokenStream.tokens TokenStream.current at *
  cases hAhead : s.ahead with
  | nil =>
      rw [hAhead, List.headD_nil, s.kind_last] at hName
      exact absurd hName Bool.false_ne_true
  | cons t ts => exact ⟨ts, rfl⟩

theorem outcome_expectName_ok
    {s u : ParserState}
    {a : Token}
    (hRun : expectName.outcome s = (.ok a, u)) :
    a.kind.isName ∧ a = s.token := by
  unfold expectName at hRun
  rw [outcome_bind, outcome_checkName] at hRun
  dsimp only at hRun
  cases hName : s.token.kind.isName with
  | false =>
      rw [hName] at hRun
      cases hRun
  | true =>
      rw [hName, if_pos rfl, outcome_consume] at hRun
      cases hRun
      exact ⟨hName, rfl⟩

/- A name that is expected is one of the tokens. -/
theorem matches_name :
    L.Matches ts
      (fun a b => a.Alike b ∧ a.kind.isName ∧ a ∈ ts)
      expectName expectName := by
  refine matches_expectName.learning
    fun {s a u} hTokens hRun => ?_
  rcases outcome_expectName_ok hRun with ⟨hName, rfl⟩
  rcases exists_tokens_of_isName hName with ⟨rest, hAll⟩
  refine ⟨hName, ?_⟩
  rw [← hTokens, hAll]
  exact List.mem_append_right _ List.mem_cons_self

/- A token that was taken stands in front of the next. -/
theorem exists_tokens_of_next
    {s : ParserState}
    (hName : s.next.token.kind.isName) :
    ∃ front rest,
      s.stream.tokens =
        front ++ s.token :: s.next.token :: rest := by
  rcases exists_tokens_of_isName hName with ⟨rest, hAll⟩
  have hBefore := TokenStream.before_consume s.stream
  cases hAhead : s.stream.ahead with
  | nil =>
      -- No name follows the end of the text.
      have hSame : s.next = s := by
        unfold ParserState.next TokenStream.consume
        rw [hAhead]
      have hEnd : s.token = s.stream.last := by
        unfold ParserState.token TokenStream.current
        rw [hAhead, List.headD_nil]
      rw [hSame, hEnd, s.stream.kind_last] at hName
      exact absurd hName Bool.false_ne_true
  | cons t us =>
      have hToken := token_of_ahead hAhead
      rw [hAhead, List.head?_cons, Option.toList_some,
        List.singleton_append] at hBefore
      refine ⟨s.stream.before.reverse, rest, ?_⟩
      rw [← TokenStream.tokens_consume]
      refine hAll.trans ?_
      unfold ParserState.next
      rw [hBefore, List.reverse_cons, List.append_assoc,
        hToken]
      rfl

/- A name behind a word is the next token behind it. -/
theorem matches_wordAndName
    {p : Parser Token}
    {f : Token → Token → Parser α}
    {g : Token → Token → Parser β}
    (hWord : L.Matches ts Token.Alike p p)
    (hTakes :
      ∀ {s a u},
        p.outcome s = (.ok a, u) → a = s.token ∧ u = s.next)
    (hRest :
      ∀ {word word' name name' : Token},
        word.Alike word' →
          name.Alike name' →
            name.kind.isName →
              (∃ front rest,
                ts = front ++ word :: name :: rest) →
                L.Matches ts R (f word name)
                  (g word' name')) :
    L.Matches ts R
      (p >>= fun word => expectName >>= f word)
      (p >>= fun word => expectName >>= g word) := by
  have hTwo :
      L.Matches ts
        (fun a b => a.1.Alike b.1 ∧ a.2.Alike b.2)
        (p >>= fun word => expectName >>= fun name =>
          pure (word, name))
        (p >>= fun word => expectName >>= fun name =>
          pure (word, name)) :=
    hWord.bind fun hFirst =>
      matches_expectName.bind fun hSecond =>
        matches_pure ⟨hFirst, hSecond⟩
  have hLearnt :=
    hTwo.learning
      (P := fun a =>
        a.2.kind.isName ∧
          ∃ front rest, ts = front ++ a.1 :: a.2 :: rest)
      fun {s a u} hTokens hRun => by
        rcases exists_of_outcome_bind hRun with
          ⟨word, v, hFirst, hRun⟩
        rcases exists_of_outcome_bind hRun with
          ⟨name, w, hSecond, hRun⟩
        cases hRun
        rcases hTakes hFirst with ⟨rfl, rfl⟩
        rcases outcome_expectName_ok hSecond with
          ⟨hName, rfl⟩
        rw [← hTokens]
        exact ⟨hName, exists_tokens_of_next hName⟩
  have hBoth :=
    hLearnt.bind
      (f := fun a => f a.1 a.2) (g := fun b => g b.1 b.2)
      fun {a b} hAll =>
        hRest hAll.1.1 hAll.1.2 hAll.2.1 hAll.2.2
  simpa only [bind_assoc, pure_bind] using hBoth

/- The definition of a name that is one of the tokens. -/
theorem matches_declare
    {name name' : Token}
    {kind : DefinitionKind}
    {span : Span}
    (visibleFrom : Nat)
    (isMutable : Bool)
    (hAlike : name.Alike name')
    (hName : IsNameOf ts name kind span) :
    L.Matches ts Eq
      (declare name kind span visibleFrom isMutable)
      (declare name' kind span visibleFrom isMutable) := by
  intro s t hStates hTokens
  refine ⟨?_, L.ofDeclare _ _ (hTokens ▸ hName)⟩
  have hScopes := hStates.scopes
  rw [outcome_declare, outcome_declare, ← hScopes,
    ← hAlike.name_eq, ← hAlike.span_eq, hStates.symbols]
  cases s.scopes with
  | nil =>
      exact .error
        ⟨rfl, congrArg Span.start hStates.token.span_eq⟩ rfl
        hTokens hStates
  | cons scope scopes =>
      refine .ok rfl ?_ (hStates.declared scope _ _)
      rw [stream_declared]
      exact hTokens

------------------------------------------------------------
-- Scopes and recovery
------------------------------------------------------------

theorem matches_inNewScope
    {body : ScopeId → Parser α}
    {body' : ScopeId → Parser β}
    (hBody :
      ∀ scope, L.Matches ts R (body scope) (body' scope)) :
    L.Matches ts R (inNewScope body) (inNewScope body') := by
  intro s t hAlike hTokens
  rcases hBody s.newScope _ _ hAlike.opened hTokens with
    ⟨hEnds, hHolds⟩
  refine ⟨?_, L.ofNewScope hHolds⟩
  rw [outcome_inNewScope, outcome_inNewScope,
    ← hAlike.newScope_eq]
  generalize (body s.newScope).outcome s.opened = x at hEnds
  generalize (body' s.newScope).outcome t.opened = y at hEnds
  cases hEnds with
  | ok hResults hKept hStates =>
      exact .ok hResults hKept hStates.closed
  | error hProblems hOther hKept hStates =>
      exact .error hProblems hOther hKept hStates.closed

theorem matches_recovering
    {stop : TokenStream → Bool}
    {p q : Parser α}
    (hStop :
      ∀ {s t : TokenStream}, s.Alike t → stop s = stop t)
    (hBody : L.Matches ts Eq p q) :
    L.Matches ts Eq (recovering stop p)
      (recovering stop q) := by
  intro s t hAlike hTokens
  rcases hBody s t hAlike hTokens with ⟨hEnds, hHolds⟩
  refine ⟨?_, L.ofRecovering stop hHolds⟩
  rw [outcome_recovering, outcome_recovering]
  generalize p.outcome s = x at hEnds
  generalize q.outcome t = y at hEnds
  cases hEnds with
  | ok hResults hKept hStates =>
      exact .ok (congrArg some hResults) hKept hStates
  | error hProblems hOther hKept hStates =>
      refine .ok rfl ?_
        (hAlike.resumed hStop hStates hProblems)
      rw [tokens_resumed]
      exact hKept

------------------------------------------------------------
-- Repetition
------------------------------------------------------------

theorem matches_loopWithin
    {step : α → Parser (Option α)}
    (hSteps : ∀ a, L.Matches ts Eq (step a) (step a))
    {us vs : List Token}
    (hBudgets : List.Forall₂ Token.Alike us vs)
    (a : α) :
    L.Matches ts Eq (loopWithin step us a)
      (loopWithin step vs a) := by
  induction hBudgets generalizing a with
  | nil => exact (hSteps a).next fun _ => matches_pure rfl
  | cons _ _ ih =>
      refine (hSteps a).next fun r => ?_
      cases r with
      | none => exact matches_pure rfl
      | some b => exact ih b

theorem matches_loop
    {step : α → Parser (Option α)}
    (hSteps : ∀ a, L.Matches ts Eq (step a) (step a))
    (a : α) :
    L.Matches ts Eq (loop step a) (loop step a) :=
  (matches_look fun hAlike => hAlike.ahead).bind
    fun hBudgets => matches_loopWithin hSteps hBudgets a

theorem matches_collectWithin
    {step : Parser (Option α)}
    (hSteps : L.Matches ts Eq step step)
    {us vs : List Token}
    (hBudgets : List.Forall₂ Token.Alike us vs) :
    L.Matches ts Eq (collectWithin step us)
      (collectWithin step vs) := by
  induction hBudgets with
  | nil => exact hSteps.next fun _ => matches_pure rfl
  | cons _ _ ih =>
      refine hSteps.next fun r => ?_
      cases r with
      | none => exact matches_pure rfl
      | some a => exact ih.next fun as => matches_pure rfl

theorem matches_collect
    {step : Parser (Option α)}
    (hSteps : L.Matches ts Eq step step) :
    L.Matches ts Eq (collect step) (collect step) :=
  (matches_look fun hAlike => hAlike.ahead).bind
    fun hBudgets => matches_collectWithin hSteps hBudgets

theorem matches_nextItem
    {separator terminator : TokenKind}
    (hSeparator : separator.isName = false)
    (hTerminator : terminator.isName = false)
    {item : Parser α}
    (hItem : L.Matches ts Eq item item) :
    L.Matches ts Eq (nextItem separator terminator item)
      (nextItem separator terminator item) :=
  (matches_accept hSeparator).next fun _ =>
    matches_ite
      ((matches_check hTerminator).next fun _ =>
        matches_ite (matches_pure rfl)
          (hItem.next fun _ => matches_pure rfl))
      (matches_pure rfl)

theorem matches_separated
    {separator terminator : TokenKind}
    (hSeparator : separator.isName = false)
    (hTerminator : terminator.isName = false)
    {item : Parser α}
    (hItem : L.Matches ts Eq item item) :
    L.Matches ts Eq (separated separator terminator item)
      (separated separator terminator item) :=
  (matches_check hTerminator).next fun _ =>
    matches_ite (matches_pure rfl)
      (hItem.next fun _ =>
        (matches_collect
          (matches_nextItem hSeparator hTerminator
            hItem)).next fun _ => matches_pure rfl)

end ParserProperty

end Runs

end SourceCheck
