import SourceCheck.Grammar.Parser
import SourceCheck.Grammar.Power

/-
  Runs of parsers.

  A parser is read through its outcome: what it gives on a
  state, and which state it leaves.  For every action that
  the grammar is built from, one equation says what its
  outcome is; outcomes of longer parsers are computed with
  these equations, and no action is opened again.

  Key definitions include:
    * `ParserState.token`
    * `ParserState.next`
    * `ParserState.passed`
    * `ParserState.opened`
    * `ParserState.closed`
    * `ParserState.Declares`
    * `Parser.outcome`
-/

namespace SourceCheck

------------------------------------------------------------
-- States
------------------------------------------------------------

namespace ParserState

/- The token at the cursor. -/
def token (s : ParserState) : Token :=
  s.stream.current

/- The state behind the token at the cursor. -/
def next (s : ParserState) : ParserState :=
  { s with stream := s.stream.consume }

/- How many tokens are left. -/
def left (s : ParserState) : Nat :=
  s.stream.ahead.length

/- How many diagnostics were reported. -/
def reports (s : ParserState) : Nat :=
  s.diagnostics.length

/- The state with one more diagnostic. -/
def reported
    (s : ParserState)
    (d : Diagnostic) :
    ParserState :=
  { s with diagnostics := s.diagnostics ++ [d] }

/- The scope that is opened next. -/
def newScope (s : ParserState) : ScopeId :=
  s.symbols.scopes.size

/- The state in a new scope. -/
def opened (s : ParserState) : ParserState :=
  { s with
    symbols := (s.symbols.openScope s.scopes.head?).2
    scopes := s.newScope :: s.scopes }

/- The state behind the innermost scope. -/
def closed (s : ParserState) : ParserState :=
  { s with scopes := s.scopes.tail }

/- The state with other symbols. -/
def withSymbols
    (s : ParserState)
    (symbols : Symbols) :
    ParserState :=
  { s with symbols := symbols }

@[simp, grind =]
theorem left_opened (s : ParserState) :
    s.opened.left = s.left :=
  rfl

@[simp, grind =]
theorem left_closed (s : ParserState) :
    s.closed.left = s.left :=
  rfl

@[simp]
theorem reports_opened (s : ParserState) :
    s.opened.reports = s.reports :=
  rfl

@[simp]
theorem reports_withSymbols
    (s : ParserState)
    (symbols : Symbols) :
    (s.withSymbols symbols).reports = s.reports :=
  rfl

@[simp]
theorem reports_reported
    (s : ParserState)
    (d : Diagnostic) :
    (s.reported d).reports = s.reports + 1 := by
  simp [reported, reports]

/- Before the end of the text, a step passes a token. -/
theorem left_next
    {s : ParserState}
    (hMore : s.token.kind ≠ .eof) :
    s.next.left < s.left :=
  TokenStream.length_ahead_consume
    (decide_eq_true hMore)

/- A step never gives tokens back. -/
theorem left_next_le (s : ParserState) :
    s.next.left ≤ s.left := by
  unfold left next TokenStream.consume
  cases hAhead : s.stream.ahead with
  | nil => simp [hAhead]
  | cons t ts => simp

/- Before the end of the text, the token is ahead. -/
theorem ahead_eq
    {s : ParserState}
    (hMore : s.token.kind ≠ .eof) :
    s.stream.ahead = s.token :: s.next.stream.ahead := by
  have hAhead :=
    TokenStream.ahead_ne_nil_of_hasMore
      (decide_eq_true hMore)
  unfold token next TokenStream.current TokenStream.consume
  cases hTokens : s.stream.ahead with
  | nil => exact absurd hTokens hAhead
  | cons t ts => simp

section Ahead

variable {s : ParserState}
variable {t : Token}
variable {ts us : List Token}

theorem token_of_ahead
    (hAhead : s.stream.ahead = t :: ts) :
    s.token = t := by
  simp only [token, TokenStream.current, hAhead,
    List.headD_cons]

theorem ahead_next
    (hAhead : s.stream.ahead = t :: ts) :
    s.next.stream.ahead = ts := by
  simp only [next, TokenStream.consume, hAhead]

/- The state behind as many tokens as given. -/
def passed
    (s : ParserState)
    (ts : List Token) :
    ParserState :=
  ts.foldl (fun s _ => s.next) s

theorem passed_cons
    (s : ParserState)
    (t : Token)
    (ts : List Token) :
    s.passed (t :: ts) = s.next.passed ts :=
  rfl

theorem passed_append
    (s : ParserState)
    (ts us : List Token) :
    s.passed (ts ++ us) = (s.passed ts).passed us :=
  List.foldl_append

/- Behind the tokens that are ahead come the others. -/
theorem ahead_passed
    (hAhead : s.stream.ahead = ts ++ us) :
    (s.passed ts).stream.ahead = us := by
  induction ts generalizing s with
  | nil => exact hAhead
  | cons t ts ih => exact ih (ahead_next hAhead)

theorem diagnostics_passed
    (s : ParserState)
    (ts : List Token) :
    (s.passed ts).diagnostics = s.diagnostics := by
  induction ts generalizing s with
  | nil => rfl
  | cons t ts ih => exact ih s.next

end Ahead

/-
  The state with a definition whose name is bound in a
  scope.
-/
def bound
    (s : ParserState)
    (scope : ScopeId)
    (d : Definition) :
    ParserState :=
  s.withSymbols
    ⟨s.symbols.scopes.modify scope
        (·.insert d.name s.symbols.definitions.size),
      s.symbols.definitions.push d⟩

/-
  The state with a definition whose name stands at `p`.  The
  name is bound unless the scope binds it already.
-/
def declared
    (s : ParserState)
    (scope : ScopeId)
    (d : Definition)
    (p : Position) :
    ParserState :=
  if s.symbols.hasLocal scope d.name then
    (s.withSymbols (s.symbols.addDefinition d).2).reported
      ⟨.redefinition d.name, p⟩
  else
    s.bound scope d

/-
  The state at the next checkpoint, for a run that started
  at `s` and failed at `t`.
-/
def resumed
    (stop : TokenStream → Bool)
    (s t : ParserState)
    (d : Diagnostic) :
    ParserState :=
  let u := t.reported d
  let v :=
    if t.stream.index = s.stream.index then u.next else u
  { v with stream := v.stream.skipTo stop }

/-
  A definition is made in the innermost scope, which did not
  bind its name.
-/
structure Declares
    (s : ParserState)
    (d : Definition)
    (id : DefinitionId)
    (t : ParserState) :
    Prop where
  id_eq : id = s.symbols.definitions.size
  exists_scope :
    ∃ scope,
      s.scopes.head? = some scope ∧
        s.symbols.hasLocal scope d.name = false ∧
        t = s.bound scope d

theorem Declares.left_eq
    {s t : ParserState}
    {d : Definition}
    {id : DefinitionId}
    (hDeclares : s.Declares d id t) :
    t.left = s.left := by
  rcases hDeclares.exists_scope with ⟨scope, -, -, rfl⟩
  rfl

end ParserState

------------------------------------------------------------
-- Outcomes
------------------------------------------------------------

namespace Parser

variable {α β : Type}

/- What a parser gives on a state, and what it leaves. -/
def outcome
    (p : Parser α)
    (s : ParserState) :
    Except Diagnostic α × ParserState :=
  p.run.run s

theorem outcome_pure
    (a : α)
    (s : ParserState) :
    (pure a : Parser α).outcome s = (.ok a, s) :=
  rfl

theorem outcome_throw
    (d : Diagnostic)
    (s : ParserState) :
    (throw d : Parser α).outcome s = (.error d, s) :=
  rfl

theorem outcome_ite
    (c : Prop)
    [Decidable c]
    (p q : Parser α)
    (s : ParserState) :
    (if c then p else q).outcome s =
      if c then p.outcome s else q.outcome s := by
  split
  · rfl
  · rfl

/- A failure of the first parser is one of both. -/
theorem outcome_bind
    (p : Parser α)
    (f : α → Parser β)
    (s : ParserState) :
    (p >>= f).outcome s =
      match p.outcome s with
      | (.ok a, u) => (f a).outcome u
      | (.error d, u) => (.error d, u) := by
  simp only [outcome, ExceptT.run, StateT.run, bind,
    ExceptT.bind, ExceptT.mk, StateT.bind]
  rcases (p s : Except Diagnostic α × ParserState) with
    ⟨_ | _, u⟩
  · rfl
  · rfl

/- A run that succeeds is made of runs that do. -/
theorem exists_of_outcome_bind
    {p : Parser α}
    {f : α → Parser β}
    {b : β}
    {s u : ParserState}
    (hRun : (p >>= f).outcome s = (.ok b, u)) :
    ∃ a t,
      p.outcome s = (.ok a, t) ∧
        (f a).outcome t = (.ok b, u) := by
  rw [outcome_bind] at hRun
  split at hRun
  · rename_i a t hFirst
    exact ⟨a, t, hFirst, hRun⟩
  · cases hRun

/- A handler sees what the parser left when it failed. -/
theorem outcome_tryCatch
    (p : Parser α)
    (handler : Diagnostic → Parser α)
    (s : ParserState) :
    (tryCatch p handler).outcome s =
      match p.outcome s with
      | (.ok a, u) => (.ok a, u)
      | (.error d, u) => (handler d).outcome u := by
  simp only [outcome, ExceptT.run, StateT.run, tryCatch,
    tryCatchThe, MonadExceptOf.tryCatch, ExceptT.tryCatch,
    ExceptT.mk, bind, StateT.bind]
  rcases (p s : Except Diagnostic α × ParserState) with
    ⟨_ | _, u⟩
  · rfl
  · rfl

theorem outcome_get (s : ParserState) :
    (get : Parser ParserState).outcome s = (.ok s, s) :=
  rfl

theorem outcome_look
    (f : TokenStream → α)
    (s : ParserState) :
    (look f).outcome s = (.ok (f s.stream), s) :=
  rfl

theorem outcome_current (s : ParserState) :
    current.outcome s = (.ok s.token, s) :=
  rfl

theorem outcome_move
    (f : TokenStream → TokenStream)
    (s : ParserState) :
    (move f).outcome s =
      (.ok ⟨⟩, { s with stream := f s.stream }) :=
  rfl

theorem outcome_consume (s : ParserState) :
    consume.outcome s = (.ok s.token, s.next) :=
  rfl

/- A token that was taken may be given back. -/
theorem outcome_unconsume_next
    {s : ParserState}
    (hAhead : s.stream.ahead ≠ []) :
    unconsume.outcome s.next = (.ok ⟨⟩, s) := by
  have hBack := TokenStream.unconsume_consume hAhead
  unfold unconsume
  rw [outcome_move]
  unfold ParserState.next
  rw [hBack]

theorem outcome_report
    (d : Diagnostic)
    (s : ParserState) :
    (report d).outcome s = (.ok ⟨⟩, s.reported d) :=
  rfl

theorem outcome_check
    (kind : TokenKind)
    (s : ParserState) :
    (check kind).outcome s =
      (.ok (decide (s.token.kind = kind)), s) :=
  rfl

theorem outcome_checkName (s : ParserState) :
    checkName.outcome s = (.ok s.token.kind.isName, s) :=
  rfl

theorem outcome_accept
    (kind : TokenKind)
    (s : ParserState) :
    (accept kind).outcome s =
      if s.token.kind = kind then
        (.ok true, s.next)
      else
        (.ok false, s) := by
  unfold accept
  rw [outcome_bind, outcome_check]
  dsimp only
  by_cases hIs : s.token.kind = kind
  · rw [decide_eq_true hIs, if_pos hIs]
    rfl
  · rw [decide_eq_false hIs, if_neg hIs]
    rfl

theorem outcome_expect
    {kind : TokenKind}
    {s : ParserState}
    (hKind : s.token.kind = kind)
    (expected : String) :
    (expect kind expected).outcome s =
      (.ok s.token, s.next) := by
  unfold expect
  rw [outcome_bind, outcome_check, decide_eq_true hKind]
  rfl

/- A token that was expected is there. -/
theorem outcome_expect_iff
    {kind : TokenKind}
    {expected : String}
    {token : Token}
    {s t : ParserState} :
    (expect kind expected).outcome s = (.ok token, t) ↔
      s.token.kind = kind ∧ token = s.token ∧ t = s.next := by
  constructor
  · intro hRun
    by_cases hKind : s.token.kind = kind
    · rw [outcome_expect hKind] at hRun
      cases hRun
      exact ⟨hKind, rfl, rfl⟩
    · unfold expect at hRun
      rw [outcome_bind, outcome_check,
        decide_eq_false hKind] at hRun
      cases hRun
  · rintro ⟨hKind, rfl, rfl⟩
    exact outcome_expect hKind expected

theorem outcome_hasMore (s : ParserState) :
    hasMore.outcome s =
      (.ok (decide (s.token.kind ≠ .eof)), s) :=
  rfl

/-
  A list goes on until its end is there or the text ends.
-/
theorem outcome_unlessEnd
    (kind : TokenKind)
    (p q : Parser α)
    (s : ParserState) :
    (do if !(← check kind) && (← hasMore) then p else q :
        Parser α).outcome s =
      if s.token.kind ≠ kind ∧ s.token.kind ≠ .eof then
        p.outcome s
      else
        q.outcome s := by
  rw [outcome_bind, outcome_check]
  dsimp only
  rw [outcome_bind, outcome_hasMore]
  dsimp only
  rw [outcome_ite]
  exact ite_cond_congr (by simp)

/-
  A name is bound to a new definition unless the scope binds
  it already.
-/
theorem bind_withDefinition
    (y : Symbols)
    (scope : ScopeId)
    (d : Definition) :
    Symbols.bind ⟨y.scopes, y.definitions.push d⟩ scope
        d.name y.definitions.size =
      if y.hasLocal scope d.name then
        .error ⟨d.name, scope⟩
      else
        .ok
          ⟨y.scopes.modify scope
              (·.insert d.name y.definitions.size),
            y.definitions.push d⟩ :=
  rfl

/- Only where no scope is open nothing can be declared. -/
theorem outcome_declare
    (name : Token)
    (kind : DefinitionKind)
    (span : Span)
    (visibleFrom : Nat)
    (isMutable : Bool)
    (s : ParserState) :
    (declare name kind span visibleFrom isMutable).outcome
        s =
      match s.scopes with
      | [] =>
          (.error ⟨.emptyScopeStack, s.token.span.start⟩, s)
      | scope :: _ =>
          (.ok s.symbols.definitions.size,
            s.declared scope
              ⟨name.name, kind, span, visibleFrom,
                isMutable, none⟩
              name.span.start) := by
  have hScope :
      currentScope.outcome s =
        match s.scopes with
        | [] =>
            (.error ⟨.emptyScopeStack,
              s.token.span.start⟩, s)
        | scope :: _ => (.ok scope, s) := by
    unfold currentScope
    rw [outcome_bind]
    change (match s.scopes with | _ => _ : Parser _).outcome
      s = _
    cases s.scopes with
    | nil => rfl
    | cons scope scopes => rfl
  unfold declare
  rw [outcome_bind, hScope]
  cases s.scopes with
  | nil => rfl
  | cons scope scopes =>
      have hBind := bind_withDefinition s.symbols scope
        ⟨name.name, kind, span, visibleFrom, isMutable,
          none⟩
      dsimp only at hBind ⊢
      rw [outcome_bind, outcome_get]
      dsimp only [Symbols.addDefinition]
      rw [hBind, ParserState.declared]
      dsimp only
      cases s.symbols.hasLocal scope name.name with
      | true => rfl
      | false => rfl

theorem outcome_inNewScope
    (body : ScopeId → Parser α)
    (s : ParserState) :
    (inNewScope body).outcome s =
      match (body s.newScope).outcome s.opened with
      | (.ok a, u) => (.ok a, u.closed)
      | (.error d, u) => (.error d, u.closed) := by
  have hOpen :
      openScope.outcome s = (.ok s.newScope, s.opened) :=
    rfl
  have hClose (u : ParserState) :
      closeScope.outcome u = (.ok ⟨⟩, u.closed) :=
    rfl
  unfold inNewScope
  rw [outcome_bind, hOpen]
  simp only
  rw [outcome_bind, outcome_tryCatch]
  rcases (body s.newScope).outcome s.opened with
    ⟨_ | _, u⟩
  · simp only [outcome_bind, hClose, outcome_throw]
  · simp only [outcome_bind, hClose, outcome_pure]

theorem exists_of_outcome_inNewScope
    {body : ScopeId → Parser α}
    {a : α}
    {s t : ParserState}
    (hRun : (inNewScope body).outcome s = (.ok a, t)) :
    ∃ u,
      (body s.newScope).outcome s.opened = (.ok a, u) ∧
        t = u.closed := by
  rw [outcome_inNewScope] at hRun
  split at hRun
  · rename_i b u hBody
    cases hRun
    exact ⟨u, hBody, rfl⟩
  · cases hRun

/- A failure is reported, and the run goes on behind it. -/
theorem outcome_recovering
    (stop : TokenStream → Bool)
    (p : Parser α)
    (s : ParserState) :
    (recovering stop p).outcome s =
      match p.outcome s with
      | (.ok a, t) => (.ok (some a), t)
      | (.error d, t) => (.ok none, s.resumed stop t d) := by
  have hMap :
      (some <$> p).outcome s =
        match p.outcome s with
        | (.ok a, t) => (.ok (some a), t)
        | (.error d, t) => (.error d, t) := by
    rw [map_eq_pure_bind, outcome_bind]
    rfl
  unfold recovering
  rw [outcome_bind, outcome_look]
  dsimp only
  rw [outcome_tryCatch, hMap]
  generalize p.outcome s = x
  rcases x with ⟨_ | _, t⟩
  · rename_i d
    simp only [recover, outcome_bind, outcome_report,
      outcome_look, outcome_ite, outcome_move,
      outcome_pure, id, ParserState.resumed,
      ParserState.reported]
    by_cases hSame : t.stream.index = s.stream.index
    · simp only [if_pos hSame]
      rfl
    · simp only [if_neg hSame]
  · rfl

/- A loop stops where its step gives nothing. -/
theorem outcome_loopWithin_none
    {step : α → Parser (Option α)}
    {a : α}
    {s t : ParserState}
    (hStep : (step a).outcome s = (.ok none, t))
    (budget : List Token) :
    (loopWithin step budget a).outcome s = (.ok a, t) := by
  cases budget with
  | nil =>
      rw [loopWithin, outcome_bind, hStep]
      rfl
  | cons token budget =>
      rw [loopWithin, outcome_bind, hStep]
      rfl

/- A text is accepted by runs that report nothing. -/
theorem parse_eq
    (source file : String)
    (p : Parser α) :
    parse source file p =
      match p.outcome (.start (.ofSource source file) file)
        with
      | (.ok a, s) =>
          if s.diagnostics.isEmpty then .ok a
          else .error s.diagnostics
      | (.error d, s) => .error (s.diagnostics ++ [d]) :=
  rfl

/- The end of the text goes on no expression. -/
theorem ne_eof_of_extender
    {kind : TokenKind}
    {x : Extender × Power}
    (hKind : kind.extender? = some x) :
    kind ≠ .eof := by
  rintro rfl
  cases hKind

/- The end of the text starts no expression. -/
theorem ne_eof_of_starter
    {kind : TokenKind}
    {starter : Starter}
    (hKind : kind.starter? = some starter) :
    kind ≠ .eof := by
  rintro rfl
  cases hKind

/- The end of the text stands for no name. -/
theorem ne_eof_of_isName
    {kind : TokenKind}
    (hName : kind.isName) :
    kind ≠ .eof := by
  rintro rfl
  cases hName

end Parser

end SourceCheck
