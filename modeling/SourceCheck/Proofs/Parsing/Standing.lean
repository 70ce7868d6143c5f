import SourceCheck.Proofs.Parsing.Run

/-
  Parsers that report at tokens.

  Whatever is known of all tokens of a text stays known of
  the tokens that a parser sees, and of those it takes.  So
  every diagnostic, be it reported or the one that stops the
  parser, stands at the start of a token of the text.  What a
  parser gives may be known in the same way.

  Key definitions include:
    * `IsStart`
    * `ParserState.Shows`
    * `Parser.Locates`

  Key theorems include:
    * `Parser.Locates.bind`
    * `Parser.locates_declare`
    * `Parser.locates_recovering`
    * `Parser.locates_separated`
-/

namespace SourceCheck

------------------------------------------------------------
-- States
------------------------------------------------------------

/- A token of which so much is known starts at the place. -/
def IsStart (T : Token → Prop) (p : Position) : Prop :=
  ∃ t, T t ∧ p = t.span.start

theorem isStart_of_token
    {T : Token → Prop}
    {t : Token}
    (hToken : T t) :
    IsStart T t.span.start :=
  ⟨t, hToken, rfl⟩

/- So much is known of all tokens of a stream. -/
structure TokenStream.Shows
    (T : Token → Prop)
    (s : TokenStream) :
    Prop where
  before : ∀ t ∈ s.before, T t
  ahead : ∀ t ∈ s.ahead, T t
  last : T s.last

namespace TokenStream.Shows

variable {T : Token → Prop}
variable {s : TokenStream}

theorem current (hShows : s.Shows T) : T s.current := by
  unfold TokenStream.current
  cases hAhead : s.ahead with
  | nil => exact hShows.last
  | cons t ts =>
      exact hShows.ahead t (hAhead ▸ List.mem_cons_self)

theorem previous (hShows : s.Shows T) : T s.previous := by
  unfold TokenStream.previous
  cases hBefore : s.before with
  | nil => exact hShows.current
  | cons t ts =>
      exact hShows.before t (hBefore ▸ List.mem_cons_self)

theorem consume (hShows : s.Shows T) :
    s.consume.Shows T := by
  unfold TokenStream.consume
  split
  · exact hShows
  · rename_i t ts hAhead
    have hAll := hShows.ahead
    rw [hAhead] at hAll
    rcases List.forall_mem_cons.1 hAll with ⟨hFirst, hRest⟩
    exact
      ⟨List.forall_mem_cons.2 ⟨hFirst, hShows.before⟩,
        hRest, hShows.last⟩

theorem unconsume (hShows : s.Shows T) :
    s.unconsume.Shows T := by
  unfold TokenStream.unconsume
  split
  · exact hShows
  · rename_i t ts hBefore
    have hAll := hShows.before
    rw [hBefore] at hAll
    rcases List.forall_mem_cons.1 hAll with ⟨hFirst, hRest⟩
    exact ⟨hRest,
      List.forall_mem_cons.2 ⟨hFirst, hShows.ahead⟩,
      hShows.last⟩

theorem skipTo
    (stop : TokenStream → Bool)
    (hShows : s.Shows T) :
    (s.skipTo stop).Shows T := by
  fun_induction TokenStream.skipTo stop s with
  | case1 s _ ih => exact ih hShows.consume
  | case2 s _ => exact hShows

end TokenStream.Shows

/-
  So much is known of all tokens, and everything that was
  reported stands at the start of one of them.
-/
structure ParserState.Shows
    (T : Token → Prop)
    (s : ParserState) :
    Prop where
  stream : s.stream.Shows T
  reports : ∀ d ∈ s.diagnostics, IsStart T d.position

namespace ParserState.Shows

variable {T : Token → Prop}
variable {s t : ParserState}

theorem token (hShows : s.Shows T) : T s.token :=
  hShows.stream.current

theorem reported
    (hShows : s.Shows T)
    {d : Diagnostic}
    (hPlace : IsStart T d.position) :
    (s.reported d).Shows T where
  stream := hShows.stream
  reports :=
    List.forall_mem_append.2
      ⟨hShows.reports, List.forall_mem_singleton.2 hPlace⟩

/- A declared name stands at a token, if it is reported. -/
theorem declared
    (hShows : s.Shows T)
    {p : Position}
    (hPlace : IsStart T p)
    (scope : ScopeId)
    (d : Definition) :
    (s.declared scope d p).Shows T := by
  unfold ParserState.declared
  split
  · have hSame :
        (s.withSymbols (s.symbols.addDefinition d).2).Shows
          T :=
      ⟨hShows.stream, hShows.reports⟩
    exact hSame.reported hPlace
  · exact ⟨hShows.stream, hShows.reports⟩

/- So does a failure that is recovered from. -/
theorem resumed
    (hShows : t.Shows T)
    {d : Diagnostic}
    (hPlace : IsStart T d.position)
    (stop : TokenStream → Bool)
    (s : ParserState) :
    (s.resumed stop t d).Shows T := by
  have hReported := hShows.reported hPlace
  unfold ParserState.resumed
  dsimp only
  split
  · exact ⟨hReported.stream.consume.skipTo stop,
      hReported.reports⟩
  · exact ⟨hReported.stream.skipTo stop, hReported.reports⟩

end ParserState.Shows

------------------------------------------------------------
-- Parsers
------------------------------------------------------------

namespace Parser

variable {α β : Type}
variable {T : Token → Prop}

/-
  The result has the property, or the failure stands at a
  token.
-/
def Located
    (T : Token → Prop)
    (Q : α → Prop) :
    Except Diagnostic α → Prop
  | .ok a => Q a
  | .error d => IsStart T d.position

/-
  The parser reports and fails at tokens only, and what it
  gives has the property.
-/
def Locates
    (T : Token → Prop)
    (p : Parser α)
    (Q : α → Prop) :
    Prop :=
  ∀ s : ParserState,
    s.Shows T →
      (p.outcome s).2.Shows T ∧ Located T Q (p.outcome s).1

section Rules

variable {p q : Parser α}
variable {f : α → Parser β}
variable {Q : α → Prop}
variable {R : β → Prop}

theorem locates_pure
    {a : α}
    (hResult : Q a) :
    Locates T (pure a) Q :=
  fun _ hShows => ⟨hShows, hResult⟩

theorem Locates.bind
    (hFirst : Locates T p Q)
    (hRest : ∀ a, Q a → Locates T (f a) R) :
    Locates T (p >>= f) R := by
  intro s hShows
  have hOutcome := hFirst s hShows
  rw [outcome_bind]
  generalize p.outcome s = x at hOutcome ⊢
  rcases x with ⟨d | a, t⟩
  · exact hOutcome
  · exact hRest a hOutcome.2 t hOutcome.1

theorem Locates.imp
    {S : α → Prop}
    (hLocates : Locates T p Q)
    (hImp : ∀ a, Q a → S a) :
    Locates T p S := by
  intro s hShows
  have hOutcome := hLocates s hShows
  generalize p.outcome s = x at hOutcome ⊢
  rcases x with ⟨d | a, t⟩
  · exact hOutcome
  · exact ⟨hOutcome.1, hImp a hOutcome.2⟩

theorem locates_ite
    {c : Prop}
    [Decidable c]
    (hThen : c → Locates T p Q)
    (hElse : ¬ c → Locates T q Q) :
    Locates T (if c then p else q) Q := by
  split
  · rename_i hHolds
    exact hThen hHolds
  · rename_i hNot
    exact hElse hNot

/- A choice of which nothing needs to be known. -/
theorem locates_choice
    {c : Prop}
    [Decidable c]
    (hThen : Locates T p Q)
    (hElse : Locates T q Q) :
    Locates T (if c then p else q) Q :=
  locates_ite (fun _ => hThen) fun _ => hElse

------------------------------------------------------------
-- Tokens
------------------------------------------------------------

theorem locates_get :
    Locates T get (ParserState.Shows T) :=
  fun _ hShows => ⟨hShows, hShows⟩

theorem locates_look
    {see : TokenStream → α}
    (hSee : ∀ s : TokenStream, s.Shows T → Q (see s)) :
    Locates T (look see) Q :=
  fun s hShows => ⟨hShows, hSee s.stream hShows.stream⟩

theorem locates_see (see : TokenStream → α) :
    Locates T (look see) (fun _ => True) :=
  locates_look fun _ _ => trivial

theorem locates_checkName :
    Locates T checkName (fun _ => True) :=
  locates_see _

theorem locates_current : Locates T current T :=
  locates_look fun _ hShows => hShows.current

theorem locates_previous : Locates T previous T :=
  locates_look fun _ hShows => hShows.previous

theorem locates_position : Locates T position (IsStart T) :=
  locates_look fun _ hShows =>
    isStart_of_token hShows.current

theorem locates_move
    {f : TokenStream → TokenStream}
    (hMove :
      ∀ s : TokenStream, s.Shows T → (f s).Shows T) :
    Locates T (move f) (fun _ => True) :=
  fun s hShows =>
    ⟨⟨hMove s.stream hShows.stream, hShows.reports⟩,
      trivial⟩

theorem locates_consume : Locates T consume T :=
  fun _ hShows =>
    ⟨⟨hShows.stream.consume, hShows.reports⟩,
      hShows.token⟩

theorem locates_unconsume :
    Locates T unconsume (fun _ => True) :=
  locates_move fun _ hShows => hShows.unconsume

theorem locates_accept (kind : TokenKind) :
    Locates T (accept kind) (fun _ => True) := by
  unfold accept
  refine (locates_see _).bind fun _ _ => ?_
  exact locates_choice
    (locates_consume.bind fun _ _ => locates_pure trivial)
    (locates_pure trivial)

/- A token that may stand for a name is one if it is taken. -/
theorem locates_ifName
    {g : Token → Parser α}
    (hThen :
      ∀ t, T t → t.kind.isName → Locates T (g t) Q)
    (hElse : Locates T q Q) :
    Locates T
      (do if ← checkName then g (← consume) else q) Q := by
  intro s hShows
  rw [outcome_bind, outcome_checkName]
  dsimp only
  cases hName : s.token.kind.isName with
  | false => exact hElse s hShows
  | true =>
      rw [if_pos rfl, outcome_bind, outcome_consume]
      exact hThen s.token hShows.token hName s.next
        (locates_consume s hShows).1

------------------------------------------------------------
-- Failures and reports
------------------------------------------------------------

theorem locates_fail
    (problem : Problem)
    {p : Position}
    (hPlace : IsStart T p) :
    Locates T (fail problem p : Parser α) Q :=
  fun _ hShows => ⟨hShows, hPlace⟩

theorem locates_unexpected (expected : String) :
    Locates T (unexpected expected : Parser α) Q := by
  refine locates_current.bind fun t hToken s hShows => ?_
  refine ⟨hShows, t, hToken, ?_⟩
  unfold unexpectedToken
  split <;> rfl

theorem locates_expect
    (kind : TokenKind)
    (expected : String) :
    Locates T (expect kind expected) T :=
  (locates_see _).bind fun _ _ =>
    locates_choice locates_consume
      (locates_unexpected expected)

/- The token of a name that is expected. -/
theorem locates_expectName :
    Locates T expectName
      (fun t => T t ∧ t.kind.isName) := by
  intro s hShows
  unfold expectName
  rw [outcome_bind, outcome_checkName]
  dsimp only
  cases hName : s.token.kind.isName with
  | false => exact locates_unexpected "identifier" s hShows
  | true =>
      exact ⟨(locates_consume s hShows).1, hShows.token,
        hName⟩

------------------------------------------------------------
-- Scopes, definitions and recovery
------------------------------------------------------------

theorem locates_declare
    {name : Token}
    (hName : T name)
    (kind : DefinitionKind)
    (span : Span)
    (visibleFrom : Nat)
    (isMutable : Bool) :
    Locates T (declare name kind span visibleFrom isMutable)
      (fun _ => True) := by
  intro s hShows
  rw [outcome_declare]
  cases s.scopes with
  | nil => exact ⟨hShows, isStart_of_token hShows.token⟩
  | cons scope scopes =>
      exact
        ⟨hShows.declared (isStart_of_token hName) scope _,
          trivial⟩

theorem locates_inNewScope
    {body : ScopeId → Parser α}
    (hBody : ∀ scope, Locates T (body scope) Q) :
    Locates T (inNewScope body) Q := by
  intro s hShows
  have hOutcome :=
    hBody s.newScope s.opened
      ⟨hShows.stream, hShows.reports⟩
  rw [outcome_inNewScope]
  generalize (body s.newScope).outcome s.opened = x
    at hOutcome ⊢
  rcases x with ⟨d | a, t⟩
  · exact ⟨⟨hOutcome.1.stream, hOutcome.1.reports⟩,
      hOutcome.2⟩
  · exact ⟨⟨hOutcome.1.stream, hOutcome.1.reports⟩,
      hOutcome.2⟩

theorem locates_takeSymbols :
    Locates T takeSymbols (fun _ => True) :=
  fun _ hShows =>
    ⟨⟨hShows.stream, hShows.reports⟩, trivial⟩

/- Something, if anything is given, with the property. -/
def IfSome (Q : α → Prop) (o : Option α) : Prop :=
  ∀ a, o = some a → Q a

theorem ifSome_none : IfSome Q none :=
  nofun

theorem ifSome_some {a : α} (hResult : Q a) :
    IfSome Q (some a) := by
  rintro _ ⟨⟩
  exact hResult

theorem locates_recovering
    (hBody : Locates T p Q)
    (stop : TokenStream → Bool) :
    Locates T (recovering stop p) (IfSome Q) := by
  intro s hShows
  have hOutcome := hBody s hShows
  rw [outcome_recovering]
  generalize p.outcome s = x at hOutcome ⊢
  rcases x with ⟨d | a, t⟩
  · exact ⟨hOutcome.1.resumed hOutcome.2 stop s,
      ifSome_none⟩
  · exact ⟨hOutcome.1, ifSome_some hOutcome.2⟩

------------------------------------------------------------
-- Repetition
------------------------------------------------------------

theorem locates_loopWithin
    {step : α → Parser (Option α)}
    (hSteps :
      ∀ a, Q a → Locates T (step a) (IfSome Q)) :
    ∀ (budget : List Token) (a : α),
      Q a → Locates T (loopWithin step budget a) Q
  | [], a, hResult => by
      refine (hSteps a hResult).bind fun o hSome => ?_
      cases o with
      | none => exact locates_pure hResult
      | some b => exact locates_pure (hSome b rfl)
  | _ :: budget, a, hResult => by
      refine (hSteps a hResult).bind fun o hSome => ?_
      cases o with
      | none => exact locates_pure hResult
      | some b =>
          exact locates_loopWithin hSteps budget b
            (hSome b rfl)

theorem locates_loop
    {step : α → Parser (Option α)}
    (hSteps : ∀ a, Q a → Locates T (step a) (IfSome Q))
    {a : α}
    (hFirst : Q a) :
    Locates T (loop step a) Q :=
  (locates_see (·.ahead)).bind fun budget _ =>
    locates_loopWithin hSteps budget a hFirst

theorem locates_collectWithin
    {step : Parser (Option α)}
    (hStep : Locates T step (IfSome Q)) :
    ∀ budget : List Token,
      Locates T (collectWithin step budget)
        (fun as => ∀ a ∈ as, Q a)
  | [] => by
      refine hStep.bind fun o hSome => locates_pure ?_
      exact fun a hMember =>
        hSome a (Option.mem_toList.1 hMember)
  | _ :: budget => by
      refine hStep.bind fun o hSome => ?_
      cases o with
      | none => exact locates_pure nofun
      | some a =>
          refine (locates_collectWithin hStep budget).bind
            fun as hOthers => locates_pure ?_
          exact List.forall_mem_cons.2
            ⟨hSome a rfl, hOthers⟩

theorem locates_collect
    {step : Parser (Option α)}
    (hStep : Locates T step (IfSome Q)) :
    Locates T (collect step) (fun as => ∀ a ∈ as, Q a) :=
  (locates_see (·.ahead)).bind fun budget _ =>
    locates_collectWithin hStep budget

theorem locates_separated
    (separator terminator : TokenKind)
    {item : Parser α}
    (hItem : Locates T item Q) :
    Locates T (separated separator terminator item)
      (fun as => ∀ a ∈ as, Q a) := by
  have hNext :
      Locates T (nextItem separator terminator item)
        (IfSome Q) := by
    refine (locates_accept separator).bind fun _ _ => ?_
    refine locates_choice ?_ (locates_pure ifSome_none)
    refine (locates_see _).bind fun _ _ => ?_
    refine locates_choice (locates_pure ifSome_none) ?_
    exact hItem.bind fun a hResult =>
      locates_pure (ifSome_some hResult)
  refine (locates_see _).bind fun _ _ => ?_
  refine locates_choice (locates_pure nofun) ?_
  refine hItem.bind fun a hFirst => ?_
  refine (locates_collect hNext).bind fun as hOthers => ?_
  exact locates_pure
    (List.forall_mem_cons.2 ⟨hFirst, hOthers⟩)

end Rules

end Parser

end SourceCheck
