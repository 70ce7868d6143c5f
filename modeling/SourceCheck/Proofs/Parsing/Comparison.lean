import SourceCheck.Proofs.Layout.Alignment
import SourceCheck.Proofs.Parsing.Cursor
import SourceCheck.Proofs.Parsing.Run

/-
  Two runs of a parser side by side.

  A `Comparison` fixes what the two runs have in common: the
  offsets that correspond, and the tokens of the first run.
  It also fixes a property that every step of the first run
  keeps, so that a comparison of a run with itself tells
  what holds along every run.

  Two parsers agree if they end alike, with results that are
  related and states that are in step.  For every action
  that the grammar is built from, one statement says that it
  agrees with itself.

  Key definitions include:
    * `Problem.concernsSource`
    * `ParserInvariant`
    * `Comparison`
    * `Comparison.InStep`
    * `Comparison.Outcomes`
    * `Comparison.Agree`
-/

namespace SourceCheck

------------------------------------------------------------
-- What steps keep
------------------------------------------------------------

/-
  The problem can be found in a source text.  The others
  would be mistakes of the checker itself.
-/
def Problem.concernsSource : Problem → Bool
  | .expectedInvocationOrReference => false
  | .emptyScopeStack => false
  | .unresolvedDefinition _ => false
  | _ => true

/- A property of states that every step of parsers keeps. -/
structure ParserInvariant where
  holds : ParserState → Prop
  next :
    ∀ {s}, holds s → s.token.kind ≠ .eof → holds s.next
  reported :
    ∀ {s d},
      holds s →
        d.problem.concernsSource →
          holds (s.reported d)
  opened : ∀ {s}, holds s → holds s.opened
  closed : ∀ {s}, holds s → holds s.closed
  declared :
    ∀ {s scope d p},
      s.scopes.head? = some scope →
        holds s →
          holds (s.declared scope d p)

/- A move takes the first token that is ahead. -/
theorem TokenStream.ahead_consume (s : TokenStream) :
    s.consume.ahead = s.ahead.tail := by
  unfold consume
  cases hAhead : s.ahead with
  | nil => simp [hAhead]
  | cons t ts => rfl

/- The token that a move takes is behind the cursor. -/
theorem TokenStream.before_consume (s : TokenStream) :
    s.consume.before = s.ahead.head?.toList ++ s.before := by
  unfold consume
  cases s.ahead with
  | nil => rfl
  | cons t ts => rfl

section Lists

variable {α : Type}
variable {R : α → α → Prop}
variable {as bs : List α}

theorem forall₂_headD
    (hLists : List.Forall₂ R as bs)
    {a b : α}
    (hDefault : R a b) :
    R (as.headD a) (bs.headD b) := by
  cases hLists with
  | nil => exact hDefault
  | cons hHead _ => exact hHead

theorem forall₂_headD_of_ne
    (hLists : List.Forall₂ R as bs)
    (hNe : as ≠ [])
    (a b : α) :
    R (as.headD a) (bs.headD b) := by
  cases hLists with
  | nil => exact absurd rfl hNe
  | cons hHead _ => exact hHead

theorem forall₂_tail
    (hLists : List.Forall₂ R as bs) :
    List.Forall₂ R as.tail bs.tail := by
  cases hLists with
  | nil => exact .nil
  | cons _ hTail => exact hTail

theorem forall₂_head?_toList
    (hLists : List.Forall₂ R as bs) :
    List.Forall₂ R as.head?.toList bs.head?.toList := by
  cases hLists with
  | nil => exact .nil
  | cons hHead _ => exact .cons hHead .nil

end Lists

/-
  Which offsets correspond in two runs, what the steps of
  the first run keep, and its tokens, of which the last one
  ends the text.
-/
structure Comparison where
  alignment : Alignment
  invariant : ParserInvariant
  text : List Token
  ends :
    ∃ tokens last,
      text = tokens ++ [last] ∧ last.kind = .eof

namespace Comparison

open SourceCheck.Parser

variable {C : Comparison}
variable {scopes : List ScopeId}

------------------------------------------------------------
-- States in step
------------------------------------------------------------

/- Two states are the same but for places. -/
structure InStep
    (C : Comparison)
    (scopes : List ScopeId)
    (s t : ParserState) :
    Prop where
  text : s.stream.tokens = C.text
  ahead_ne : s.stream.ahead ≠ []
  before :
    List.Forall₂ C.alignment.Tokens
      s.stream.before t.stream.before
  ahead :
    List.Forall₂ C.alignment.Tokens
      s.stream.ahead t.stream.ahead
  scopes_left : s.scopes = scopes
  scopes_right : t.scopes = scopes
  symbols : C.alignment.SameSymbols s.symbols t.symbols
  problems :
    s.diagnostics.map (·.problem) =
      t.diagnostics.map (·.problem)
  holds : C.invariant.holds s

namespace InStep

variable {s t : ParserState}

/- The cursors stand at corresponding tokens. -/
theorem token (hStep : C.InStep scopes s t) :
    C.alignment.Tokens s.token t.token :=
  forall₂_headD_of_ne hStep.ahead hStep.ahead_ne _ _

theorem kind_eq (hStep : C.InStep scopes s t) :
    s.token.kind = t.token.kind :=
  hStep.token.kind

/- The tokens before the cursors correspond. -/
theorem previous (hStep : C.InStep scopes s t) :
    C.alignment.Tokens
      s.stream.previous t.stream.previous :=
  forall₂_headD hStep.before hStep.token

/- As many tokens were passed. -/
theorem index_eq (hStep : C.InStep scopes s t) :
    s.stream.index = t.stream.index :=
  hStep.before.length_eq

/- Before the end of the text, a token follows the next. -/
theorem next_ahead_ne
    (hStep : C.InStep scopes s t)
    (hMore : s.token.kind ≠ .eof) :
    s.next.stream.ahead ≠ [] := by
  rcases C.ends with ⟨tokens, last, hText, hLast⟩
  have hTokens := hStep.text
  intro hNil
  unfold ParserState.next TokenStream.consume at hNil
  unfold ParserState.token TokenStream.current at hMore
  unfold TokenStream.tokens at hTokens
  cases hAhead : s.stream.ahead with
  | nil => exact hStep.ahead_ne hAhead
  | cons a as =>
      simp only [hAhead] at hNil
      simp only [hAhead, List.headD_cons] at hMore
      subst hNil
      rw [hAhead, hText] at hTokens
      have hEq :=
        (List.append_inj_right' hTokens rfl : [a] = [last])
      cases hEq
      exact hMore hLast

/- States stay in step when both pass a token. -/
theorem next
    (hStep : C.InStep scopes s t)
    (hMore : s.token.kind ≠ .eof) :
    C.InStep scopes s.next t.next where
  text := by
    rw [← hStep.text]
    exact TokenStream.tokens_consume s.stream
  ahead_ne := hStep.next_ahead_ne hMore
  before := by
    simp only [ParserState.next,
      TokenStream.before_consume]
    exact List.rel_append
      (forall₂_head?_toList hStep.ahead) hStep.before
  ahead := by
    simp only [ParserState.next, TokenStream.ahead_consume]
    exact forall₂_tail hStep.ahead
  scopes_left := hStep.scopes_left
  scopes_right := hStep.scopes_right
  symbols := hStep.symbols
  problems := hStep.problems
  holds := C.invariant.next hStep.holds hMore

/- States stay in step when both report a problem. -/
theorem reported
    (hStep : C.InStep scopes s t)
    {d e : Diagnostic}
    (hProblem : d.problem = e.problem)
    (hSource : d.problem.concernsSource) :
    C.InStep scopes (s.reported d) (t.reported e) where
  text := hStep.text
  ahead_ne := hStep.ahead_ne
  before := hStep.before
  ahead := hStep.ahead
  scopes_left := hStep.scopes_left
  scopes_right := hStep.scopes_right
  symbols := hStep.symbols
  problems := by
    simp only [ParserState.reported, List.map_append,
      hStep.problems, List.map_cons, List.map_nil, hProblem]
  holds := C.invariant.reported hStep.holds hSource

/- Scopes are numbered alike. -/
theorem newScope_eq (hStep : C.InStep scopes s t) :
    s.newScope = t.newScope := by
  simp only [ParserState.newScope, hStep.symbols.scopes]

/- States stay in step when both open a scope. -/
theorem opened (hStep : C.InStep scopes s t) :
    C.InStep (s.newScope :: scopes) s.opened t.opened where
  text := hStep.text
  ahead_ne := hStep.ahead_ne
  before := hStep.before
  ahead := hStep.ahead
  scopes_left := by
    simp only [ParserState.opened, hStep.scopes_left]
  scopes_right := by
    simp only [ParserState.opened, hStep.scopes_right,
      hStep.newScope_eq]
  symbols := by
    refine ⟨?_, hStep.symbols.definitions⟩
    simp only [ParserState.opened, Symbols.openScope,
      hStep.symbols.scopes, hStep.scopes_left,
      hStep.scopes_right]
  problems := hStep.problems
  holds := C.invariant.opened hStep.holds

/- States stay in step when both close a scope. -/
theorem closed
    {scope : ScopeId}
    (hStep : C.InStep (scope :: scopes) s t) :
    C.InStep scopes s.closed t.closed where
  text := hStep.text
  ahead_ne := hStep.ahead_ne
  before := hStep.before
  ahead := hStep.ahead
  scopes_left := by
    simp only [ParserState.closed, hStep.scopes_left,
      List.tail_cons]
  scopes_right := by
    simp only [ParserState.closed, hStep.scopes_right,
      List.tail_cons]
  symbols := hStep.symbols
  problems := hStep.problems
  holds := C.invariant.closed hStep.holds

/- States stay in step when both declare the same. -/
theorem declared
    {scope : ScopeId}
    (hStep : C.InStep scopes s t)
    (hScope : scopes.head? = some scope)
    {d e : Definition}
    (hDefinitions : C.alignment.Definitions d e)
    (p q : Position) :
    C.InStep scopes (s.declared scope d p)
      (t.declared scope e q) := by
  have hHolds :
      C.invariant.holds (s.declared scope d p) := by
    apply C.invariant.declared _ hStep.holds
    rw [hStep.scopes_left]
    exact hScope
  have hName := hDefinitions.name
  have hLocal :
      s.symbols.hasLocal scope d.name =
        t.symbols.hasLocal scope e.name := by
    simp only [Symbols.hasLocal, Symbols.local?,
      hStep.symbols.scopes, hName]
  have hAll :
      List.Forall₂ C.alignment.Definitions
        (s.symbols.definitions.push d).toList
        (t.symbols.definitions.push e).toList := by
    simp only [Array.toList_push]
    exact List.rel_append hStep.symbols.definitions
      (.cons hDefinitions .nil)
  unfold ParserState.declared at hHolds ⊢
  rw [← hLocal]
  cases hBound : s.symbols.hasLocal scope d.name with
  | true =>
      simp only [hBound, if_true] at hHolds ⊢
      exact
        { text := hStep.text
          ahead_ne := hStep.ahead_ne
          before := hStep.before
          ahead := hStep.ahead
          scopes_left := hStep.scopes_left
          scopes_right := hStep.scopes_right
          symbols := ⟨hStep.symbols.scopes, hAll⟩
          problems := by
            simp only [ParserState.reported,
              ParserState.withSymbols, List.map_append,
              hStep.problems, List.map_cons, List.map_nil,
              hName]
          holds := hHolds }
  | false =>
      simp only [hBound, Bool.false_eq_true, if_false]
        at hHolds ⊢
      exact
        { text := hStep.text
          ahead_ne := hStep.ahead_ne
          before := hStep.before
          ahead := hStep.ahead
          scopes_left := hStep.scopes_left
          scopes_right := hStep.scopes_right
          symbols := by
            refine ⟨?_, hAll⟩
            simp only [ParserState.bound,
              ParserState.withSymbols, hStep.symbols.scopes,
              hStep.symbols.size_eq, hName]
          problems := hStep.problems
          holds := hHolds }

/- States stay in step on the way to a checkpoint. -/
theorem skipTo
    {s t : ParserState}
    {stop : TokenStream → Bool}
    (hStop :
      ∀ {u v},
        C.InStep scopes u v →
          stop u.stream = stop v.stream)
    (hStep : C.InStep scopes s t) :
    C.InStep scopes
      { s with stream := s.stream.skipTo stop }
      { t with stream := t.stream.skipTo stop } := by
  by_cases hGo : s.stream.hasMore && !stop s.stream
  · have hMore : s.token.kind ≠ .eof := by
      simp only [Bool.and_eq_true] at hGo
      exact of_decide_eq_true hGo.1
    have hGoRight :
        (t.stream.hasMore && !stop t.stream) = true := by
      rw [← hStop hStep, ← hGo]
      congr 1
      have hKind := hStep.kind_eq
      unfold ParserState.token at hKind
      simp only [TokenStream.hasMore, hKind]
    have hLeft :
        s.stream.skipTo stop = s.next.stream.skipTo stop := by
      rw [TokenStream.skipTo, if_pos hGo]
      rfl
    have hRight :
        t.stream.skipTo stop = t.next.stream.skipTo stop := by
      rw [TokenStream.skipTo, if_pos hGoRight]
      rfl
    have hShorter := ParserState.left_next hMore
    rw [hLeft, hRight]
    exact skipTo hStop (hStep.next hMore)
  · have hGoRight :
        ¬ (t.stream.hasMore && !stop t.stream) = true := by
      rw [← hStop hStep]
      have hKind := hStep.kind_eq
      unfold ParserState.token at hKind
      simpa only [TokenStream.hasMore, hKind] using hGo
    rw [TokenStream.skipTo, if_neg hGo]
    rw [TokenStream.skipTo, if_neg hGoRight]
    exact hStep
termination_by s.left

/-
  A cursor that passed as many tokens as before stands where
  it stood.
-/
theorem stream_eq_of_index_eq
    {u v : ParserState}
    (hStep : C.InStep scopes s t)
    (hOther : C.InStep scopes u v)
    (hIndex : u.stream.index = s.stream.index) :
    u.token = s.token := by
  have hTokens := hStep.text.trans hOther.text.symm
  unfold TokenStream.tokens at hTokens
  have hAhead : s.stream.ahead = u.stream.ahead := by
    apply List.append_inj_right hTokens
    simpa [TokenStream.index] using hIndex.symm
  unfold ParserState.token TokenStream.current
  cases hCons : u.stream.ahead with
  | nil => exact absurd hCons hOther.ahead_ne
  | cons a as =>
      rw [hAhead, hCons]
      rfl

end InStep

------------------------------------------------------------
-- Parsers that agree
------------------------------------------------------------

variable {α β γ δ : Type}
variable {R : α → β → Prop}
variable {S : γ → δ → Prop}

/-
  Two runs end alike: with related results, or because of
  the same problem.
-/
inductive Outcomes
    (C : Comparison)
    (scopes : List ScopeId)
    (R : α → β → Prop) :
    Except Diagnostic α × ParserState →
      Except Diagnostic β × ParserState → Prop where
  | ok {a b s t}
      (hResults : R a b)
      (hStep : C.InStep scopes s t) :
      Outcomes C scopes R (.ok a, s) (.ok b, t)
  | error {d e s t}
      (hProblem : d.problem = e.problem)
      (hSource : d.problem.concernsSource)
      (hStep : C.InStep scopes s t) :
      Outcomes C scopes R (.error d, s) (.error e, t)

/- Two parsers end alike on all states that are in step. -/
def Agree
    (C : Comparison)
    (scopes : List ScopeId)
    (R : α → β → Prop)
    (p : Parser α)
    (q : Parser β) :
    Prop :=
  ∀ s t,
    C.InStep scopes s t →
      C.Outcomes scopes R (p.outcome s) (q.outcome t)

/- Runs that end alike may be followed by others. -/
theorem Outcomes.bind
    {s t : ParserState}
    {p : Parser α}
    {q : Parser β}
    {f : α → Parser γ}
    {g : β → Parser δ}
    (hFirst :
      C.Outcomes scopes R (p.outcome s) (q.outcome t))
    (hRest :
      ∀ {a b}, R a b → C.Agree scopes S (f a) (g b)) :
    C.Outcomes scopes S
      ((p >>= f).outcome s) ((q >>= g).outcome t) := by
  rw [outcome_bind, outcome_bind]
  generalize p.outcome s = x at hFirst
  generalize q.outcome t = y at hFirst
  cases hFirst with
  | ok hResults hStep => exact hRest hResults _ _ hStep
  | error hProblem hSource hStep =>
      exact .error hProblem hSource hStep

theorem Agree.bind
    {p : Parser α}
    {q : Parser β}
    {f : α → Parser γ}
    {g : β → Parser δ}
    (hFirst : C.Agree scopes R p q)
    (hRest :
      ∀ {a b}, R a b → C.Agree scopes S (f a) (g b)) :
    C.Agree scopes S (p >>= f) (q >>= g) := by
  intro s t hStep
  exact (hFirst s t hStep).bind hRest

theorem agree_pure
    {a : α}
    {b : β}
    (hResults : R a b) :
    C.Agree scopes R (pure a) (pure b) := by
  intro s t hStep
  exact .ok hResults hStep

theorem agree_fail
    {problem : Problem}
    (hSource : problem.concernsSource)
    (p q : Position) :
    C.Agree scopes R (fail problem p) (fail problem q) := by
  intro s t hStep
  exact .error rfl hSource hStep

theorem agree_ite
    {c : Prop}
    [Decidable c]
    {p p' : Parser α}
    {q q' : Parser β}
    (hThen : C.Agree scopes R p q)
    (hElse : C.Agree scopes R p' q') :
    C.Agree scopes R
      (if c then p else p') (if c then q else q') := by
  split
  · exact hThen
  · exact hElse

------------------------------------------------------------
-- Tokens
------------------------------------------------------------

theorem agree_look
    {f : TokenStream → α}
    {g : TokenStream → β}
    (hLook :
      ∀ {s t},
        C.InStep scopes s t → R (f s.stream) (g t.stream)) :
    C.Agree scopes R (look f) (look g) := by
  intro s t hStep
  exact .ok (hLook hStep) hStep

theorem agree_current :
    C.Agree scopes C.alignment.Tokens current current :=
  agree_look fun hStep => hStep.token

theorem agree_previous :
    C.Agree scopes C.alignment.Tokens previous previous :=
  agree_look fun hStep => hStep.previous

theorem agree_position :
    C.Agree scopes (fun _ _ => True) position position :=
  agree_look fun _ => trivial

theorem agree_check (kind : TokenKind) :
    C.Agree scopes Eq (check kind) (check kind) :=
  agree_look fun hStep =>
    congrArg (fun k => decide (k = kind)) hStep.kind_eq

/- A token that does not end the text may be taken. -/
theorem InStep.consume
    {s t : ParserState}
    (hStep : C.InStep scopes s t)
    (hMore : s.token.kind ≠ .eof) :
    C.Outcomes scopes C.alignment.Tokens
      (Parser.consume.outcome s)
      (Parser.consume.outcome t) :=
  .ok hStep.token (hStep.next hMore)

/- The same test on both sides goes the same way. -/
theorem InStep.check
    {s t : ParserState}
    (hStep : C.InStep scopes s t)
    {kind : TokenKind}
    {p p' : Parser α}
    {q q' : Parser β}
    (hThen :
      s.token.kind = kind →
        C.Outcomes scopes R (p.outcome s) (q.outcome t))
    (hElse :
      s.token.kind ≠ kind →
        C.Outcomes scopes R
          (p'.outcome s) (q'.outcome t)) :
    C.Outcomes scopes R
      ((do if ← Parser.check kind then p else p' :
          Parser α).outcome s)
      ((do if ← Parser.check kind then q else q' :
          Parser β).outcome t) := by
  rw [outcome_bind, outcome_bind, outcome_check,
    outcome_check, ← hStep.kind_eq]
  dsimp only
  by_cases hIs : s.token.kind = kind
  · rw [decide_eq_true hIs]
    exact hThen hIs
  · rw [decide_eq_false hIs]
    exact hElse hIs

/- A list goes on alike on both sides. -/
theorem InStep.unlessEnd
    {s t : ParserState}
    (hStep : C.InStep scopes s t)
    {kind : TokenKind}
    {p p' : Parser α}
    {q q' : Parser β}
    (hThen :
      s.token.kind ≠ kind →
        s.token.kind ≠ .eof →
          C.Outcomes scopes R (p.outcome s) (q.outcome t))
    (hElse :
      C.Outcomes scopes R (p'.outcome s) (q'.outcome t)) :
    C.Outcomes scopes R
      ((do
          if !(← Parser.check kind) && (← hasMore) then
            p
          else
            p' : Parser α).outcome s)
      ((do
          if !(← Parser.check kind) && (← hasMore) then
            q
          else
            q' : Parser β).outcome t) := by
  rw [outcome_unlessEnd, outcome_unlessEnd,
    ← hStep.kind_eq]
  split
  · rename_i hGo
    exact hThen hGo.1 hGo.2
  · exact hElse

/- The same token is taken on both sides, if it is there. -/
theorem InStep.accept
    {s t : ParserState}
    (hStep : C.InStep scopes s t)
    {kind : TokenKind}
    (hKind : kind ≠ .eof)
    {p p' : Parser α}
    {q q' : Parser β}
    (hThen :
      s.token.kind = kind →
        C.InStep scopes s.next t.next →
          C.Outcomes scopes R
            (p.outcome s.next) (q.outcome t.next))
    (hElse :
      s.token.kind ≠ kind →
        C.Outcomes scopes R
          (p'.outcome s) (q'.outcome t)) :
    C.Outcomes scopes R
      ((do if ← Parser.accept kind then p else p' :
          Parser α).outcome s)
      ((do if ← Parser.accept kind then q else q' :
          Parser β).outcome t) := by
  rw [outcome_bind, outcome_bind, outcome_accept,
    outcome_accept, ← hStep.kind_eq]
  by_cases hIs : s.token.kind = kind
  · rw [if_pos hIs, if_pos hIs]
    exact hThen hIs (hStep.next (hIs ▸ hKind))
  · rw [if_neg hIs, if_neg hIs]
    exact hElse hIs

/- The test for a name goes the same way on both sides. -/
theorem InStep.checkName
    {s t : ParserState}
    (hStep : C.InStep scopes s t)
    {p p' : Parser α}
    {q q' : Parser β}
    (hThen :
      s.token.kind.isName →
        C.Outcomes scopes R (p.outcome s) (q.outcome t))
    (hElse :
      ¬ s.token.kind.isName →
        C.Outcomes scopes R
          (p'.outcome s) (q'.outcome t)) :
    C.Outcomes scopes R
      ((do if ← Parser.checkName then p else p' :
          Parser α).outcome s)
      ((do if ← Parser.checkName then q else q' :
          Parser β).outcome t) := by
  rw [outcome_bind, outcome_bind, outcome_checkName,
    outcome_checkName, ← hStep.kind_eq]
  dsimp only
  by_cases hIs : s.token.kind.isName
  · rw [hIs]
    exact hThen hIs
  · rw [eq_false_of_ne_true hIs]
    exact hElse hIs

theorem agree_accept
    {kind : TokenKind}
    (hKind : kind ≠ .eof) :
    C.Agree scopes Eq (accept kind) (accept kind) := by
  intro s t hStep
  rw [outcome_accept, outcome_accept, ← hStep.kind_eq]
  split
  · rename_i hIs
    exact .ok rfl (hStep.next (hIs ▸ hKind))
  · exact .ok rfl hStep

theorem agree_unexpected (expected : String) :
    C.Agree scopes R
      (unexpected expected) (unexpected expected) := by
  refine agree_current.bind fun {a b} hTokens => ?_
  intro s t hStep
  simp only [outcome_throw, unexpectedToken, ← hTokens.kind,
    hTokens.value]
  split
  · exact .error rfl rfl hStep
  · exact .error rfl rfl hStep

theorem agree_expect
    {kind : TokenKind}
    (hKind : kind ≠ .eof)
    (expected : String) :
    C.Agree scopes C.alignment.Tokens
      (expect kind expected) (expect kind expected) := by
  intro s t hStep
  apply hStep.check
  · intro hIs
    exact hStep.consume (hIs ▸ hKind)
  · intro _
    exact agree_unexpected expected s t hStep

theorem agree_expectName :
    C.Agree scopes C.alignment.Tokens
      expectName expectName := by
  intro s t hStep
  apply hStep.checkName
  · intro hName
    exact hStep.consume (ne_eof_of_isName hName)
  · intro _
    exact agree_unexpected _ s t hStep

------------------------------------------------------------
-- Scopes and definitions
------------------------------------------------------------

/- Definitions are made where a scope is open. -/
theorem agree_declare
    {scope : ScopeId}
    {a b : Token}
    (hName : C.alignment.Tokens a b)
    (kind : DefinitionKind)
    {u v : Span}
    {m n : Nat}
    (hVisible :
      C.alignment.starts m n ∨ C.alignment.stops m n)
    (isMutable : Bool) :
    C.Agree (scope :: scopes) Eq
      (declare a kind u m isMutable)
      (declare b kind v n isMutable) := by
  intro s t hStep
  rw [outcome_declare, outcome_declare, hStep.scopes_left,
    hStep.scopes_right, hStep.symbols.size_eq]
  refine .ok rfl (hStep.declared rfl ?_ _ _)
  exact ⟨hName.name_eq, rfl, rfl, rfl, hVisible⟩

theorem agree_inNewScope
    {body : ScopeId → Parser α}
    {body' : ScopeId → Parser β}
    (hBody :
      ∀ scope,
        C.Agree (scope :: scopes) R
          (body scope) (body' scope)) :
    C.Agree scopes R (inNewScope body) (inNewScope body') := by
  intro s t hStep
  rw [outcome_inNewScope, outcome_inNewScope,
    ← hStep.newScope_eq]
  have hOutcomes := hBody s.newScope _ _ hStep.opened
  generalize (body s.newScope).outcome s.opened = x
    at hOutcomes
  generalize (body' s.newScope).outcome t.opened = y
    at hOutcomes
  cases hOutcomes with
  | ok hResults hInner => exact .ok hResults hInner.closed
  | error hProblem hSource hInner =>
      exact .error hProblem hSource hInner.closed

------------------------------------------------------------
-- Recovery
------------------------------------------------------------

/-
  A failure costs the same on both sides, where the runs
  started before the end of the text.
-/
theorem InStep.recovering
    {s t : ParserState}
    (hStep : C.InStep scopes s t)
    (hMore : s.token.kind ≠ .eof)
    {stop : TokenStream → Bool}
    (hStop :
      ∀ {u v},
        C.InStep scopes u v →
          stop u.stream = stop v.stream)
    {p : Parser α}
    {q : Parser β}
    (hBody : C.Agree scopes R p q) :
    C.Outcomes scopes (Option.Rel R)
      ((recovering stop p).outcome s)
      ((recovering stop q).outcome t) := by
  rw [outcome_recovering, outcome_recovering]
  have hOutcomes := hBody s t hStep
  generalize p.outcome s = x at hOutcomes
  generalize q.outcome t = y at hOutcomes
  cases hOutcomes with
  | ok hResults hInner => exact .ok (.some hResults) hInner
  | @error d e u v hProblem hSource hInner =>
      have hReported := hInner.reported hProblem hSource
      have hIndex := hStep.index_eq
      have hIndexInner := hInner.index_eq
      unfold ParserState.resumed
      dsimp only
      by_cases hSame : u.stream.index = s.stream.index
      · have hSameRight :
            v.stream.index = t.stream.index := by
          omega
        have hToken : u.token.kind ≠ .eof := by
          rw [hStep.stream_eq_of_index_eq hInner hSame]
          exact hMore
        rw [if_pos hSame, if_pos hSameRight]
        exact .ok .none
          ((hReported.next hToken).skipTo hStop)
      · have hSameRight :
            ¬ v.stream.index = t.stream.index := by
          omega
        rw [if_neg hSame, if_neg hSameRight]
        exact .ok .none (hReported.skipTo hStop)

------------------------------------------------------------
-- Repetition
------------------------------------------------------------

theorem agree_loopWithin
    {step : α → Parser (Option α)}
    {step' : β → Parser (Option β)}
    (hSteps :
      ∀ {a b},
        R a b →
          C.Agree scopes (Option.Rel R)
            (step a) (step' b)) :
    ∀ {budget budget' : List Token},
      budget.length = budget'.length →
        ∀ {a b},
          R a b →
            C.Agree scopes R
              (loopWithin step budget a)
              (loopWithin step' budget' b)
  | [], [], _, a, b, hResults => by
      refine (hSteps hResults).bind fun hNext => ?_
      cases hNext with
      | none => exact agree_pure hResults
      | some hResults => exact agree_pure hResults
  | _ :: budget, _ :: budget', hLengths, a, b,
      hResults => by
      refine (hSteps hResults).bind fun hNext => ?_
      cases hNext with
      | none => exact agree_pure hResults
      | some hResults =>
          exact agree_loopWithin hSteps
            (Nat.succ.inj hLengths) hResults

theorem agree_loop
    {step : α → Parser (Option α)}
    {step' : β → Parser (Option β)}
    (hSteps :
      ∀ {a b},
        R a b →
          C.Agree scopes (Option.Rel R)
            (step a) (step' b))
    {a : α}
    {b : β}
    (hResults : R a b) :
    C.Agree scopes R (loop step a) (loop step' b) := by
  intro s t hStep
  exact agree_loopWithin hSteps
    hStep.ahead.length_eq hResults s t hStep

theorem agree_collectWithin
    {step : Parser (Option α)}
    {step' : Parser (Option β)}
    (hSteps : C.Agree scopes (Option.Rel R) step step') :
    ∀ {budget budget' : List Token},
      budget.length = budget'.length →
        C.Agree scopes (List.Forall₂ R)
          (collectWithin step budget)
          (collectWithin step' budget')
  | [], [], _ => by
      refine hSteps.bind fun hNext => ?_
      cases hNext with
      | none => exact agree_pure .nil
      | some hResults => exact agree_pure (.cons hResults .nil)
  | _ :: budget, _ :: budget', hLengths => by
      refine hSteps.bind fun hNext => ?_
      cases hNext with
      | none => exact agree_pure .nil
      | some hResults =>
          refine (agree_collectWithin hSteps
            (Nat.succ.inj hLengths)).bind fun hOthers => ?_
          exact agree_pure (.cons hResults hOthers)

theorem agree_collect
    {step : Parser (Option α)}
    {step' : Parser (Option β)}
    (hSteps : C.Agree scopes (Option.Rel R) step step') :
    C.Agree scopes (List.Forall₂ R)
      (collect step) (collect step') := by
  intro s t hStep
  exact agree_collectWithin hSteps
    hStep.ahead.length_eq s t hStep

theorem agree_nextItem
    {separator terminator : TokenKind}
    (hSeparator : separator ≠ .eof)
    {item : Parser α}
    {item' : Parser β}
    (hItems : C.Agree scopes R item item') :
    C.Agree scopes (Option.Rel R)
      (nextItem separator terminator item)
      (nextItem separator terminator item') := by
  refine (agree_accept hSeparator).bind ?_
  rintro isThere _ rfl
  refine agree_ite ?_ (agree_pure .none)
  refine (agree_check terminator).bind ?_
  rintro isEnd _ rfl
  refine agree_ite (agree_pure .none) ?_
  exact hItems.bind fun hResults =>
    agree_pure (.some hResults)

theorem agree_separated
    {separator terminator : TokenKind}
    (hSeparator : separator ≠ .eof)
    {item : Parser α}
    {item' : Parser β}
    (hItems : C.Agree scopes R item item') :
    C.Agree scopes (List.Forall₂ R)
      (separated separator terminator item)
      (separated separator terminator item') := by
  refine (agree_check terminator).bind ?_
  rintro isEnd _ rfl
  refine agree_ite (agree_pure .nil) ?_
  refine hItems.bind fun hFirst => ?_
  refine (agree_collect
    (agree_nextItem hSeparator hItems)).bind
      fun hOthers => ?_
  exact agree_pure (.cons hFirst hOthers)

end Comparison

end SourceCheck
