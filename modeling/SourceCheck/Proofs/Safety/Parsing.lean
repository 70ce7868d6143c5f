import SourceCheck.Proofs.Safety.Checked
import SourceCheck.Proofs.Syntax.Proper
import SourceCheck.Proofs.Syntax.Ties

/-
  Parsing never stops the program.

  A run is safe if it is put together from runs of simple
  actions, tokens are read in range, and each declaration
  does what the checked one does on the symbols that are
  there.  Runs may fail and be recovered from, and scopes
  may be left by a failure: they stay safe, as all states
  are proper and their tokens end.

  Key definitions include:
    * `Parser.Safe`
    * `ParserState.Secure`
    * `ParserRelation.safety`

  The main statement is `safe_closed_program`.
-/

namespace SourceCheck

open SourceCheck.Parser
open SourceCheck.ParserState
open SourceCheck.Grammar

------------------------------------------------------------
-- Safe runs
------------------------------------------------------------

/-
  The run of a parser from a state stops the program nowhere.
  The cursor only makes moves, and stays in range wherever it
  is looked at or moved; no other action reads or changes the
  symbols.
-/
inductive Parser.Safe :
    {α : Type} → Parser α → ParserState → Prop where
  | pure {α s}
      (a : α) :
      Parser.Safe (Pure.pure a) s
  | throw {α s}
      (d : Diagnostic) :
      Parser.Safe (MonadExcept.throw d : Parser α) s
  | bind {α β s} {p : Parser α} {f : α → Parser β}
      (hFirst : Parser.Safe p s)
      (hRest :
        ∀ a t,
          p.outcome s = (.ok a, t) → Parser.Safe (f a) t) :
      Parser.Safe (p >>= f) s
  | look {α s}
      (f : TokenStream → α)
      (hStream : s.stream.StaysInRange) :
      Parser.Safe (Parser.look f) s
  | move {s}
      (f : TokenStream → TokenStream)
      (hStream : s.stream.StaysInRange)
      (hMoves : ∃ moves, f s.stream = s.stream.moved moves) :
      Parser.Safe (Parser.move f) s
  | declare
      {name kind span visibleFrom isMutable s scope id t}
      (hScope : s.scopes.head? = some scope)
      (hDeclare :
        s.symbols.declareAt scope
            ⟨Token.name name, kind, span, visibleFrom,
              isMutable, none⟩ =
          .ok (id, t.symbols))
      (hRun :
        (Parser.declare name kind span visibleFrom
            isMutable).outcome s =
          (.ok id, t)) :
      Parser.Safe
        (Parser.declare name kind span visibleFrom isMutable)
        s
  | inNewScope {α s} {body : ScopeId → Parser α}
      (hBody : Parser.Safe (body s.newScope) s.opened) :
      Parser.Safe (Parser.inNewScope body) s
  | recovering {α s stop} {p : Parser α}
      (hBody : Parser.Safe p s)
      (hBehind :
        ∀ d t,
          p.outcome s = (.error d, t) →
            t.stream.StaysInRange ∧
              ∃ moves,
                (s.resumed stop t d).stream =
                  t.stream.moved moves) :
      Parser.Safe (Parser.recovering stop p) s
  | takeSymbols {s} :
      Parser.Safe Parser.takeSymbols s

/- A proper state whose cursor is over tokens that end. -/
structure ParserState.Secure (s : ParserState) : Prop
    extends s.Proper where
  ended : s.stream.Ended

/- What recovers from a failure only moves the cursor. -/
theorem exists_moved_resumed
    (stop : TokenStream → Bool)
    (s t : ParserState)
    (d : Diagnostic) :
    ∃ moves,
      (s.resumed stop t d).stream = t.stream.moved moves := by
  unfold resumed
  dsimp only
  split
  · rcases TokenStream.exists_moved_skipTo stop
        t.stream.consume with
      ⟨moves, hMoves⟩
    exact ⟨.consume :: moves, hMoves⟩
  · exact TokenStream.exists_moved_skipTo stop t.stream

/- No declaration in a secure state stops the program. -/
theorem safe_declare
    {s : ParserState}
    {scope : ScopeId}
    (hSecure : s.Secure)
    (hScope : s.scopes.head? = some scope)
    (name : Token)
    (kind : DefinitionKind)
    (span : Span)
    (visibleFrom : Nat)
    (isMutable : Bool) :
    (declare name kind span visibleFrom isMutable).Safe s ∧
      ((declare name kind span visibleFrom isMutable).outcome
        s).2.Secure := by
  have hProper := hSecure.toProper
  have hRun :=
    outcome_declare name kind span visibleFrom isMutable s
  have hDeclare :=
    Symbols.declareAt_eq
      (hProper.open_lt scope (List.mem_of_mem_head? hScope))
      ⟨name.name, kind, span, visibleFrom, isMutable, none⟩
  rcases List.head?_eq_some_iff.1 hScope with ⟨_, hScopes⟩
  rw [hScopes] at hRun
  refine ⟨.declare hScope (hDeclare.trans ?_) hRun, ?_⟩
  · unfold declared
    dsimp only
    split
    · rfl
    · rfl
  · rw [hRun]
    refine ⟨hProper.declared scope _ _, ?_⟩
    rw [stream_declared]
    exact hSecure.ended

theorem ParserState.Secure.resumed
    {t : ParserState}
    (hSecure : t.Secure)
    (stop : TokenStream → Bool)
    (s : ParserState)
    (d : Diagnostic) :
    (s.resumed stop t d).Secure := by
  rcases exists_moved_resumed stop s t d with
    ⟨moves, hMoves⟩
  refine ⟨hSecure.toProper.resumed stop s d, ?_⟩
  rw [hMoves]
  exact hSecure.ended.moved moves

/- Runs from secure states are safe and end in such states. -/
def ParserRelation.safety : ParserRelation where
  holds s p _ :=
    s.Secure → p.Safe s ∧ (p.outcome s).2.Secure
  ofPure a _ := fun hSecure => ⟨.pure a, hSecure⟩
  ofThrow d _ := fun hSecure => ⟨.throw d, hSecure⟩
  ofBind := by
    intro α β s p q f g hFirst hRest hSecure
    rcases hFirst hSecure with ⟨hSafe, hBehind⟩
    refine ⟨.bind hSafe fun a t hRun => ?_, ?_⟩
    · rw [hRun] at hBehind
      exact (hRest hRun hBehind).1
    · rw [outcome_bind]
      rcases hRun : p.outcome s with ⟨d | a, t⟩
      · rw [hRun] at hBehind
        exact hBehind
      · rw [hRun] at hBehind
        exact (hRest hRun hBehind).2
  ofLook f _ := fun hSecure =>
    ⟨.look f hSecure.ended.staysInRange, hSecure⟩
  ofMove f _ hMoves := fun hSecure => by
    refine ⟨.move f hSecure.ended.staysInRange hMoves,
      hSecure.toProper.same rfl rfl, ?_⟩
    rcases hMoves with ⟨moves, hMoves⟩
    rw [outcome_move]
    dsimp only
    rw [hMoves]
    exact hSecure.ended.moved moves
  ofDeclare name kind span visibleFrom isMutable _ _ hScope :=
    fun hSecure =>
      safe_declare hSecure hScope name kind span visibleFrom
        isMutable
  ofNewScope := by
    intro α s body body' hBody hSecure
    rcases hBody ⟨hSecure.toProper.opened, hSecure.ended⟩ with
      ⟨hSafe, hBehind⟩
    refine ⟨.inNewScope hSafe, ?_⟩
    rw [outcome_inNewScope]
    rcases hRun : (body s.newScope).outcome s.opened with
      ⟨d | a, t⟩
    · rw [hRun] at hBehind
      exact ⟨hBehind.toProper.closed, hBehind.ended⟩
    · rw [hRun] at hBehind
      exact ⟨hBehind.toProper.closed, hBehind.ended⟩
  ofRecovering := by
    intro α s p q stop hBody hSecure
    rcases hBody hSecure with ⟨hSafe, hBehind⟩
    refine ⟨.recovering hSafe fun d t hRun => ?_, ?_⟩
    · rw [hRun] at hBehind
      exact ⟨hBehind.ended.staysInRange,
        exists_moved_resumed stop s t d⟩
    · rw [outcome_recovering]
      rcases hRun : p.outcome s with ⟨d | a, t⟩
      · rw [hRun] at hBehind
        exact hBehind.resumed stop s d
      · rw [hRun] at hBehind
        exact hBehind

------------------------------------------------------------
-- Programs
------------------------------------------------------------

theorem secure_initial (source file : String) :
    (ParserState.initial source file).Secure :=
  ⟨proper_initial source file,
    TokenStream.ended_ofTokens (tokenize source (some file))⟩

/- The next action starts in a secure state as well. -/
theorem safe_bind
    {α β : Type}
    {n : Nat}
    {scopes : List ScopeId}
    {s : ParserState}
    {p q : Parser α}
    {f : α → Parser β}
    (hFirst : ParserRelation.safety.Tied scopes s p q)
    (hFew : 2 * s.left < n)
    (hSecure : s.Secure)
    (hRest :
      ∀ a t,
        t.Ready scopes →
          2 * t.left < n → t.Secure → (f a).Safe t) :
    (p >>= f).Safe s := by
  rcases hFirst.holds hSecure with ⟨hSafe, hBehind⟩
  refine .bind hSafe fun a t hRun => ?_
  have hKept := hFirst.kept
  rw [hRun] at hKept hBehind
  have hLeft : t.left ≤ s.left := hKept.left_le
  exact hRest a t hKept.ready (by omega) hBehind

/-
  At the end of a program its symbols are taken while its
  scope is still open.
-/
theorem safe_program
    {depth : Nat}
    {scopes : List ScopeId}
    {s : ParserState}
    (hReady : s.Ready scopes)
    (hFew : 2 * s.left < depth)
    (hSecure : s.Secure) :
    (program (nestedWithin depth)).Safe s := by
  have hNested :=
    ParserRelation.safety.nestedTies_nestedWithin depth depth
  refine .inNewScope ?_
  refine safe_bind
    (ParserRelation.ties_collect
      (ParserRelation.tiesStep_nextImport hNested).ties _
      hReady.opened hFew)
    hFew ⟨hSecure.toProper.opened, hSecure.ended⟩ fun imports t hReady hFew hSecure => ?_
  refine safe_bind
    (ParserRelation.ties_collect
      (ParserRelation.tiesStep_nextDeclaration hNested).ties _
      hReady hFew)
    hFew hSecure fun declarations u _ _ hSecure => ?_
  have hStop :
      ParserRelation.safety.Always
        (expect .eof "end of file") :=
    ParserRelation.always_expect .eof "end of file"
  -- The open scope is no longer in the symbols that are left,
  -- but nothing is declared behind the end of the text.
  exact .bind (hStop u hSecure).1 fun _ _ _ =>
    .bind .takeSymbols fun _ _ _ => .pure _

/-
  No text stops the program while it is read, whether or not
  it is accepted.
-/
theorem safe_closed_program (source file : String) :
    (closed program).Safe (.initial source file) := by
  have hClosed :
      closed program =
        look (·.ahead) >>= fun tokens =>
          program (nestedWithin (2 * tokens.length + 2)) :=
    rfl
  rw [hClosed]
  refine .bind
    (.look _ (secure_initial source file).ended.staysInRange)
    fun tokens t hRun => ?_
  cases hRun
  refine safe_program (ready_initial source file) ?_
    (secure_initial source file)
  exact Nat.lt_add_of_pos_right (by decide)

end SourceCheck
