import SourceCheck.Proofs.Layout.TokenOrder
import SourceCheck.Proofs.Parsing.Agreement

/-
  Parsing sources that have the same tokens.

  Such sources are parsed alike: both are refused, because
  of the same problems, or both give aligned trees.  None of
  the problems is a mistake of the parser itself.

  Key definitions include:
    * `SameTokens`
    * `SameResults`
    * `Parser.verdict`
    * `Comparison.ofTokens`
    * `Comparison.ofSources`

  Key theorems include:
    * `Ends.sameResults`
    * `parse_sameResults`
    * `parseProgram_sameResults`
    * `parseExpression_sameResults`
-/

namespace SourceCheck

------------------------------------------------------------
-- Sources with the same tokens
------------------------------------------------------------

/- Two sources have the same tokens, but for places. -/
def SameTokens (source other : String) : Prop :=
  (tokenize source none).map Token.word =
    (tokenize other none).map Token.word

/- Tokens do not depend on the name of the file. -/
theorem word_tokensFrom
    (cs : List Char) :
    ∀ (p q : Position) (es : List Enclosure),
      (Lexer.tokensFrom p es cs).map Token.word =
        (Lexer.tokensFrom q es cs).map Token.word := by
  induction hLength : cs.length using Nat.strongRecOn
    generalizing cs with
  | ind n ih =>
      intro p q es
      cases cs with
      | nil =>
          rw [Lexer.tokensFrom, Lexer.tokensFrom]
          rfl
      | cons c cs =>
          rw [Lexer.tokensFrom, Lexer.tokensFrom]
          have hShorter :
              (cs.drop (lexeme es c cs).more).length < n := by
            rw [← hLength, List.length_drop,
              List.length_cons]
            omega
          have hRest := ih _ hShorter _ rfl
          cases (lexeme es c cs).kind with
          | none => exact hRest _ _ _
          | some kind =>
              dsimp only
              rw [List.map_cons, List.map_cons, hRest]
              rfl

theorem word_tokenize
    (source : String)
    (file? : Option String) :
    (tokenize source file?).map Token.word =
      (tokenize source none).map Token.word :=
  word_tokensFrom _ _ _ _

/- A cursor starts with the tokens that it is made of. -/
theorem ofTokens_eq
    {ts : List Token}
    (hOrder : TokensInOrder ts) :
    (TokenStream.ofTokens ts).before = [] ∧
      (TokenStream.ofTokens ts).ahead = ts ∧
      ts.getLast? =
        some (TokenStream.ofTokens ts).last := by
  rcases hOrder.ends with ⟨front, last, hTokens, hLast, -⟩
  have hFinal : ts.getLast? = some last := by
    rw [hTokens, List.getLast?_concat]
  unfold TokenStream.ofTokens
  split
  · rename_i hNone
    rw [hFinal] at hNone
    cases hNone
  · rename_i t hSome
    rw [hFinal] at hSome
    cases hSome
    rw [dif_pos hLast]
    exact ⟨rfl, rfl, hFinal⟩

/- A cursor starts with the tokens of its source. -/
theorem ofSource_eq
    (source file : String) :
    (TokenStream.ofSource source file).before = [] ∧
      (TokenStream.ofSource source file).ahead =
        tokenize source (some file) ∧
      (tokenize source (some file)).getLast? =
        some (TokenStream.ofSource source file).last :=
  ofTokens_eq (tokensInOrder_tokenize source (some file))

------------------------------------------------------------
-- Results
------------------------------------------------------------

/-
  Both results are related, or both were refused because of
  the same problems, which concern the source.
-/
inductive SameResults
    {α β : Type}
    (R : α → β → Prop) :
    Except (List Diagnostic) α →
      Except (List Diagnostic) β → Prop where
  | ok {a b}
      (hResults : R a b) :
      SameResults R (.ok a) (.ok b)
  | error {ds es}
      (hProblems : ds.map (·.problem) = es.map (·.problem))
      (hSource : ∀ d ∈ ds, d.problem.concernsSource) :
      SameResults R (.error ds) (.error es)

/- What a parser says of a text where its run has ended. -/
def Parser.verdict
    {α : Type}
    (x : Except Diagnostic α × ParserState) :
    Except (List Diagnostic) α :=
  match x with
  | (.ok a, s) =>
      if s.diagnostics.isEmpty then .ok a
      else .error s.diagnostics
  | (.error d, s) => .error (s.diagnostics ++ [d])

/- Reported so far are only problems of the source. -/
def ParserInvariant.sourceOnly : ParserInvariant where
  holds s := ∀ d ∈ s.diagnostics, d.problem.concernsSource
  next hHolds _ := hHolds
  reported := by
    intro s d hHolds hSource e hMember
    rcases List.mem_append.1 hMember with hMember | hMember
    · exact hHolds e hMember
    · rw [List.mem_singleton.1 hMember]
      exact hSource
  opened hHolds := hHolds
  closed hHolds := hHolds
  declared := by
    intro s scope d p _ hHolds
    unfold ParserState.declared
    split
    · intro e hMember
      rcases List.mem_append.1 hMember with
        hMember | hMember
      · exact hHolds e hMember
      · rw [List.mem_singleton.1 hMember]
        rfl
    · exact hHolds

namespace Comparison

open SourceCheck.Parser
open SourceCheck.Grammar

/- The comparison of tokens in order with others. -/
def ofTokens
    {ts : List Token}
    (hOrder : TokensInOrder ts)
    (us : List Token) :
    Comparison where
  alignment := .ofTokens ts us
  invariant := .sourceOnly
  text := ts
  ends := by
    rcases hOrder.ends with ⟨front, last, hTokens, hLast, -⟩
    exact ⟨front, last, hTokens, hLast⟩

/- Parsers of tokens with the same words start in step. -/
theorem inStep_ofTokens
    {ts us : List Token}
    (hLeft : TokensInOrder ts)
    (hRight : TokensInOrder us)
    (hWords : ts.map Token.word = us.map Token.word)
    (file otherFile : String) :
    (ofTokens hLeft us).InStep []
      (.start (.ofTokens ts) file)
      (.start (.ofTokens us) otherFile) := by
  obtain ⟨hBefore, hAhead, -⟩ := ofTokens_eq hLeft
  obtain ⟨hBefore', hAhead', -⟩ := ofTokens_eq hRight
  exact
    { text := by
        simp only [ParserState.start, TokenStream.tokens,
          hBefore, hAhead]
        rfl
      ahead_ne := by
        simp only [ParserState.start, hAhead]
        rcases hLeft.ends with ⟨front, last, hTokens, -⟩
        rw [hTokens]
        exact List.concat_ne_nil _ _
      before := by
        simp only [ParserState.start, hBefore, hBefore']
        exact .nil
      ahead := by
        simp only [ParserState.start, hAhead, hAhead']
        exact Alignment.tokens_ofTokens hWords
      scopes_left := rfl
      scopes_right := rfl
      symbols := ⟨rfl, .nil⟩
      problems := rfl
      holds := nofun }

/- The comparison of two sources, each from its file. -/
def ofSources
    (source file other otherFile : String) :
    Comparison where
  alignment :=
    .ofTokens (tokenize source (some file))
      (tokenize other (some otherFile))
  invariant := .sourceOnly
  text := tokenize source (some file)
  ends := by
    rcases (tokensInOrder_tokenize source (some file)).ends
      with ⟨front, last, hTokens, hLast, -⟩
    exact ⟨front, last, hTokens, hLast⟩

/- Parsers of sources with the same tokens start in step. -/
theorem inStep_start
    {source other : String}
    (hSame : SameTokens source other)
    (file otherFile : String) :
    (ofSources source file other otherFile).InStep []
      (.start (.ofSource source file) file)
      (.start (.ofSource other otherFile) otherFile) := by
  have hWords :
      (tokenize source (some file)).map Token.word =
        (tokenize other (some otherFile)).map
          Token.word := by
    rw [word_tokenize, word_tokenize other, hSame]
  exact inStep_ofTokens (tokensInOrder_tokenize _ _)
    (tokensInOrder_tokenize _ _) hWords file otherFile

------------------------------------------------------------
-- Ends of runs
------------------------------------------------------------

variable {C : Comparison}
variable {α β : Type}
variable {R : α → β → Prop}

/-
  Two runs end alike, with nothing reported since the states
  were in step.
-/
inductive Ends
    (C : Comparison)
    (R : α → β → Prop) :
    Except Diagnostic α × ParserState →
      Except Diagnostic β × ParserState → Prop where
  | ok {scopes a b s t u v}
      (hResults : R a b)
      (hStep : C.InStep scopes u v)
      (hLeft : s.diagnostics = u.diagnostics)
      (hRight : t.diagnostics = v.diagnostics) :
      Ends C R (.ok a, s) (.ok b, t)
  | error {scopes d e s t u v}
      (hProblem : d.problem = e.problem)
      (hSource : d.problem.concernsSource)
      (hStep : C.InStep scopes u v)
      (hLeft : s.diagnostics = u.diagnostics)
      (hRight : t.diagnostics = v.diagnostics) :
      Ends C R (.error d, s) (.error e, t)

theorem Outcomes.ends
    {scopes : List ScopeId}
    {x : Except Diagnostic α × ParserState}
    {y : Except Diagnostic β × ParserState}
    (hOutcomes : C.Outcomes scopes R x y) :
    C.Ends R x y := by
  cases hOutcomes with
  | ok hResults hStep => exact .ok hResults hStep rfl rfl
  | error hProblem hSource hStep =>
      exact .error hProblem hSource hStep rfl rfl

/- Runs that agree up to a point may end alike behind it. -/
theorem Outcomes.bind_ends
    {scopes : List ScopeId}
    {γ δ : Type}
    {S : γ → δ → Prop}
    {s t : ParserState}
    {p : Parser α}
    {q : Parser β}
    {f : α → Parser γ}
    {g : β → Parser δ}
    (hFirst :
      C.Outcomes scopes R (p.outcome s) (q.outcome t))
    (hRest :
      ∀ {a b u v},
        R a b →
          C.InStep scopes u v →
            C.Ends S ((f a).outcome u) ((g b).outcome v)) :
    C.Ends S
      ((p >>= f).outcome s) ((q >>= g).outcome t) := by
  rw [outcome_bind, outcome_bind]
  generalize p.outcome s = x at hFirst
  generalize q.outcome t = y at hFirst
  cases hFirst with
  | ok hResults hStep => exact hRest hResults hStep
  | error hProblem hSource hStep =>
      exact .error hProblem hSource hStep rfl rfl

/- Closing a scope reports nothing. -/
theorem ends_inNewScope
    {scopes : List ScopeId}
    {body : ScopeId → Parser α}
    {body' : ScopeId → Parser β}
    {s t : ParserState}
    (hStep : C.InStep scopes s t)
    (hBody :
      ∀ {scope u v},
        C.InStep (scope :: scopes) u v →
          C.Ends R ((body scope).outcome u)
            ((body' scope).outcome v)) :
    C.Ends R ((inNewScope body).outcome s)
      ((inNewScope body').outcome t) := by
  rw [outcome_inNewScope, outcome_inNewScope,
    ← hStep.newScope_eq]
  have hEnds := hBody hStep.opened
  generalize (body s.newScope).outcome s.opened = x
    at hEnds
  generalize (body' s.newScope).outcome t.opened = y
    at hEnds
  cases hEnds with
  | ok hResults hInner hLeft hRight =>
      exact .ok hResults hInner hLeft hRight
  | error hProblem hSource hInner hLeft hRight =>
      exact .error hProblem hSource hInner hLeft hRight

/-
  Whole programs end alike.  The end of the text is taken
  and the symbols are moved at the end, so that the states
  are not in step there.
-/
theorem program_ends
    {nested nested' : Nested}
    (hNested : C.NestedAgree nested nested')
    {scopes : List ScopeId}
    {s t : ParserState}
    (hStep : C.InStep scopes s t) :
    C.Ends C.alignment.Programs
      ((program nested).outcome s)
      ((program nested').outcome t) := by
  refine ends_inNewScope hStep
    fun {scope u v} hInner => ?_
  refine (agree_collect (agree_nextImport hNested) u v
    hInner).bind_ends fun {as bs u v} hImports hInner => ?_
  refine (agree_collect (agree_nextDeclaration hNested) u v
    hInner).bind_ends
      fun {cs ds u v} hDeclarations hInner => ?_
  have hPrograms (x y : Span) :
      C.alignment.Programs
        ⟨as.filterMap id, cs.filterMap id, scope,
          u.symbols, x⟩
        ⟨bs.filterMap id, ds.filterMap id, scope,
          v.symbols, y⟩ :=
    ⟨forall₂_filterMap_id hImports,
      forall₂_filterMap_id hDeclarations, rfl,
      hInner.symbols⟩
  unfold expect
  rw [bind_assoc, bind_assoc, outcome_bind, outcome_bind,
    outcome_check, outcome_check, ← hInner.kind_eq]
  dsimp only
  by_cases hEnd : u.token.kind = .eof
  · rw [decide_eq_true hEnd]
    exact .ok (hPrograms _ _) hInner rfl rfl
  · rw [decide_eq_false hEnd]
    refine (agree_unexpected (R := fun _ _ => False) _ u v
      hInner).bind_ends fun hNone _ => ?_
    exact hNone.elim

/- Runs that end alike say the same of their texts. -/
theorem Ends.sameResults
    {x : Except Diagnostic α × ParserState}
    {y : Except Diagnostic β × ParserState}
    (hOnly :
      ∀ {s},
        C.invariant.holds s →
          ∀ d ∈ s.diagnostics, d.problem.concernsSource)
    (hEnds : C.Ends R x y) :
    SameResults R (verdict x) (verdict y) := by
  unfold Parser.verdict
  cases hEnds with
  | @ok _ a b s t u v hResults hStep hLeft hRight =>
      have hProblems := hStep.problems
      have hHolds := hOnly hStep.holds
      rw [← hLeft, ← hRight] at hProblems
      have hEmpty :
          s.diagnostics.isEmpty = t.diagnostics.isEmpty := by
        have hLength := congrArg List.length hProblems
        rw [List.length_map, List.length_map] at hLength
        rw [Bool.eq_iff_iff, List.isEmpty_iff_length_eq_zero,
          List.isEmpty_iff_length_eq_zero, hLength]
      dsimp only
      rw [← hEmpty]
      split
      · exact .ok hResults
      · refine .error hProblems ?_
        rw [hLeft]
        exact hHolds
  | error hProblem hSource hStep hLeft hRight =>
      refine .error ?_ ?_
      · rw [List.map_append, List.map_append, hLeft, hRight,
          hStep.problems, List.map_singleton,
          List.map_singleton, hProblem]
      · rw [hLeft]
        intro d hMember
        rcases List.mem_append.1 hMember with
          hMember | hMember
        · exact hOnly hStep.holds d hMember
        · rw [List.mem_singleton.1 hMember]
          exact hSource

/- Runs of the same parser on the same tokens end alike. -/
theorem parse_sameResults
    {source other : String}
    {file otherFile : String}
    {p : Parser α}
    {q : Parser β}
    (hEnds :
      (ofSources source file other otherFile).Ends R
        (p.outcome (.start (.ofSource source file) file))
        (q.outcome
          (.start (.ofSource other otherFile)
            otherFile))) :
    SameResults R (parse source file p)
      (parse other otherFile q) :=
  hEnds.sameResults fun hHolds => hHolds

/- So do runs for whole programs. -/
theorem closed_program_ends
    {s t : ParserState}
    (hStep : C.InStep [] s t) :
    C.Ends C.alignment.Programs
      ((closed program).outcome s)
      ((closed program).outcome t) := by
  unfold closed
  rw [outcome_bind, outcome_bind, outcome_get, outcome_get]
  dsimp only
  rw [hStep.ahead.length_eq]
  exact program_ends (nestedAgree_nestedWithin _) hStep

/- Sources with the same tokens are the same programs. -/
theorem parseProgram_sameResults
    {source other : String}
    (hSame : SameTokens source other)
    (file otherFile : String) :
    SameResults
      (ofSources source file other otherFile).alignment.Programs
      (parseProgram source file)
      (parseProgram other otherFile) :=
  parse_sameResults
    (closed_program_ends (inStep_start hSame file otherFile))

/- Sources with the same tokens are the same expressions. -/
theorem parseExpression_sameResults
    {source other : String}
    (hSame : SameTokens source other)
    (file otherFile : String) :
    SameResults
      (ofSources source file other otherFile).alignment.Exprs
      (parseExpression source file)
      (parseExpression other otherFile) := by
  have hStep := inStep_start hSame file otherFile
  apply parse_sameResults
  apply Outcomes.ends
  refine agree_closed (fun depth => ?_) _ _ hStep
  exact agree_required (nestedAgree_nestedWithin depth) _

end Comparison

end SourceCheck
