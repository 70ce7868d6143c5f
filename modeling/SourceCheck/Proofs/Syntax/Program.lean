import SourceCheck.Proofs.Parsing.Sources
import SourceCheck.Proofs.Syntax.Soundness

/-
  The grammar of whole programs as a relation.

  A source text that is accepted has a derivation, which
  starts at the first token.

  Key definitions include:
    * `DerivesImport`
    * `DerivesDeclaration`
    * `DerivesProgram`
    * `ParserState.initial`

  Key theorems include:
    * `derivesProgram_of_parseProgram`
    * `derives_of_parseExpression`
-/

namespace SourceCheck

open SourceCheck.Parser
open SourceCheck.Grammar

------------------------------------------------------------
-- Derivations
------------------------------------------------------------

/- The import between two states. -/
inductive DerivesImport :
    ParserState → Import → ParserState → Prop where
  | intro {s e t entries u path}
      (hKeyword : s.token.kind = .kwImport)
      (hQuote : s.next.token.kind = .stringStart)
      (hPath :
        Derives (.start .string s.next.token)
          s.next.next e t)
      (hOpen : t.token.kind = .openCurly)
      (hEntries : Derives (.items .entry) t.next entries u)
      (hClose : u.token.kind = .closeCurly)
      (hValue : e.form = .string path) :
      DerivesImport s
        ⟨path, entries, s.token.span.between u.token.span,
          false⟩
        u.next

/- Imports, up to the first token that starts none. -/
inductive DerivesImports :
    ParserState → List Import → ParserState → Prop where
  | stop {s}
      (hStop : s.token.kind ≠ .kwImport) :
      DerivesImports s [] s
  | more {s i t is u}
      (hImport : DerivesImport s i t)
      (hMore : DerivesImports t is u) :
      DerivesImports s (i :: is) u

/- The declaration between two states. -/
inductive DerivesDeclaration :
    ParserState → Declaration → ParserState → Prop where
  | function {s f t}
      (hFunction : Derives .functionDecl s f t) :
      DerivesDeclaration s (.function f) t
  | property {s v t}
      (hKeyword :
        s.token.kind = .kwVal ∨ s.token.kind = .kwVar)
      (hVariable : Derives (.variableDecl .property) s v t) :
      DerivesDeclaration s (.property v) t

/- Declarations up to the end of the text. -/
inductive DerivesDeclarations :
    ParserState → List Declaration → ParserState → Prop where
  | stop {s}
      (hEnd : s.token.kind = .eof) :
      DerivesDeclarations s [] s
  | more {s d t ds u}
      (hDeclaration : DerivesDeclaration s d t)
      (hMore : DerivesDeclarations t ds u) :
      DerivesDeclarations s (d :: ds) u

/- The program that starts at a state. -/
inductive DerivesProgram :
    ParserState → Program → Prop where
  | intro {s imports t declarations u}
      (hImports : DerivesImports s.opened imports t)
      (hDeclarations : DerivesDeclarations t declarations u) :
      DerivesProgram s
        ⟨imports, declarations, s.newScope, u.symbols,
          programSpan imports declarations u.token.span⟩

------------------------------------------------------------
-- Imports
------------------------------------------------------------

variable {n : Nat}
variable {scopes : List ScopeId}
variable {nested : Nested}

theorem obeys_importEntry :
    Obeys n scopes (Derives (.item .entry)) importEntry := by
  refine (obeys_expectName.bind fun name =>
    obeys_ifAccept (by decide)
      (obeys_expectName.bind fun newName => obeys_pure _)
      (obeys_pure _)).imp ?_
  rintro s e t ⟨name, _, ⟨hName, rfl, rfl⟩, hRest⟩
  rcases hRest with
    ⟨hAs, newName, _, ⟨hNewName, rfl, rfl⟩, rfl, rfl⟩ |
      ⟨hNone, rfl, rfl⟩
  · exact .renamedEntry hName hAs hNewName
  · exact .entry hName hNone

theorem obeys_plainPath (e : Expr) :
    Obeys n scopes
      (fun s path t => e.form = .string path ∧ t = s)
      (plainPath e) := by
  unfold plainPath
  split
  · rename_i value hForm
    refine (obeys_pure _).imp ?_
    rintro s path t ⟨rfl, rfl⟩
    exact ⟨hForm, rfl⟩
  · exact (obeys_fail _ _).imp False.elim

theorem obeys_importFrom
    (hNested : nested.Sound n) :
    Obeys n scopes DerivesImport (importFrom nested) := by
  refine ((obeys_expect (by decide) _).bind fun keyword =>
    (obeys_expect (by decide) _).bind fun quote =>
      (obeys_stringLiteral hNested quote).bind fun path =>
        (obeys_expect (by decide) _).bind fun _ =>
          (obeys_items .entry obeys_importEntry).bind
            fun entries =>
              (obeys_expect (by decide) _).bind fun stop =>
                (obeys_plainPath path).bind fun value =>
                  obeys_pure _).imp ?_
  rintro s i u
    ⟨keyword, _, ⟨hKeyword, rfl, rfl⟩, quote, _,
      ⟨hQuote, rfl, rfl⟩, path, t, hPath, _, _,
      ⟨hOpen, -, rfl⟩, entries, u, hEntries, stop, _,
      ⟨hClose, rfl, rfl⟩, value, _, ⟨hValue, rfl⟩, rfl, rfl⟩
  exact .intro hKeyword hQuote hPath hOpen hEntries hClose
    hValue

theorem DerivesImport.left_lt
    {s t : ParserState}
    {i : Import}
    (hDerives : DerivesImport s i t) :
    t.left < s.left := by
  rcases hDerives with
    ⟨hKeyword, -, hPath, -, hEntries, -, -⟩
  rename_i e u entries v path
  have hPassed :=
    ParserState.left_next (s := s) (by rw [hKeyword]; decide)
  have hFirst := hPath.left_le
  have hSecond := hEntries.left_le
  have hQuote := s.next.left_next_le
  have hOpen := u.left_next_le
  have hClose := v.left_next_le
  dsimp only [Phrase.least] at hFirst hSecond
  omega

theorem obeys_imports
    (hNested : nested.Sound n) :
    Obeys n scopes
      (fun s is t => DerivesImports s (is.filterMap id) t)
      (collect (nextImport nested)) := by
  have hNext :
      Obeys n scopes
        (fun s r t =>
          s.token.kind ≠ .kwImport ∧ r = none ∧ t = s ∨
            ∃ i, r = some (some i) ∧ DerivesImport s i t)
        (nextImport nested) := by
    intro s hReady hFew
    unfold nextImport
    simp only [outcome_bind, outcome_hasMore, outcome_check,
      outcome_ite]
    split
    · rename_i hGo
      simp only [Bool.and_eq_true, decide_eq_true_eq] at hGo
      have hRun :=
        obeys_importFrom hNested s hReady hFew
      rw [← outcome_bind]
      refine ((obeyed_recovering topLevelCheckpoint hRun
        hGo.1).bind hFew fun r => obeys_pure _).imp ?_
      rintro r t ⟨_, u, ⟨i, rfl, hImport⟩, rfl, rfl⟩
      exact .inr ⟨i, rfl, hImport⟩
    · rename_i hStop
      refine .ok (.refl hReady) fun _ => .inl ⟨?_, rfl, rfl⟩
      intro hKeyword
      apply hStop
      rw [hKeyword]
      rfl
  refine (obeys_collect hNext ?_).imp ?_
  · rintro r s t (⟨-, h, -⟩ | ⟨i, -, hImport⟩)
    · cases h
    · exact hImport.left_lt
  · intro s is t hCollects
    induction hCollects with
    | stop hStop =>
        rcases hStop with ⟨hNone, -, rfl⟩ | ⟨i, h, -⟩
        · exact .stop hNone
        · cases h
    | more hStep _ ih =>
        rcases hStep with ⟨-, h, -⟩ | ⟨i, h, hImport⟩
        · cases h
        · cases h
          exact .more hImport ih

------------------------------------------------------------
-- Declarations
------------------------------------------------------------

theorem obeyed_declaration
    {scope : ScopeId}
    (hNested : nested.Sound n)
    {s : ParserState}
    (hReady : s.Ready (scope :: scopes))
    (hFew : 2 * s.left < n) :
    Obeyed (scope :: scopes) s (DerivesDeclaration s)
      ((declaration nested).outcome s) := by
  have hProperty
      (hKeyword :
        s.token.kind = .kwVal ∨ s.token.kind = .kwVar) :
      Obeyed (scope :: scopes) s (DerivesDeclaration s)
        (Parser.outcome
          (do
            return .property
              (← variableDecl nested .property))
          s) := by
    have hMore : s.token.kind ≠ .eof := by
      rcases hKeyword with hIs | hIs
      · rw [hIs]
        decide
      · rw [hIs]
        decide
    refine ((obeyed_variableDecl hNested .property
      hReady hFew hMore).bind hFew
        fun v => obeys_pure _).imp ?_
    rintro x t ⟨v, u, hDerives, rfl, rfl⟩
    exact .property hKeyword hDerives
  unfold declaration
  rw [outcome_bind, outcome_current]
  dsimp only
  split
  · refine (((obeys_functionDecl hNested).bind
      fun f => obeys_pure _) s hReady hFew).imp ?_
    rintro x t ⟨f, u, hFunction, rfl, rfl⟩
    exact .function hFunction
  · rename_i hKind
    exact hProperty (.inl hKind)
  · rename_i hKind
    exact hProperty (.inr hKind)
  · exact .error (.refl hReady)
  · exact .error (.refl hReady)
  · exact .error (.refl hReady)

theorem DerivesDeclaration.left_lt
    {s t : ParserState}
    {d : Declaration}
    (hDerives : DerivesDeclaration s d t) :
    t.left < s.left := by
  cases hDerives with
  | function hFunction => exact hFunction.left_le
  | property _ hVariable => exact hVariable.left_le

theorem obeys_declarations
    {scope : ScopeId}
    (hNested : nested.Sound n) :
    Obeys n (scope :: scopes)
      (fun s ds t =>
        DerivesDeclarations s (ds.filterMap id) t)
      (collect (nextDeclaration nested)) := by
  have hNext :
      Obeys n (scope :: scopes)
        (fun s r t =>
          s.token.kind = .eof ∧ r = none ∧ t = s ∨
            ∃ d,
              r = some (some d) ∧ DerivesDeclaration s d t)
        (nextDeclaration nested) := by
    intro s hReady hFew
    unfold nextDeclaration
    rw [outcome_bind, outcome_hasMore]
    dsimp only
    by_cases hEnd : s.token.kind = .eof
    · rw [if_neg (by simp [hEnd])]
      exact .ok (.refl hReady) fun _ =>
        .inl ⟨hEnd, rfl, rfl⟩
    · have hRun := obeyed_declaration hNested hReady hFew
      rw [if_pos (decide_eq_true hEnd)]
      refine ((obeyed_recovering topLevelCheckpoint hRun
        hEnd).bind hFew fun r => obeys_pure _).imp ?_
      rintro r t ⟨_, u, ⟨d, rfl, hDeclaration⟩, rfl, rfl⟩
      exact .inr ⟨d, rfl, hDeclaration⟩
  refine (obeys_collect hNext ?_).imp ?_
  · rintro r s t (⟨-, h, -⟩ | ⟨d, -, hDeclaration⟩)
    · cases h
    · exact hDeclaration.left_lt
  · intro s ds t hCollects
    induction hCollects with
    | stop hStop =>
        rcases hStop with ⟨hEnd, -, rfl⟩ | ⟨d, h, -⟩
        · exact .stop hEnd
        · cases h
    | more hStep _ ih =>
        rcases hStep with ⟨-, h, -⟩ | ⟨d, h, hDeclaration⟩
        · cases h
        · cases h
          exact .more hDeclaration ih

------------------------------------------------------------
-- Programs
------------------------------------------------------------

/- A quiet run over a whole program is a derivation. -/
theorem derivesProgram_of_outcome
    (hNested : nested.Sound n)
    {s t : ParserState}
    (hReady : s.Ready scopes)
    (hFew : 2 * s.left < n)
    {r : Program}
    (hRun : (program nested).outcome s = (.ok r, t))
    (hQuiet : t.reports ≤ s.reports) :
    DerivesProgram s r := by
  have hImports :=
    obeys_imports hNested s.opened hReady.opened hFew
  unfold program at hRun
  rw [outcome_inNewScope, outcome_bind] at hRun
  generalize (collect (nextImport nested)).outcome s.opened =
    x at hRun hImports
  cases hImports with
  | error hKept => cases hRun
  | @ok is u hKept hFirst =>
      have hLeft := hKept.left_le
      have hFewer : 2 * u.left < n := by
        rw [ParserState.left_opened] at hLeft
        omega
      have hDeclarations :=
        obeys_declarations hNested u hKept.ready hFewer
      dsimp only at hRun
      rw [outcome_bind] at hRun
      generalize (collect (nextDeclaration nested)).outcome u =
        y at hRun hDeclarations
      cases hDeclarations with
      | error hKept => cases hRun
      | @ok ds v hRest hSecond =>
          dsimp only [expect] at hRun
          rw [bind_assoc, outcome_bind, outcome_check]
            at hRun
          by_cases hEnd : v.token.kind = .eof
          · rw [decide_eq_true hEnd] at hRun
            cases hRun
            have hReports : v.reports ≤ s.reports := hQuiet
            have hLate := hRest.reports_le
            have hEarly := hKept.reports_le
            rw [ParserState.reports_opened] at hEarly hFirst
            exact .intro (hFirst (by omega))
              (hSecond (by omega))
          · rw [decide_eq_false hEnd] at hRun
            cases hRun

------------------------------------------------------------
-- Source texts
------------------------------------------------------------

/- The state at the start of a source text. -/
def ParserState.initial (source file : String) :
    ParserState :=
  .start (.ofSource source file) file

/- Its tokens are those of the text. -/
theorem tokens_initial (source file : String) :
    (ParserState.initial source file).stream.tokens =
      tokenize source (some file) := by
  have hStream := ofSource_eq source file
  unfold ParserState.initial ParserState.start
    TokenStream.tokens
  rw [hStream.1, hStream.2.1]
  rfl

theorem ready_initial (source file : String) :
    (ParserState.initial source file).Ready [] := by
  refine ⟨?_, rfl⟩
  rcases (tokensInOrder_tokenize source (some file)).ends
    with ⟨front, last, hTokens, hLast, -⟩
  refine ⟨front, last, ?_, hLast⟩
  unfold ParserState.initial ParserState.start
  rw [(ofSource_eq source file).2.1, hTokens]

/- A text is accepted by runs that report nothing. -/
theorem outcome_of_parse
    {α : Type}
    {source file : String}
    {p : Parser α}
    {a : α}
    (hParse : parse source file p = .ok a) :
    ∃ t,
      p.outcome (.initial source file) = (.ok a, t) ∧
        t.reports = 0 := by
  rw [parse_eq] at hParse
  unfold ParserState.initial
  rcases hOutcome :
      p.outcome (.start (.ofSource source file) file) with
    ⟨_ | b, t⟩
  · rw [hOutcome] at hParse
    cases hParse
  · rw [hOutcome] at hParse
    dsimp only at hParse
    split at hParse
    · rename_i hEmpty
      cases hParse
      refine ⟨t, rfl, ?_⟩
      rw [List.isEmpty_iff] at hEmpty
      rw [ParserState.reports, hEmpty]
      rfl
    · cases hParse

/- A text that is accepted has a derivation. -/
theorem derivesProgram_of_parseProgram
    {source file : String}
    {program : Program}
    (hParse : parseProgram source file = .ok program) :
    DerivesProgram (.initial source file) program := by
  rcases outcome_of_parse hParse with ⟨t, hRun, hQuiet⟩
  unfold closed at hRun
  rw [outcome_bind, outcome_get] at hRun
  refine derivesProgram_of_outcome (sound_nestedWithin _)
    (ready_initial source file) ?_ hRun ?_
  · unfold ParserState.left
    omega
  · rw [hQuiet]
    exact Nat.zero_le _

/-
  An expression that is accepted has a derivation, behind
  which tokens are left.
-/
theorem derives_of_parseExpression
    {source file : String}
    {e : Expr}
    (hParse : parseExpression source file = .ok e) :
    ∃ t,
      Derives (.expression .loosest) (.initial source file)
          e t ∧
        t.stream.ahead ≠ [] := by
  rcases outcome_of_parse hParse with ⟨t, hRun, hQuiet⟩
  unfold closed at hRun
  rw [outcome_bind, outcome_get] at hRun
  refine ⟨t, ?_⟩
  have hObeyed :=
    obeys_required
      (sound_nestedWithin
        (2 * (ParserState.initial source file).left + 2))
      .loosest _ (ready_initial source file) (by omega)
  dsimp only at hRun
  unfold ParserState.left at hObeyed
  rw [hRun] at hObeyed
  cases hObeyed with
  | ok hKept hDerives =>
      refine ⟨hDerives ?_, hKept.ready.ahead_ne⟩
      rw [hQuiet]
      exact Nat.zero_le _

end SourceCheck
