import Mathlib
import SourceCheck.Proofs.Syntax.Appending
import SourceCheck.Proofs.Syntax.Enclosing

/-
  Texts are covered by what is read from them.

  The imports and declarations of an accepted text are read
  from runs of tokens that follow each other, up to the end
  of the text.  So each token belongs to one of them.

  Key definitions include:
    * `Program.partSpans`
    * `Program.IsPlaced`

  The main statement is `cover_of_parseProgram`.
-/

namespace SourceCheck

open SourceCheck.ParserState

------------------------------------------------------------
-- Programs
------------------------------------------------------------

/- The ranges of imports, and of declarations behind them. -/
def Program.partSpans (p : Program) : List Span :=
  p.imports.map (·.span) ++ p.declarations.map (·.span)

/- Each node of a program holds its parts. -/
structure Program.IsPlaced (p : Program) : Prop where
  parts : p.span.Holds p.partSpans
  entries :
    ∀ i ∈ p.imports, i.span.Holds (i.entries.map (·.span))
  nodes : p.Obeys .placed

variable {s t u : ParserState}

------------------------------------------------------------
-- Runs of tokens
------------------------------------------------------------

/- The token before the next state is the one of this one. -/
theorem ParserState.previous_next
    (hMore : s.token.kind ≠ .eof) :
    s.next.stream.previous = s.token := by
  unfold next TokenStream.consume TokenStream.previous
  rw [ahead_eq hMore]
  rfl

/- Declared names are no matter of tokens. -/
theorem ParserState.Declares.stream_eq
    {d : Definition}
    {id : DefinitionId}
    (hDeclares : s.Declares d id t) :
    t.stream = s.stream := by
  rcases hDeclares.exists_scope with ⟨scope, -, -, rfl⟩
  rfl

theorem DerivesImport.span_eq
    {i : Import}
    (hDerives : DerivesImport s i t) :
    i.span = s.token.span.between t.stream.previous.span := by
  cases hDerives with
  | intro _ _ _ _ _ hClose _ =>
      rw [previous_next (by rw [hClose]; decide)]

theorem DerivesDeclaration.span_eq
    {d : Declaration}
    (hDerives : DerivesDeclaration s d t) :
    d.span = s.token.span.between t.stream.previous.span := by
  cases hDerives with
  | function hFunction =>
      cases hFunction with
      | functionDecl _ _ _ _ hSpan hDeclares =>
          rw [hDeclares.stream_eq]
          exact hSpan
  | property _ hVariable =>
      cases hVariable with
      | variableDecl _ _ _ _ hStop hSpan hDeclares =>
          rw [hDeclares.stream_eq,
            previous_next (by rw [hStop]; decide)]
          exact hSpan

/- What passes tokens is the range of a run of them. -/
theorem ParserState.Crosses.exists_run
    {span : Span}
    (hCrosses : s.Crosses [] t [])
    (hLess : t.left < s.left)
    (hSpan :
      span = s.token.span.between t.stream.previous.span) :
    ∃ ts,
      s.stream.ahead = ts ++ t.stream.ahead ∧
        span.SpansRun ts := by
  rcases hCrosses with ⟨ts, hPasses, -⟩
  have hSome : ts ≠ [] := by
    rintro rfl
    unfold left at hLess
    rw [hPasses.ahead_eq] at hLess
    exact Nat.lt_irrefl _ hLess
  rcases hPasses.ends hSome with ⟨hFirst, hLast⟩
  exact ⟨ts, hPasses.ahead_eq, _, _, hFirst, hLast, hSpan⟩

theorem DerivesImports.exists_runs
    {is : List Import}
    (hDerives : DerivesImports s is t) :
    ∃ tss,
      s.stream.ahead = tss.flatten ++ t.stream.ahead ∧
        List.Forall₂ Span.SpansRun (is.map (·.span)) tss := by
  induction hDerives with
  | stop _ => exact ⟨[], rfl, .nil⟩
  | more hImport _ ih =>
      rcases hImport.crosses.exists_run hImport.left_lt
        hImport.span_eq with ⟨ts, hAhead, hRun⟩
      rcases ih with ⟨tss, hRest, hRuns⟩
      refine ⟨ts :: tss, ?_, .cons hRun hRuns⟩
      rw [hAhead, hRest, List.flatten_cons, List.append_assoc]

theorem DerivesDeclarations.exists_runs
    {ds : List Declaration}
    (hDerives : DerivesDeclarations s ds t) :
    ∃ tss,
      s.stream.ahead = tss.flatten ++ t.stream.ahead ∧
        List.Forall₂ Span.SpansRun (ds.map (·.span)) tss := by
  induction hDerives with
  | stop _ => exact ⟨[], rfl, .nil⟩
  | more hDeclaration _ ih =>
      rcases hDeclaration.crosses.exists_run
        hDeclaration.left_lt hDeclaration.span_eq with
        ⟨ts, hAhead, hRun⟩
      rcases ih with ⟨tss, hRest, hRuns⟩
      refine ⟨ts :: tss, ?_, .cons hRun hRuns⟩
      rw [hAhead, hRest, List.flatten_cons, List.append_assoc]

------------------------------------------------------------
-- Places
------------------------------------------------------------

/- The entries of imports, in the range of the import. -/
theorem DerivesImport.laid
    {i : Import}
    (hDerives : DerivesImport s i t)
    (hRegular : s.Regular) :
    Span.Laid s.reach [i.span] t.reach ∧
      i.span.Holds (i.entries.map (·.span)) := by
  cases hDerives with
  | intro hKeyword _ hPath _ hEntries hClose _ =>
      have hMore : s.token.kind ≠ .eof := by
        rw [hKeyword]
        decide
      have hQuote := Leads.next hRegular.next
      have hOpen :=
        (hQuote.trans (hPath.leads hQuote.regular)).andNext
      have hThere := hEntries.leads hOpen.regular
      have hAll := (hOpen.trans hThere).andNext
      have hStop := endsAt_next (by rw [hClose]; decide)
      have hFrom :=
        Nat.le_trans
          (Nat.le_of_lt (hRegular.offset_lt_reach_next hMore))
          hOpen.reach_le
      have hLaid := hEntries.laid hOpen.regular
      exact ⟨laid_between hRegular hMore hAll.reach_le hStop,
        (hLaid.behind hThere.regular).holds hFrom
          (Nat.le_of_eq hStop.symm)⟩

theorem DerivesImports.laid
    {is : List Import}
    (hDerives : DerivesImports s is t) :
    s.Regular →
      Span.Laid s.reach (is.map (·.span)) t.reach ∧
        ∀ i ∈ is, i.span.Holds (i.entries.map (·.span)) := by
  induction hDerives with
  | stop _ => exact fun _ => ⟨.nil (Nat.le_refl _), nofun⟩
  | more hImport _ ih =>
      intro hRegular
      have hFirst := hImport.laid hRegular
      have hRest := ih (hImport.leads hRegular).regular
      exact ⟨hFirst.1.andThen hRest.1,
        List.forall_mem_cons.2 ⟨hFirst.2, hRest.2⟩⟩

theorem DerivesDeclaration.laid
    {d : Declaration}
    (hDerives : DerivesDeclaration s d t)
    (hRegular : s.Regular) :
    Span.Laid s.reach [d.span] t.reach ∧ d.Obeys .placed := by
  cases hDerives with
  | function hFunction =>
      exact ⟨hFunction.laid hRegular,
        hFunction.placed hRegular⟩
  | property _ hVariable =>
      exact ⟨hVariable.laid hRegular,
        hVariable.placed hRegular⟩

theorem DerivesDeclarations.laid
    {ds : List Declaration}
    (hDerives : DerivesDeclarations s ds t) :
    s.Regular →
      Span.Laid s.reach (ds.map (·.span)) t.reach ∧
        ∀ d ∈ ds, d.Obeys .placed := by
  induction hDerives with
  | stop _ => exact fun _ => ⟨.nil (Nat.le_refl _), nofun⟩
  | more hDeclaration _ ih =>
      intro hRegular
      have hFirst := hDeclaration.laid hRegular
      have hRest := ih (hDeclaration.leads hRegular).regular
      exact ⟨hFirst.1.andThen hRest.1,
        List.forall_mem_cons.2 ⟨hFirst.2, hRest.2⟩⟩

/- A program is from its first part to the end of the text. -/
theorem holds_programSpan
    {is : List Import}
    {ds : List Declaration}
    {stop : Span}
    {a b : Nat}
    (hLaid :
      Span.Laid a (is.map (·.span) ++ ds.map (·.span)) b)
    (hStop : b ≤ stop.stop.offset) :
    (Grammar.programSpan is ds stop).Holds
      (is.map (·.span) ++ ds.map (·.span)) := by
  unfold Grammar.programSpan
  cases hParts : is.map (·.span) ++ ds.map (·.span) with
  | nil => exact Span.holds_nil _
  | cons x xs =>
      rw [hParts] at hLaid
      exact hLaid.own.holds (Nat.le_refl _) hStop

/- A token that is ahead stops behind what was reached. -/
theorem ParserState.Regular.reach_le_stop
    (hRegular : s.Regular)
    (hAhead : s.stream.ahead ≠ []) :
    s.reach ≤ s.token.span.stop.offset := by
  refine Nat.le_trans hRegular.reach_le_offset
    (hRegular.start_le _ ?_)
  unfold token TokenStream.current TokenStream.tokens
  cases hCons : s.stream.ahead with
  | nil => exact absurd hCons hAhead
  | cons a ahead => simp

/- The nodes of a program are placed. -/
theorem DerivesProgram.placed
    {p : Program}
    (hDerives : DerivesProgram s p)
    (hRegular : s.Regular)
    (hEnded : s.Ended) :
    p.IsPlaced := by
  rcases hDerives with ⟨hImports, hDeclarations⟩
  have hThere := hImports.leads hRegular.opened
  have hBehind := hDeclarations.leads hThere.regular
  have hFirst := hImports.laid hRegular.opened
  have hSecond := hDeclarations.laid hThere.regular
  have hEnds : s.opened.Ended := hEnded
  have hLeft :=
    (hEnds.crosses (hImports.crosses.trans
      hDeclarations.crosses)).left_pos
  have hAhead := List.ne_nil_of_length_pos hLeft
  exact
    { parts :=
        holds_programSpan (hFirst.1.append hSecond.1)
          (hBehind.regular.reach_le_stop hAhead)
      entries := hFirst.2
      nodes := hSecond.2 }

------------------------------------------------------------
-- Source texts
------------------------------------------------------------

/- Without the end of a text its other tokens are left. -/
theorem filter_concat_eof
    {ts : List Token}
    {last : Token}
    (hOthers : ∀ t ∈ ts, t.kind ≠ .eof)
    (hLast : last.kind = .eof) :
    (ts ++ [last]).filter (·.kind ≠ .eof) = ts := by
  have hAll :
      ts.filter (fun t => decide (t.kind ≠ .eof)) = ts :=
    List.filter_eq_self.2 fun t hMember =>
      decide_eq_true (hOthers t hMember)
  rw [List.filter_append, hAll]
  simp [hLast]

/-
  Each token of an accepted text lies in exactly one of its
  imports and declarations, which are in order, and each
  node of the program holds its parts, one behind the other.
-/
theorem cover_of_parseProgram
    {source file : String}
    {p : Program}
    (hAccepted : parseProgram source file = .ok p) :
    Span.Cover p.partSpans
        ((tokenize source (some file)).filter
          (·.kind ≠ .eof)) ∧
      p.IsPlaced := by
  have hDerives := derivesProgram_of_parseProgram hAccepted
  have hPlaced :=
    hDerives.placed (regular_initial source file)
      (ended_initial source file)
  refine ⟨?_, hPlaced⟩
  rcases hDerives with
    @⟨imports, t, declarations, u, hImports, hDeclarations⟩
  have hCrosses :=
    hImports.crosses.trans hDeclarations.crosses
  have hEnded :
      (ParserState.initial source file).opened.Ended :=
    ended_initial source file
  rcases tokens_of_crosses (ofSource_eq source file).2.1
    hCrosses (hEnded.crosses hCrosses) hDeclarations.kind_eq
    with ⟨ts, last, hTokens, hBrackets, hLeft⟩
  rcases hImports.exists_runs with ⟨tss, hFirst, hRuns⟩
  rcases hDeclarations.exists_runs with
    ⟨uss, hSecond, hOthers⟩
  have hOrder := tokensInOrder_tokenize source (some file)
  rw [hTokens] at hOrder
  have hFlat : (tss ++ uss).flatten = ts := by
    have hAll :
        ts ++ [last] =
          (tss ++ uss).flatten ++ u.stream.ahead := by
      rw [List.flatten_append, List.append_assoc,
        ← hSecond, ← hFirst, ← hTokens]
      exact (ofSource_eq source file).2.1.symm
    exact (List.append_inj_left' hAll hLeft.symm).symm
  have hPairwise := List.pairwise_append.1 hOrder.pairwise
  rw [hTokens, filter_concat_eof
    (fun t hMember =>
      (not_refused_of_bracketsAfter hBrackets hMember).2)
    hOrder.ends_concat.1, ← hFlat]
  refine Span.cover_of_spansRun (List.rel_append hRuns hOthers)
    hPlaced.parts.pairwise ?_ ?_
  · rw [hFlat]
    exact hPairwise.1
  · intro t hMember
    rw [hFlat] at hMember
    exact (hPairwise.2.2 t hMember last
      (List.mem_singleton_self last)).start_lt

/- An import and a property, whose type is left out. -/
theorem cover_of_parseProgram_import :
    ∃ p,
      parseProgram "import \"a\"\x7bb\x7dval x=-1;" "main" =
          .ok p ∧
        p.partSpans.map
            (fun x => (x.start.offset, x.stop.offset)) =
          [(0, 13), (13, 22)] ∧
          Span.Cover p.partSpans
              ((tokenize "import \"a\"\x7bb\x7dval x=-1;"
                (some "main")).filter (·.kind ≠ .eof)) ∧
            p.IsPlaced := by
  have hPlaces :
      (parseProgram "import \"a\"\x7bb\x7dval x=-1;"
          "main").map
          (·.partSpans.map fun x =>
            (x.start.offset, x.stop.offset)) =
        .ok [(0, 13), (13, 22)] := by
    cbv
  cases hParse :
      parseProgram "import \"a\"\x7bb\x7dval x=-1;" "main" with
  | error ds =>
      rw [hParse] at hPlaces
      cases hPlaces
  | ok p =>
      rw [hParse] at hPlaces
      rcases cover_of_parseProgram hParse with
        ⟨hCover, hPlaced⟩
      exact ⟨p, rfl, Except.ok.inj hPlaces, hCover, hPlaced⟩

end SourceCheck
