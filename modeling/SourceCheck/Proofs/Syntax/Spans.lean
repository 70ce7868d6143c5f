import SourceCheck.Proofs.Lexing.Cutting
import SourceCheck.Proofs.Operators.Sources
import SourceCheck.Proofs.Syntax.Completeness
import SourceCheck.Proofs.Syntax.Echo
import SourceCheck.Proofs.Syntax.Nodes
import SourceCheck.Proofs.Syntax.Splicing

/-
  The parts of a text that expressions stand for.

  An expression of a program is read between two states.  If
  the text is cut at both ends, the same tokens are left, and
  the end of the text behind them.  From these the expression
  is read again, and it is equivalent.

  The main statement is `parseExpression_slice`.
-/

namespace SourceCheck

open SourceCheck.Parser
open SourceCheck.ParserState
open SourceCheck.Grammar

variable {s t u : ParserState}
variable {e f : Expr}
variable {x : Splice}

------------------------------------------------------------
-- Expressions between two states
------------------------------------------------------------

/- Every operator binds more tightly than nothing does. -/
theorem loosest_lt
    {kind : TokenKind}
    {extender : Extender}
    {q : Power}
    (hOperator : kind.extender? = some (extender, q)) :
    Power.loosest < q := by
  rw [Power.lt_iff]
  cases kind <;> cases hOperator <;> decide

namespace ParserState.Stands

theorem exists_starter (hStands : s.Stands e t) :
    ∃ starter, s.token.kind.starter? = some starter := by
  induction hStands with
  | start hStart _ => exact ⟨_, hStart⟩
  | extension _ _ _ ih => exact ih

/- It closes all brackets that it opens. -/
theorem crosses (hStands : s.Stands e t) :
    s.Crosses [] t [] := by
  induction hStands with
  | start hStart hFirst =>
      exact (Crosses.next (enclose_of_starter hStart [])).trans
        (hFirst.crosses trivial [])
  | extension _ hOperator hExtension ih =>
      have hNext :=
        ih.trans (.next (enclose_of_extender hOperator []))
      exact hNext.trans (hExtension.crosses trivial [])

/- Its span is from its first to its last token. -/
theorem extent (hStands : s.Stands e t) :
    e.span.start = s.token.span.start ∧ t.EndsAt e.span := by
  induction hStands with
  | start hStart hFirst =>
      have hToken := endsAt_next (ne_eof_of_starter hStart)
      have hExtent := hFirst.extent
      exact ⟨hExtent.1, hExtent.2 hToken⟩
  | extension _ _ hExtension ih =>
      have hExtent := hExtension.extent
      exact ⟨hExtent.1.trans ih.1, hExtent.2⟩

theorem left_lt (hStands : s.Stands e t) :
    t.left < s.left := by
  induction hStands with
  | start hStart hFirst =>
      have hPassed := left_next (ne_eof_of_starter hStart)
      exact Nat.lt_of_le_of_lt hFirst.left_le hPassed
  | @extension left t extender q e u _ _ hExtension ih =>
      have hPassed := t.left_next_le
      have hBehind := hExtension.left_le
      dsimp only [Phrase.least] at hBehind
      omega

/- It may stand at the end of a text as well. -/
theorem spliced
    (hStands : s.Stands e t)
    (hKind : x.kind = .eof) :
    x.count ≤ t.left →
      (s.spliced x).Stands e (t.spliced x) := by
  induction hStands with
  | @start starter e t hStart hFirst =>
      intro hLeft
      have hInside : x.count < s.left :=
        Nat.lt_of_le_of_lt hLeft (left_lt (.start hStart hFirst))
      have hAgain :=
        hFirst.spliced (x := x) ⟨hLeft, fun _ => hKind⟩
      rw [← next_spliced hInside,
        ← token_spliced (x := x) hInside] at hAgain
      exact .start (by rwa [token_spliced hInside]) hAgain
  | @extension left t extender q e u _ hOperator
      hExtension ih =>
      intro hEnd
      have hBehind := hExtension.left_le
      have hPassed :=
        left_next (ne_eof_of_extender hOperator)
      dsimp only [Phrase.least] at hBehind
      have hInside : x.count < t.left := by omega
      have hAgain :=
        hExtension.spliced (x := x) ⟨hEnd, fun _ => hKind⟩
      rw [← next_spliced hInside,
        ← token_spliced (x := x) hInside] at hAgain
      have hThere :
          (t.spliced x).token.kind.extender? =
            some (extender, q) := by
        rwa [token_spliced hInside]
      have hLeft := ih (Nat.le_of_lt hInside)
      exact .extension (t := t.spliced x) hLeft hThere hAgain

/- Every operator extends what nothing binds. -/
theorem derives
    (hStands : s.Stands e t)
    (hMore : Derives (.extensions .loosest e) t f u) :
    Derives (.expression .loosest) s f u := by
  induction hStands with
  | start hStart hFirst =>
      exact .expression hStart hFirst hMore
  | @extension left t extender q e v _ hOperator hExtension
      ih =>
      exact ih (.more hOperator (loosest_lt hOperator)
        hExtension hMore)

end ParserState.Stands

------------------------------------------------------------
-- The end of the text behind an expression
------------------------------------------------------------

/- The end of a text in the place of the last tokens. -/
def Splice.ofEnd (count : Nat) : Splice where
  count := count
  tokens := [⟨.eof, "EOF", Span.null⟩]
  last := ⟨.eof, "EOF", Span.null⟩
  kind_last := rfl

/- Before the end of the text only what is passed is left. -/
theorem ahead_ofEnd
    {ts : List Token}
    (hPasses : s.Passes ts t) :
    (s.spliced (.ofEnd t.left)).stream.ahead =
      ts ++ [⟨.eof, "EOF", Span.null⟩] := by
  have hCount : s.left - t.left = ts.length := by
    unfold left
    rw [hPasses.ahead_eq, List.length_append,
      Nat.add_sub_cancel]
  change s.stream.ahead.take (s.left - t.left) ++ _ = _
  rw [hCount, hPasses.ahead_eq, List.take_left]
  rfl

/-
  Where the words of an expression stand alone, the
  expression is read again.
-/
theorem ParserState.Stands.accepted
    {ts : List Token}
    {source file : String}
    (hStands : s.Stands e t)
    (hPasses : s.Passes ts t)
    (hWords :
      (tokenize source (some file)).map Token.word =
        ts.map Token.word ++ [(.eof, "EOF")]) :
    ∃ f,
      parseExpression source file = .ok f ∧
        e.equivalent f = true := by
  have hAhead := ahead_ofEnd hPasses
  have hStream := ofSource_eq source file
  have hEchoes :
      (s.spliced (.ofEnd t.left)).Echoes s.scopes
        (.initial source file) :=
    { ahead := by
        change (TokenStream.ofSource source file).ahead.map _ =
          _
        rw [hStream.2.1, hWords, hAhead, List.map_append]
        rfl
      last := by
        have hLast :=
          congrArg (Option.map Token.word) hStream.2.2
        rw [← List.getLast?_map, hWords,
          List.getLast?_concat] at hLast
        exact (Option.some.inj hLast).symm
      scopes := ⟨[], rfl, .nil⟩
      nodup := .nil
      scopes_lt := List.forall_mem_nil _ }
  have hEnd :
      (t.spliced (.ofEnd t.left)).token.kind = .eof :=
    kind_spliced rfl
  have hAlone :=
    (hStands.spliced (x := .ofEnd t.left) rfl
      (Nat.le_refl _)).derives
        (.stop (by rw [hEnd]; exact nofun))
  rcases hAlone.repeats hEchoes with
    ⟨f, t', hAgain, hThen, hMirrors⟩
  -- The end of the text is still ahead behind the copy.
  have hMore : 0 < t'.left := by
    have hLength := congrArg List.length hThen.ahead
    rw [List.length_map, List.length_map,
      ahead_ofEnd (.refl t)] at hLength
    unfold left
    rw [hLength]
    exact Nat.one_pos
  rcases hAgain.crosses trivial [] with ⟨us, hPassed, -⟩
  refine ⟨f, ?_, hMirrors.equivalent⟩
  refine parse_of_outcome (t := t') ?_ hPassed.diagnostics_eq
  unfold Grammar.closed
  rw [outcome_bind, outcome_get]
  refine outcome_required (hAgain.runs hMore _ ?_)
  unfold left
  omega

------------------------------------------------------------
-- The part of the text
------------------------------------------------------------

theorem isInText_of_starter
    {kind : TokenKind}
    {starter : Starter}
    (hStart : kind.starter? = some starter) :
    kind.isInText = false := by
  cases kind <;> first | rfl | cases hStart

/- Before the end of a text no token of it is passed over. -/
theorem ahead_ne_of_crosses
    {source file : String}
    {ts : List Token}
    (hTokens : s.stream.tokens = tokenize source (some file))
    (hPasses : s.Passes ts t)
    (hSome : ts ≠ [])
    (hBrackets : bracketsAfter [] ts = some []) :
    t.stream.ahead ≠ [] := by
  intro hNone
  rcases (tokensInOrder_tokenize source (some file)).ends
    with ⟨front, last, hEnd, hLast, -⟩
  have hAll : s.stream.before.reverse ++ ts =
      front ++ [last] := by
    rw [← hEnd, ← hTokens]
    unfold TokenStream.tokens
    rw [hPasses.ahead_eq, hNone, List.append_nil]
  have hMember : last ∈ ts := by
    have hFinal := congrArg List.getLast? hAll
    rw [List.getLast?_append_of_ne_nil _ hSome,
      List.getLast?_concat] at hFinal
    exact List.mem_of_getLast? hFinal
  exact (not_refused_of_bracketsAfter hBrackets hMember).2
    hLast

/- An expression is read again from its part of the text. -/
theorem ParserState.Stands.accepted_slice
    {source file : String}
    (hStands : s.Stands e t)
    (hTokens : s.stream.tokens = tokenize source (some file))
    (other : String) :
    ∃ f,
      parseExpression
          (slice source e.span.start.offset
            e.span.stop.offset)
          other =
        .ok f ∧
        e.equivalent f = true := by
  rcases hStands.crosses with ⟨ts, hPasses, hBrackets⟩
  rcases hStands.exists_starter with ⟨starter, hStart⟩
  rcases hStands.extent with ⟨hFrom, hTo⟩
  have hSome : ts ≠ [] := by
    rintro rfl
    have hLess := hStands.left_lt
    unfold left at hLess
    rw [hPasses.ahead_eq] at hLess
    exact Nat.lt_irrefl _ hLess
  rcases hPasses.ends hSome with ⟨hFirst, hLast⟩
  have hAll :
      tokenize source (some file) =
        s.stream.before.reverse ++ (ts ++ t.stream.ahead) := by
    rw [← hTokens, ← hPasses.ahead_eq]
    rfl
  have hWords :=
    words_tokenize_slice hAll hFirst hLast
      (ahead_ne_of_crosses hTokens hPasses hSome hBrackets)
      (isInText_of_starter hStart)
      (depthAfter_of_bracketsAfter hBrackets) (some other)
  have hStop :
      e.span.stop.offset =
        t.stream.previous.span.stop.offset :=
    hTo.trans (endsAt_previous (hPasses.before_ne hSome)).symm
  rw [hFrom, hStop]
  exact hStands.accepted hPasses hWords

/-
  The span of an expression says where it stands: from this
  part of the text alone an equivalent expression is parsed.
  The texts of templates are no expressions of their own.
-/
theorem parseExpression_slice
    {source file : String}
    {program : Program}
    (hParse : parseProgram source file = .ok program)
    {x : Node}
    (hNode : x ∈ program.nodes)
    (hOwn : x.isText = false)
    (other : String) :
    ∃ f,
      parseExpression
          (slice source x.expr.span.start.offset
            x.expr.span.stop.offset)
          other =
        .ok f ∧
        x.expr.equivalent f = true := by
  rcases x with ⟨e, isText⟩
  cases hOwn
  rcases (derivesProgram_of_parseProgram hParse).finds
    _ hNode with ⟨s, t, hSame, hStands⟩
  exact hStands.accepted_slice
    (hSame.trans (tokens_initial source file)) other

/- A sum in a template, which the cut leaves alone. -/
theorem parseExpression_slice_embedded :
    ∃ program x f,
      parseProgram "val s = \"a\\\x7b-y + 1\x7d\";" "main" =
          .ok program ∧
        x ∈ program.nodes ∧ x.isText = false ∧
          x.expr.span.start.offset = 12 ∧
            x.expr.span.stop.offset = 18 ∧
              parseExpression
                  (slice "val s = \"a\\\x7b-y + 1\x7d\";"
                    12 18)
                  "part" =
                .ok f ∧
                x.expr.equivalent f = true := by
  have hPlaces :
      (parseProgram "val s = \"a\\\x7b-y + 1\x7d\";"
          "main").map
          (·.nodes.map fun x =>
            (x.isText, x.expr.span.start.offset,
              x.expr.span.stop.offset)) =
        .ok
          [(false, 8, 20), (true, 9, 10), (false, 12, 18),
            (false, 12, 14), (false, 13, 14),
            (false, 17, 18)] := by
    cbv
  cases hParse :
      parseProgram "val s = \"a\\\x7b-y + 1\x7d\";" "main" with
  | error ds =>
      rw [hParse] at hPlaces
      cases hPlaces
  | ok program =>
      rw [hParse] at hPlaces
      have hMember :
          (false, 12, 18) ∈
            program.nodes.map fun x =>
              (x.isText, x.expr.span.start.offset,
                x.expr.span.stop.offset) := by
        have hNodes := Except.ok.inj hPlaces
        dsimp only at hNodes
        rw [hNodes]
        decide
      rcases List.mem_map.1 hMember with ⟨x, hNode, hPlace⟩
      rcases Prod.ext_iff.1 hPlace with ⟨hOwn, hSpan⟩
      rcases Prod.ext_iff.1 hSpan with ⟨hStart, hStop⟩
      rcases parseExpression_slice hParse hNode hOwn "part"
        with ⟨f, hPart, hSame⟩
      dsimp only at hStart hStop
      rw [hStart, hStop] at hPart
      exact ⟨program, x, f, rfl, hNode, hOwn, hStart, hStop,
        hPart, hSame⟩

end SourceCheck
