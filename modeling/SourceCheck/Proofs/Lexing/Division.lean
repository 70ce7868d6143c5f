import SourceCheck.Proofs.Lexing.Places
import SourceCheck.Proofs.Lexing.Reading

/-
  Tokens divide a text.

  Between the tokens of a text there are only blanks and
  comments, and none of them in a string.  The tokens are the
  parts of the text that their spans say, one behind the
  other, and the last of them is at the end of the text.

  Key definitions include:
    * `IsLayout`
    * `Divides`

  The main statement is `tokenize_divides`.
-/

namespace SourceCheck

------------------------------------------------------------
-- Gaps
------------------------------------------------------------

/-
  Blanks and comments.  A comment goes up to the end of its
  line, or of the text.
-/
inductive IsLayout : List Char → Prop where
  | nil : IsLayout []
  | blank {c cs}
      (hBlank : isGap c)
      (hRest : IsLayout cs) :
      IsLayout (c :: cs)
  | comment {text cs}
      (hText : '\n' ∉ text)
      (hEnd : cs = [] ∨ cs.head? = some '\n')
      (hRest : IsLayout cs) :
      IsLayout ('/' :: '/' :: text ++ cs)

/- Blanks may stand before other layout. -/
theorem IsLayout.blanks
    {blanks cs : List Char}
    (hBlanks : ∀ c ∈ blanks, isGap c)
    (hRest : IsLayout cs) :
    IsLayout (blanks ++ cs) := by
  induction blanks with
  | nil => exact hRest
  | cons c blanks ih =>
      refine .blank (hBlanks c List.mem_cons_self) (ih ?_)
      exact fun d hMem =>
        hBlanks d (List.mem_cons_of_mem c hMem)

/- A symbol is no gap. -/
theorem kind_symbol_ne_none (c : Char) (cs : List Char) :
    (symbol c cs).kind ≠ none := by
  unfold symbol
  split <;> exact nofun

/- No lexeme of a string is a gap. -/
theorem kind_textLexeme_ne_none
    (c : Char)
    (cs : List Char) :
    (textLexeme c cs).kind ≠ none := by
  unfold textLexeme
  split
  · exact nofun
  split
  · unfold backslashLexeme codePointLexeme
    split
    case h_2 =>
      split
      · exact nofun
      · split
        · split <;> exact nofun
        · exact nofun
    all_goals exact nofun
  · exact nofun

/- A gap is a run of blanks, or a comment. -/
theorem codeLexeme_of_gap
    {c : Char}
    {cs : List Char}
    (hGap : (codeLexeme c cs).kind = none) :
    isGap c ∧ codeLexeme c cs = .gap (countWhile isGap cs) ∨
      c = '/' ∧ cs.head? = some '/' ∧
        codeLexeme c cs =
          .gap (countWhile (· != '\n') cs) := by
  unfold codeLexeme at hGap ⊢
  split at hGap
  · rename_i hBlank
    rw [if_pos hBlank]
    exact .inl ⟨hBlank, rfl⟩
  rename_i hBlank
  rw [if_neg hBlank]
  split at hGap
  · rename_i hComment
    rw [if_pos hComment]
    right
    simpa using hComment
  split at hGap
  · cases hGap
  split at hGap
  · rw [kind_intLexeme] at hGap
    cases hGap
  split at hGap
  · cases hGap
  · exact absurd hGap (kind_symbol_ne_none _ _)

/- A gap is no part of a string, and is read as in code. -/
theorem lexeme_of_gap
    {es : List Enclosure}
    {c : Char}
    {cs : List Char}
    (hGap : (lexeme es c cs).kind = none) :
    Mode.ofEnclosures es ≠ .text ∧
      lexeme es c cs = codeLexeme c cs := by
  match es with
  | [] => exact ⟨nofun, rfl⟩
  | .text :: _ =>
      exact absurd hGap (kind_textLexeme_ne_none _ _)
  | .template (_ + 1) :: _ => exact ⟨nofun, rfl⟩
  | .template 0 :: es =>
      have hBrace :
          lexeme (.template 0 :: es) c cs =
            if c = '\x7d' then .token .stringTemplateEnd 0
            else codeLexeme c cs :=
        rfl
      rw [hBrace] at hGap ⊢
      split at hGap
      · cases hGap
      · rename_i hOpen
        exact ⟨nofun, if_neg hOpen⟩

/-
  What a gap lexeme leaves of a layout is layout.  Behind a
  comment nothing or a line feed is left.
-/
theorem IsLayout.gap
    {c : Char}
    {cs gap rest : List Char}
    (hGap : (codeLexeme c cs).kind = none)
    (hLater :
      cs.drop (codeLexeme c cs).more = gap ++ rest)
    (hLayout : IsLayout gap) :
    IsLayout
      (c :: cs.take (codeLexeme c cs).more ++ gap) := by
  rcases codeLexeme_of_gap hGap with
    ⟨hBlank, hLexeme⟩ | ⟨rfl, hHead, hLexeme⟩
  · rw [hLexeme]
    refine .blank hBlank (.blanks ?_ hLayout)
    intro d hMem
    rw [Lexeme.gap, take_countWhile] at hMem
    exact List.mem_takeWhile_imp hMem
  · rw [hLexeme] at hLater ⊢
    rw [Lexeme.gap, drop_countWhile] at hLater
    rw [Lexeme.gap, take_countWhile]
    cases cs with
    | nil => cases hHead
    | cons d ds =>
        cases hHead
        refine .comment ?_ ?_ hLayout
        · intro hMem
          have hNot := List.mem_takeWhile_imp hMem
          revert hNot
          decide
        · cases gap with
          | nil => exact .inl rfl
          | cons e gap =>
              right
              have hStop :=
                List.head?_dropWhile_not (· != '\n')
                  ('/' :: ds)
              rw [hLater] at hStop
              simpa using hStop

/-
  What is passed without reading a token is layout, and is
  not in a string.
-/
theorem Lexer.Reads.exists_gap
    {l l' : Lexer}
    {ts : List Token}
    (hReads : l.Reads ts l')
    (hNone : ts = []) :
    ∃ gap,
      l.rest = gap ++ l'.rest ∧ IsLayout gap ∧
        l'.position = l.position.afterAll gap ∧
          (gap ≠ [] →
            Mode.ofEnclosures l.enclosures ≠ .text) := by
  induction hReads with
  | done =>
      exact ⟨[], rfl, .nil, rfl,
        fun hNot => absurd rfl hNot⟩
  | @next l c cs ts l' hRest _ ih =>
      rcases List.append_eq_nil_iff.1 hNone with
        ⟨hMade, hLater⟩
      have hGap : (lexeme l.enclosures c cs).kind = none := by
        simpa [Lexer.made] using hMade
      rcases lexeme_of_gap hGap with ⟨hMode, hCode⟩
      rcases ih hLater with
        ⟨gap, hPass, hLayout, hPosition, -⟩
      refine ⟨l.word (lexeme l.enclosures c cs) ++ gap,
        ?_, ?_, ?_, fun _ => hMode⟩
      · rw [List.append_assoc, ← hPass, l.word_append_rest]
      · rw [hCode] at hGap hPass ⊢
        unfold Lexer.word
        unfold Lexer.pass at hPass
        rw [hRest] at hPass ⊢
        exact hLayout.gap hGap hPass
      · rw [Position.afterAll_append]
        exact hPosition

------------------------------------------------------------
-- Tokens
------------------------------------------------------------

/- The place behind the last token, or the first place. -/
def reach (ts : List Token) : Nat :=
  (ts.getLast?.map (·.span.stop.offset)).getD 0

/-
  The tokens divide the text.

  The last token, and no other, is the end of the text.  Each
  other token is a part of the text that is not empty, and
  starts where those before it have ended, or behind a gap
  outside of strings.
-/
structure Divides
    (source : String)
    (ts : List Token) :
    Prop where
  stop :
    ∃ front last,
      ts = front ++ [last] ∧ last.kind = .eof ∧
        last.span.start = last.span.stop ∧
          last.span.stop.offset = source.utf8ByteSize ∧
            ∀ t ∈ front, t.kind ≠ .eof
  text :
    ∀ t ∈ ts,
      t.kind ≠ .eof →
        t.value ≠ "" ∧
          t.value =
            slice source t.span.start.offset
              t.span.stop.offset
  order :
    ∀ t ∈ ts, t.span.start.offset ≤ t.span.stop.offset
  disjoint :
    ts.Pairwise fun t u =>
      t.span.stop.offset ≤ u.span.start.offset
  gap :
    ∀ front t back,
      ts = front ++ t :: back →
        ∃ gap,
          slice source (reach front) t.span.start.offset =
              String.ofList gap ∧
            IsLayout gap ∧
              (gap ≠ [] →
                Mode.ofEnclosures
                    (Enclosure.afterAll
                      (front.map (·.kind)) []) ≠ .text)
  place :
    ∀ t ∈ ts,
      ∀ p ∈ [t.span.start, t.span.stop],
        ∃ before after,
          source.toList = before ++ after ∧ p.Marks before

/-
  A token that others stand before, in its text: what they
  reach, the gap in front of the token, the text of the
  token, and what is left.  The end of the text has no text,
  and nothing is left behind it.
-/
structure StandsIn
    (source : String)
    (front : List Token)
    (t : Token)
    (before gap text after : List Char) :
    Prop where
  source_eq : source.toList = before ++ gap ++ text ++ after
  reach_eq : reach front = utf8Length before
  layout : IsLayout gap
  mode :
    gap ≠ [] →
      Mode.ofEnclosures
          (Enclosure.afterAll (front.map (·.kind)) []) ≠ .text
  start : t.span.start.Marks (before ++ gap)
  stop : t.span.stop.Marks (before ++ gap ++ text)
  kind :
    t.kind = .eof ∧ text = [] ∧ after = [] ∨
      t.kind ≠ .eof ∧ text ≠ [] ∧
        t.value = String.ofList text

/- Every token stands in its text. -/
theorem exists_standsIn
    {source : String}
    {file? : Option String}
    {front back : List Token}
    {t : Token}
    (hTokens : tokenize source file? = front ++ t :: back) :
    ∃ before gap text after,
      StandsIn source front t before gap text after := by
  rcases Lexer.reads_of_tokens hTokens
      (List.cons_ne_nil t back) with
    ⟨l, hFront, hSame, hReach⟩
  rcases Lexer.tokens_eq_cons hSame with
    ⟨l', hNone, hBehind, hNext⟩
  rcases hFront.exists_rest with ⟨before, hBefore, hAt⟩
  rcases hNone.exists_gap rfl with
    ⟨gap, hGap, hLayout, hBehindGap, hMode⟩
  rw [hFront.enclosures_eq] at hMode
  have hFirst : l.position.Marks before := by
    rw [hAt]
    exact (Position.marks_first _).afterAll before
  have hStart : l'.position.Marks (before ++ gap) := by
    rw [hBehindGap]
    exact hFirst.afterAll gap
  have hReachEq : reach front = utf8Length before := by
    rw [← hFirst.offset, hReach]
    unfold reach
    cases front.getLast? <;> rfl
  rcases hNext with
    ⟨hEnd, -⟩ | ⟨c, cs, hRest, hMade, -⟩
  · rw [Lexer.tokens_of_end hEnd] at hBehind
    cases hBehind
    refine ⟨before, gap, [], [], ?_, hReachEq, hLayout,
      hMode, hStart, ?_, .inl ⟨rfl, rfl, rfl⟩⟩
    · have hAll : source.toList = before ++ l.rest := hBefore
      rw [hAll, hGap, hEnd, List.append_assoc,
        List.append_assoc]
      rfl
    · rw [List.append_nil]
      exact hStart
  · have hReads := Lexer.Reads.next hRest .done
    rw [hMade] at hReads
    have hEof := hReads.kind_ne_eof List.mem_cons_self
    unfold Lexer.made at hMade
    cases hKind : (lexeme l'.enclosures c cs).kind with
    | none =>
        rw [hKind] at hMade
        cases hMade
    | some kind =>
        rw [hKind] at hMade
        cases hMade
        refine ⟨before, gap,
          l'.word (lexeme l'.enclosures c cs),
          (l'.pass (lexeme l'.enclosures c cs)).rest,
          ?_, hReachEq, hLayout, hMode, hStart,
          hStart.afterAll _, .inr ⟨hEof, ?_, rfl⟩⟩
        · have hAll : source.toList = before ++ l.rest :=
            hBefore
          rw [hAll, hGap, List.append_assoc,
            l'.word_append_rest, List.append_assoc]
        · unfold Lexer.word
          rw [hRest, List.take_succ_cons]
          exact List.cons_ne_nil _ _

/- A token that stands in a text has its span there. -/
theorem StandsIn.offset_le
    {source : String}
    {front : List Token}
    {t : Token}
    {before gap text after : List Char}
    (hStands :
      StandsIn source front t before gap text after) :
    reach front ≤ t.span.start.offset ∧
      t.span.start.offset ≤ t.span.stop.offset := by
  rw [hStands.reach_eq, hStands.start.offset,
    hStands.stop.offset, utf8Length_append _ text,
    utf8Length_append before gap]
  exact ⟨Nat.le_add_right _ _, Nat.le_add_right _ _⟩

/- Each token starts behind those before it. -/
theorem stop_le_reach
    {source : String}
    {file? : Option String}
    {front back : List Token}
    (hTokens : tokenize source file? = front ++ back)
    {t : Token}
    (hMem : t ∈ front) :
    t.span.stop.offset ≤ reach front := by
  induction front using List.reverseRecOn generalizing back with
  | nil => cases hMem
  | append_singleton front u ih =>
      have hReach :
          reach (front ++ [u]) = u.span.stop.offset := by
        unfold reach
        rw [List.getLast?_concat]
        rfl
      rw [hReach]
      rw [List.append_assoc] at hTokens
      rcases List.mem_append.1 hMem with hFront | hLast
      · rcases exists_standsIn hTokens with
          ⟨_, _, _, _, hStands⟩
        exact Nat.le_trans (ih hTokens hFront)
          (Nat.le_trans hStands.offset_le.1
            hStands.offset_le.2)
      · rw [List.mem_singleton.1 hLast]

/- So they follow each other in the text. -/
theorem pairwise_stop_le_start
    {source : String}
    {file? : Option String}
    {front back : List Token}
    (hTokens : tokenize source file? = front ++ back) :
    front.Pairwise fun t u =>
      t.span.stop.offset ≤ u.span.start.offset := by
  induction front using List.reverseRecOn generalizing back with
  | nil => exact .nil
  | append_singleton front u ih =>
      rw [List.append_assoc] at hTokens
      rcases exists_standsIn hTokens with
        ⟨_, _, _, _, hStands⟩
      refine List.pairwise_append.2
        ⟨ih hTokens, List.pairwise_singleton _ u, ?_⟩
      intro t hFront v hLast
      rw [List.mem_singleton.1 hLast]
      exact Nat.le_trans (stop_le_reach hTokens hFront)
        hStands.offset_le.1

/-
  The tokens of every text divide it: each is a part of it,
  they stand one behind the other, and between them there is
  only layout.
-/
theorem tokenize_divides
    (source : String)
    (file? : Option String) :
    Divides source (tokenize source file?) where
  stop := by
    rcases Lexer.exists_reads_end
        (Lexer.start source file?) with
      ⟨front, l, hReads, hEnd, hTokens⟩
    rcases hReads.exists_rest with ⟨text, hText, hAt⟩
    have hAll : source.toList = text := by
      rw [hEnd, List.append_nil] at hText
      exact hText
    refine ⟨front, _, hTokens, rfl, rfl, ?_,
      fun t hMem => hReads.kind_ne_eof hMem⟩
    have hMarks := (Position.marks_first
      (file?.getD Lexer.unnamed)).afterAll text
    rw [utf8ByteSize_eq, hAll]
    change l.position.offset = _
    rw [hAt]
    exact hMarks.offset
  text := by
    intro t hMem hKind
    rcases List.append_of_mem hMem with ⟨front, back, hTokens⟩
    rcases exists_standsIn hTokens with
      ⟨before, gap, text, after, hStands⟩
    rcases hStands.kind with
      ⟨hEof, -⟩ | ⟨-, hText, hValue⟩
    · exact absurd hEof hKind
    · rw [hValue, hStands.start.offset, hStands.stop.offset,
        slice_of_append hStands.source_eq]
      refine ⟨fun hEmpty => hText ?_, rfl⟩
      exact String.ofList_eq_empty_iff.1 hEmpty
  order := by
    intro t hMem
    rcases List.append_of_mem hMem with ⟨front, back, hTokens⟩
    rcases exists_standsIn hTokens with ⟨_, _, _, _, hStands⟩
    exact hStands.offset_le.2
  disjoint :=
    pairwise_stop_le_start
      (List.append_nil (tokenize source file?)).symm
  gap := by
    intro front t back hTokens
    rcases exists_standsIn hTokens with
      ⟨before, gap, text, after, hStands⟩
    refine ⟨gap, ?_, hStands.layout, hStands.mode⟩
    have hParts :
        source.toList = before ++ gap ++ (text ++ after) := by
      rw [hStands.source_eq, List.append_assoc]
    rw [hStands.reach_eq, hStands.start.offset,
      slice_of_append hParts]
  place := by
    intro t hMem p hEnd
    rcases List.append_of_mem hMem with ⟨front, back, hTokens⟩
    rcases exists_standsIn hTokens with
      ⟨before, gap, text, after, hStands⟩
    rcases List.mem_cons.1 hEnd with rfl | hStop
    · refine ⟨before ++ gap, text ++ after, ?_,
        hStands.start⟩
      rw [hStands.source_eq, List.append_assoc]
    · rw [List.mem_singleton.1 hStop]
      exact ⟨_, after, hStands.source_eq, hStands.stop⟩

end SourceCheck
