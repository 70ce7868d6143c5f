import SourceCheck.Proofs.Lexing.Breaks

/-
  Texts that go on in a new line.

  No token outside of strings reaches over the end of a
  line.  So where a text has closed all of its strings, its
  tokens stay if another text is put behind it in a new line,
  and they are followed by the tokens of the other text.

  Key theorems include:
    * `more_lexeme_line`
    * `Lexer.Reads.extend`
    * `tokenize_appended`
    * `tokenize_lines`
-/

namespace SourceCheck

------------------------------------------------------------
-- Lexemes at the end of a line
------------------------------------------------------------

section Lines

variable {c : Char}
variable {cs post : List Char}

/- No escape reaches over the end of a line. -/
theorem more_backslashLexeme_line (cs post : List Char) :
    (backslashLexeme (cs ++ '\n' :: post)).more ≤
      cs.length := by
  cases cs with
  | nil => exact Nat.le_refl 0
  | cons d ds =>
      exact more_backslashLexeme_break (by decide) d ds post

/- A run of one class is all there is before the line's end. -/
theorem takeWhile_eq_of_long
    {p : Char → Bool}
    (hLong :
      cs.length < countWhile p (cs ++ '\n' :: post)) :
    cs.takeWhile p = cs := by
  unfold countWhile at hLong
  rw [List.takeWhile_append] at hLong
  split at hLong
  · rename_i hAll
    exact (List.takeWhile_sublist p).eq_of_length hAll
  · exact absurd (List.takeWhile_sublist p).length_le
      (Nat.not_le.2 hLong)

/-
  What reaches over the end of a line are blanks, or it is
  the text of a string.
-/
theorem more_lexeme_line
    {es : List Enclosure}
    (hLong :
      cs.length < (lexeme es c (cs ++ '\n' :: post)).more) :
    isGap c ∧ cs.takeWhile isGap = cs ∧
        Mode.ofEnclosures es ≠ .text ∨
      Mode.ofEnclosures es = .text ∧
        lexeme es c cs = .token .stringContent cs.length := by
  have hCode
      (hMode : Mode.ofEnclosures es ≠ .text)
      (hLong :
        cs.length <
          (codeLexeme c (cs ++ '\n' :: post)).more) :
      isGap c ∧ cs.takeWhile isGap = cs ∧
        Mode.ofEnclosures es ≠ .text := by
    cases hGap : isGap c with
    | true =>
        unfold codeLexeme at hLong
        rw [if_pos hGap] at hLong
        exact ⟨rfl, takeWhile_eq_of_long hLong, hMode⟩
    | false =>
        have hLine : '\n' ∈ codeBreaks := by
          decide
        exact absurd
          (more_codeLexeme_break hGap hLine fun _ _ => rfl)
          (Nat.not_le.2 hLong)
  match es with
  | [] => exact .inl (hCode nofun hLong)
  | .template (_ + 1) :: _ => exact .inl (hCode nofun hLong)
  | .template 0 :: _ =>
      refine .inl (hCode nofun ?_)
      change
        cs.length <
          (if c = '\x7d' then
            .token .stringTemplateEnd 0
          else
            codeLexeme c (cs ++ '\n' :: post)).more at hLong
      split at hLong
      · exact absurd hLong (Nat.not_lt_zero _)
      · exact hLong
  | .text :: _ =>
      refine .inr ⟨rfl, ?_⟩
      change cs.length <
        (textLexeme c (cs ++ '\n' :: post)).more at hLong
      change textLexeme c cs = _
      unfold textLexeme at hLong ⊢
      split at hLong
      · exact absurd hLong (Nat.not_lt_zero _)
      · rename_i hQuote
        rw [if_neg hQuote]
        split at hLong
        · exact absurd (more_backslashLexeme_line cs post)
            (Nat.not_le.2 hLong)
        · rename_i hBackslash
          rw [if_neg hBackslash]
          unfold countWhile
          rw [takeWhile_eq_of_long hLong]

end Lines

------------------------------------------------------------
-- Reading on
------------------------------------------------------------

namespace Lexer

variable {l l' : Lexer}
variable {ts : List Token}

/- A lexer with more text behind the text that is left. -/
def followedBy (l : Lexer) (post : List Char) : Lexer :=
  { l with rest := l.rest ++ post }

/- A lexeme is passed alike if it does not reach the end. -/
theorem pass_followedBy
    {piece : Lexeme}
    (hShort : piece.more < l.rest.length)
    (post : List Char) :
    (l.followedBy post).pass piece =
      (l.pass piece).followedBy post := by
  unfold pass word followedBy
  dsimp only
  rw [List.take_append_of_le_length hShort,
    List.drop_append_of_le_length hShort]

theorem made_followedBy
    {piece : Lexeme}
    (hShort : piece.more < l.rest.length)
    (post : List Char) :
    (l.followedBy post).made piece = l.made piece := by
  unfold made
  rw [pass_followedBy hShort]
  unfold word followedBy
  dsimp only
  rw [List.take_append_of_le_length hShort]

/- A lexeme that is all of the text. -/
theorem pass_all
    {c : Char}
    {cs : List Char}
    (hRest : l.rest = c :: cs)
    (piece : Lexeme)
    (hMore : piece.more = cs.length) :
    l.pass piece =
      ⟨l.position.afterAll (c :: cs),
        enclosuresAfter piece.kind l.enclosures, []⟩ := by
  unfold pass word
  rw [hRest, hMore, List.take_succ_cons, List.take_length,
    List.drop_succ_cons, List.drop_length]

/- Nothing is read behind the end of a text. -/
theorem Reads.eq_of_end
    (hReads : Reads l ts l')
    (hEnd : l.rest = []) :
    ts = [] ∧ l' = l := by
  cases hReads with
  | done => exact ⟨rfl, rfl⟩
  | next hRest _ =>
      rw [hEnd] at hRest
      cases hRest

/- Outside of strings blanks are one lexeme. -/
theorem lexeme_blanks
    {es : List Enclosure}
    {c : Char}
    (hMode : Mode.ofEnclosures es ≠ .text)
    (hGap : isGap c)
    (cs : List Char) :
    lexeme es c cs = .gap (countWhile isGap cs) := by
  have hCode :
      codeLexeme c cs = .gap (countWhile isGap cs) := by
    unfold codeLexeme
    rw [if_pos hGap]
  match es with
  | [] => exact hCode
  | .text :: _ => exact absurd rfl hMode
  | .template (_ + 1) :: _ => exact hCode
  | .template 0 :: _ =>
      unfold lexeme
      rw [← hCode]
      refine if_neg ?_
      rintro rfl
      cases hGap

theorem reads_blanks
    {c : Char}
    {cs : List Char}
    (hRest : l.rest = c :: cs)
    (hMode : Mode.ofEnclosures l.enclosures ≠ .text)
    (hGap : isGap c) :
    Reads l []
      ⟨l.position.afterAll (c :: cs.takeWhile isGap),
        l.enclosures, cs.dropWhile isGap⟩ := by
  have hRead := Reads.next hRest .done
  rw [lexeme_blanks hMode hGap cs] at hRead
  unfold pass word at hRead
  rw [hRest, List.take_succ_cons, List.drop_succ_cons]
    at hRead
  rw [← take_countWhile, ← drop_countWhile]
  exact hRead

/- Blanks of two lines are read together. -/
theorem exists_reads_blanks
    {c : Char}
    {cs : List Char}
    (hRest : l.rest = c :: cs)
    (hGap : isGap c)
    (hAll : cs.takeWhile isGap = cs)
    (hClosed : l.enclosures = [])
    (post : List Char) :
    ∃ m,
      Reads (l.followedBy ('\n' :: post)) [] m ∧
        Reads
          ⟨l.position.afterAll (c :: cs), l.enclosures,
            '\n' :: post⟩
          [] m := by
  have hMode : Mode.ofEnclosures l.enclosures ≠ .text := by
    rw [hClosed]
    exact nofun
  have hNone : cs.dropWhile isGap = [] := by
    have hParts : cs.takeWhile isGap ++ cs.dropWhile isGap = cs :=
      List.takeWhile_append_dropWhile
    rw [hAll] at hParts
    exact List.append_right_eq_self.1 hParts
  have hRest' :
      (l.followedBy ('\n' :: post)).rest =
        c :: (cs ++ '\n' :: post) := by
    unfold followedBy
    rw [hRest]
    rfl
  have hLast :=
    reads_blanks
      (l := ⟨l.position.afterAll (c :: cs), l.enclosures,
        '\n' :: post⟩)
      rfl hMode rfl
  have hBoth := reads_blanks hRest' hMode hGap
  rw [List.takeWhile_append, hAll, if_pos rfl,
    List.dropWhile_append, hNone, ← List.cons_append]
    at hBoth
  change
    Reads _ []
      ⟨l.position.afterAll
        (c :: cs ++ '\n' :: post.takeWhile isGap),
        l.enclosures, post.dropWhile isGap⟩ at hBoth
  rw [Position.afterAll_append] at hBoth
  exact ⟨_, hBoth, hLast⟩

/-
  A text that closes all of its strings is read in the same
  way if another line follows.  Only blanks at its end and
  at the start of the other line are read together.
-/
theorem Reads.extend
    (hReads : Reads l ts l') :
    l'.rest = [] →
      l'.enclosures = [] →
        ∀ post,
          ∃ m,
            Reads (l.followedBy ('\n' :: post)) ts m ∧
              Reads (l'.followedBy ('\n' :: post)) [] m := by
  induction hReads with
  | done => exact fun _ _ post => ⟨_, .done, .done⟩
  | @next l c cs ts l' hRest hReads ih =>
      intro hEnd hClosed post
      have hPost :
          (l.followedBy ('\n' :: post)).rest =
            c :: (cs ++ '\n' :: post) := by
        unfold followedBy
        rw [hRest]
        rfl
      by_cases hLong :
          cs.length <
            (lexeme l.enclosures c
              (cs ++ '\n' :: post)).more
      · rcases more_lexeme_line hLong with
          ⟨hGap, hAll, hMode⟩ | ⟨hMode, hContent⟩
        · have hBlanks :
              lexeme l.enclosures c cs = .gap cs.length := by
            rw [lexeme_blanks hMode hGap]
            unfold countWhile
            rw [hAll]
          rw [hBlanks] at hReads ⊢
          have hPass := pass_all hRest (.gap cs.length) rfl
          rcases hReads.eq_of_end (by rw [hPass]) with
            ⟨rfl, rfl⟩
          rw [hPass] at hClosed ⊢
          exact exists_reads_blanks hRest hGap hAll hClosed
            post
        · -- A string would be open at the end of the text.
          rw [hContent] at hReads
          have hPass :=
            pass_all hRest (.token .stringContent cs.length)
              rfl
          rcases hReads.eq_of_end (by rw [hPass]) with
            ⟨-, rfl⟩
          rw [hPass] at hClosed
          change
            Enclosure.after .stringContent l.enclosures = []
            at hClosed
          have hSame :
              Enclosure.after .stringContent l.enclosures =
                l.enclosures := by
            cases l.enclosures <;> rfl
          rw [hSame] at hClosed
          rw [hClosed] at hMode
          cases hMode
      · have hShort := Nat.le_of_not_lt hLong
        have hSame := lexeme_cut hShort
        rcases ih hEnd hClosed post with ⟨m, hOver, hMore⟩
        have hInside :
            (lexeme l.enclosures c cs).more <
              l.rest.length := by
          rw [hSame, hRest, List.length_cons]
          exact Nat.lt_succ_of_le hShort
        refine ⟨m, ?_, hMore⟩
        rw [← pass_followedBy hInside, hSame] at hOver
        rw [← made_followedBy hInside ('\n' :: post), hSame]
        exact .next hPost hOver

------------------------------------------------------------
-- Tokens at other places
------------------------------------------------------------

/- Tokens say the same wherever the text starts. -/
theorem words_tokens
    (es : List Enclosure)
    (cs : List Char)
    (p q : Position) :
    (tokens ⟨p, es, cs⟩).map Token.word =
      (tokens ⟨q, es, cs⟩).map Token.word := by
  induction hLength : cs.length using Nat.strongRecOn
    generalizing es cs p q with
  | ind n ih =>
      subst hLength
      cases cs with
      | nil =>
          rw [tokens_of_end rfl, tokens_of_end rfl]
          rfl
      | cons c cs =>
          rw [tokens_of_cons (l := ⟨p, es, c :: cs⟩) rfl,
            tokens_of_cons (l := ⟨q, es, c :: cs⟩) rfl,
            List.map_append, List.map_append, words_made,
            words_made]
          refine congrArg₂ _ rfl (ih _ ?_ _ _ _ _ rfl)
          rw [List.length_drop, List.length_cons]
          omega

/- Behind a blank they say the same as well. -/
theorem words_tokens_blank
    {es : List Enclosure}
    {d : Char}
    (hMode : Mode.ofEnclosures es ≠ .text)
    (hBlank : isGap d)
    (cs : List Char)
    (p q : Position) :
    (tokens ⟨p, es, d :: cs⟩).map Token.word =
      (tokens ⟨q, es, cs⟩).map Token.word := by
  have hLine :=
    (reads_blanks (l := ⟨p, es, d :: cs⟩) rfl hMode
      hBlank).tokens_eq
  rw [hLine, List.nil_append]
  dsimp only
  cases cs with
  | nil => exact words_tokens es [] _ _
  | cons c cs =>
      cases hGap : isGap c with
      | false =>
          rw [List.dropWhile_cons, hGap, if_neg nofun]
          exact words_tokens es (c :: cs) _ _
      | true =>
          have hOther :=
            (reads_blanks (l := ⟨q, es, c :: cs⟩) rfl hMode
              hGap).tokens_eq
          rw [hOther, List.nil_append, List.dropWhile_cons,
            hGap, if_pos rfl]
          exact words_tokens es _ _ _

end Lexer

/- As many are open behind tokens as the depth says. -/
theorem length_afterAll
    {es : List Enclosure}
    {ts : List Token}
    {depth : Nat}
    (hDepth : depthAfter es.length ts = some depth) :
    (Enclosure.afterAll (ts.map (·.kind)) es).length =
      depth := by
  induction ts generalizing es with
  | nil => exact Option.some.inj hDepth
  | cons t ts ih =>
      rw [depthAfter_cons] at hDepth
      rcases Option.bind_eq_some_iff.1 hDepth with
        ⟨d, hDeepen, hLater⟩
      rw [← Enclosure.length_after hDeepen] at hLater
      exact ih hLater

/-
  A text whose tokens close all strings is read to its end,
  where nothing is open.
-/
theorem exists_reads_closed
    {source : String}
    {file? : Option String}
    {ts : List Token}
    {last : Token}
    (hTokens : tokenize source file? = ts ++ [last])
    (hDepth : depthAfter 0 ts = some 0) :
    ∃ l,
      Lexer.Reads (.start source file?) ts l ∧
        l.rest = [] ∧ l.enclosures = [] := by
  rcases Lexer.exists_reads_end (.start source file?) with
    ⟨front, l, hReads, hEnd, hAll⟩
  have hSame : front = ts :=
    (List.append_inj' (hAll.symm.trans hTokens) rfl).1
  subst hSame
  refine ⟨l, hReads, hEnd, ?_⟩
  rw [hReads.enclosures_eq]
  exact List.eq_nil_of_length_eq_zero (length_afterAll hDepth)

/-
  A text that closes all of its strings keeps its tokens if
  another text follows in a new line, and the tokens of the
  other text come next.
-/
theorem tokenize_appended
    {source : String}
    {file? : Option String}
    {ts : List Token}
    {last : Token}
    (hTokens : tokenize source file? = ts ++ [last])
    (hDepth : depthAfter 0 ts = some 0)
    (other : String)
    (other? : Option String) :
    ∃ us,
      tokenize (source ++ "\n" ++ other) file? = ts ++ us ∧
        us.map Token.word =
          (tokenize other other?).map Token.word := by
  rcases exists_reads_closed hTokens hDepth with
    ⟨l, hReads, hEnd, hClosed⟩
  rcases hReads.extend hEnd hClosed other.toList with
    ⟨m, hOver, hMore⟩
  have hStart :
      (Lexer.start source file?).followedBy
          ('\n' :: other.toList) =
        .start (source ++ "\n" ++ other) file? := by
    unfold Lexer.followedBy Lexer.start
    dsimp only
    rw [String.toList_append, String.toList_append,
      List.append_assoc]
    rfl
  rw [hStart] at hOver
  refine ⟨m.tokens, hOver.tokens_eq, ?_⟩
  have hLine := hMore.tokens_eq
  rw [List.nil_append] at hLine
  unfold Lexer.followedBy at hLine
  rw [hClosed, hEnd, List.nil_append] at hLine
  rw [← hLine]
  have hMode : Mode.ofEnclosures [] ≠ .text := nofun
  exact Lexer.words_tokens_blank hMode rfl other.toList _ _

/- Line feeds lead to the start of a later line. -/
theorem Position.afterAll_lines (p : Position) (n : Nat) :
    p.afterAll (List.replicate (n + 1) '\n') =
      ⟨p.offset + (n + 1), p.line + (n + 1), 1, p.file⟩ := by
  induction n generalizing p with
  | zero => rfl
  | succ n ih =>
      rw [List.replicate_succ, Position.afterAll_cons, ih]
      have hSize : ('\n' : Char).utf8Size = 1 := rfl
      simp only [Position.after, if_pos, hSize,
        Position.mk.injEq, and_true]
      omega

/- Line feeds in front of a text are one gap. -/
theorem splitGap_lines
    {cs : List Char}
    (hStart : ∀ c ∈ cs.head?, isGap c = false)
    (n : Nat) :
    (List.replicate n '\n' ++ cs).takeWhile isGap =
        List.replicate n '\n' ∧
      (List.replicate n '\n' ++ cs).dropWhile isGap =
        cs := by
  have hGaps :
      ∀ c ∈ List.replicate n '\n', isGap c = true := by
    intro c hMember
    rw [List.eq_of_mem_replicate hMember]
    rfl
  have hNone :
      cs.takeWhile isGap = [] ∧ cs.dropWhile isGap = cs := by
    cases cs with
    | nil => exact ⟨rfl, rfl⟩
    | cons c cs =>
        have hNot := hStart c rfl
        rw [List.takeWhile_cons, List.dropWhile_cons, hNot]
        exact ⟨rfl, rfl⟩
  rw [List.takeWhile_append_of_pos hGaps,
    List.dropWhile_append_of_pos hGaps, hNone.1, hNone.2,
    List.append_nil]
  exact ⟨rfl, rfl⟩

/-
  Behind any number of empty lines, another text has the
  tokens that it has at its place.
-/
theorem tokenize_lines
    {source : String}
    {file? : Option String}
    {ts : List Token}
    {last : Token}
    (hTokens : tokenize source file? = ts ++ [last])
    (hDepth : depthAfter 0 ts = some 0)
    {cs : List Char}
    (hStart : ∀ c ∈ cs.head?, isGap c = false)
    (n : Nat) :
    tokenize
        (String.ofList
          (source.toList ++
            (List.replicate (n + 1) '\n' ++ cs)))
        file? =
      ts ++
        Lexer.tokens
          ⟨((Position.first
                (file?.getD Lexer.unnamed)).afterAll
              source.toList).afterAll
              (List.replicate (n + 1) '\n'),
            [], cs⟩ := by
  rcases exists_reads_closed hTokens hDepth with
    ⟨l, hReads, hEnd, hClosed⟩
  have hPlace :
      l.position =
        (Position.first (file?.getD Lexer.unnamed)).afterAll
          source.toList := by
    rcases hReads.exists_rest with ⟨text, hText, hPosition⟩
    rw [hEnd, List.append_nil] at hText
    rw [hPosition, ← hText]
    rfl
  let post := List.replicate n '\n' ++ cs
  rcases hReads.extend hEnd hClosed post with
    ⟨m, hOver, hMore⟩
  have hFollowed :
      (Lexer.start source file?).followedBy
          ('\n' :: post) =
        .start
          (String.ofList
            (source.toList ++
              (List.replicate (n + 1) '\n' ++ cs)))
          file? := by
    unfold Lexer.followedBy Lexer.start
    rw [String.toList_ofList]
    rfl
  rw [hFollowed] at hOver
  have hBlanks := splitGap_lines hStart n
  have hRest :
      (l.followedBy ('\n' :: post)).rest = '\n' :: post := by
    unfold Lexer.followedBy
    rw [hEnd]
    rfl
  have hCode :
      Mode.ofEnclosures
          (l.followedBy ('\n' :: post)).enclosures ≠
        .text := by
    unfold Lexer.followedBy
    rw [hClosed]
    exact nofun
  have hLines := Lexer.reads_blanks hRest hCode rfl
  have hTail := hMore.tokens_eq.symm.trans hLines.tokens_eq
  rw [List.nil_append, List.nil_append] at hTail
  unfold tokenize
  rw [hOver.tokens_eq, hTail]
  unfold Lexer.followedBy
  dsimp only
  rw [hBlanks.1, hBlanks.2, hClosed, hPlace,
    ← List.replicate_succ]

end SourceCheck
