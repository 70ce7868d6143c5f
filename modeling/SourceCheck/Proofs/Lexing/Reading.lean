import SourceCheck.Proofs.Lexing.Nesting

/-
  Reading tokens one after the other.

  A lexer that passes the lexeme in front of it reads one
  token, or none if the lexeme is a gap.  A run of such steps
  reads a part of the tokens of a text, and every part of
  them is read by such a run.

  Key definitions include:
    * `Lexer.pass`
    * `Lexer.Reads`

  Key theorems include:
    * `Lexer.Reads.tokens_eq`
    * `Lexer.reads_of_tokens`
-/

namespace SourceCheck

------------------------------------------------------------
-- One lexeme
------------------------------------------------------------

/- The characters of a class that a text begins with. -/
theorem take_countWhile
    (p : Char → Bool)
    (cs : List Char) :
    cs.take (countWhile p cs) = cs.takeWhile p := by
  have hParts : cs.takeWhile p ++ cs.dropWhile p = cs :=
    List.takeWhile_append_dropWhile
  exact (List.prefix_iff_eq_take.1 ⟨_, hParts⟩).symm

/- And what stands behind them. -/
theorem drop_countWhile
    (p : Char → Bool)
    (cs : List Char) :
    cs.drop (countWhile p cs) = cs.dropWhile p := by
  have hParts : cs.takeWhile p ++ cs.dropWhile p = cs :=
    List.takeWhile_append_dropWhile
  rw [← take_countWhile] at hParts
  exact List.append_cancel_left
    ((List.take_append_drop _ cs).trans hParts.symm)

namespace Lexer

/- The characters of a lexeme at the start of the rest. -/
def word (l : Lexer) (piece : Lexeme) : List Char :=
  l.rest.take (piece.more + 1)

/- The lexer behind a lexeme. -/
def pass (l : Lexer) (piece : Lexeme) : Lexer where
  position := l.position.afterAll (l.word piece)
  enclosures := enclosuresAfter piece.kind l.enclosures
  rest := l.rest.drop (piece.more + 1)

/- The tokens that a lexeme makes, which are one or none. -/
def made (l : Lexer) (piece : Lexeme) : List Token :=
  piece.kind.toList.map fun kind =>
    ⟨kind, String.ofList (l.word piece),
      ⟨l.position, (l.pass piece).position⟩⟩

/- The word of a lexeme and what is behind it. -/
theorem word_append_rest (l : Lexer) (piece : Lexeme) :
    l.word piece ++ (l.pass piece).rest = l.rest :=
  List.take_append_drop _ _

/- The end of a text is its last token. -/
theorem tokens_of_end
    {l : Lexer}
    (hEnd : l.rest = []) :
    l.tokens = [⟨.eof, "EOF", Span.point l.position⟩] := by
  unfold tokens
  rw [hEnd, tokensFrom]

/- Any other text starts with a lexeme. -/
theorem tokens_of_cons
    {l : Lexer}
    {c : Char}
    {cs : List Char}
    (hRest : l.rest = c :: cs) :
    l.tokens =
      l.made (lexeme l.enclosures c cs) ++
        (l.pass (lexeme l.enclosures c cs)).tokens := by
  unfold tokens made pass word
  rw [hRest, tokensFrom]
  cases (lexeme l.enclosures c cs).kind <;> rfl

------------------------------------------------------------
-- Runs
------------------------------------------------------------

/- A lexer reads tokens, and gaps, up to another state. -/
inductive Reads : Lexer → List Token → Lexer → Prop where
  | done {l} : Reads l [] l
  | next {l c cs ts l'}
      (hRest : l.rest = c :: cs)
      (hReads :
        Reads (l.pass (lexeme l.enclosures c cs)) ts l') :
      Reads l (l.made (lexeme l.enclosures c cs) ++ ts) l'

namespace Reads

variable {l l' l'' : Lexer} {ts us : List Token}

/- Runs go on from each other. -/
theorem trans
    (hReads : Reads l ts l')
    (hMore : Reads l' us l'') :
    Reads l (ts ++ us) l'' := by
  induction hReads with
  | done => exact hMore
  | next hRest _ ih =>
      rw [List.append_assoc]
      exact .next hRest (ih hMore)

/- What is read are the first tokens. -/
theorem tokens_eq (hReads : Reads l ts l') :
    l.tokens = ts ++ l'.tokens := by
  induction hReads with
  | done => rfl
  | next hRest _ ih =>
      rw [tokens_of_cons hRest, ih, List.append_assoc]

/- The characters that are passed. -/
theorem exists_rest (hReads : Reads l ts l') :
    ∃ text,
      l.rest = text ++ l'.rest ∧
        l'.position = l.position.afterAll text := by
  induction hReads with
  | done => exact ⟨[], rfl, rfl⟩
  | @next l c cs ts l' hRest _ ih =>
      rcases ih with ⟨text, hText, hPosition⟩
      refine ⟨l.word (lexeme l.enclosures c cs) ++ text,
        ?_, ?_⟩
      · rw [List.append_assoc, ← hText, word_append_rest]
      · rw [Position.afterAll_append]
        exact hPosition

/- The tokens decide on what is open behind them. -/
theorem enclosures_eq (hReads : Reads l ts l') :
    l'.enclosures =
      Enclosure.afterAll (ts.map (·.kind)) l.enclosures := by
  induction hReads with
  | done => rfl
  | @next l c cs ts l' hRest _ ih =>
      rw [ih]
      unfold made pass Enclosure.afterAll
      rw [List.map_append, List.foldl_append]
      cases (lexeme l.enclosures c cs).kind <;> rfl

/- No token that is read is the end of the text. -/
theorem kind_ne_eof
    (hReads : Reads l ts l')
    {t : Token}
    (hMem : t ∈ ts) :
    t.kind ≠ .eof := by
  induction hReads with
  | done => cases hMem
  | @next l c cs ts l' hRest _ ih =>
      rcases List.mem_append.1 hMem with hMade | hLater
      · unfold made at hMade
        rcases List.mem_map.1 hMade with ⟨kind, hKind, rfl⟩
        rintro rfl
        have hFits :=
          fits_lexeme (Option.mem_toList.1 hKind)
        revert hFits
        unfold TokenKind.fits
        split <;> exact nofun
      · exact ih hLater

end Reads

------------------------------------------------------------
-- Parts of the tokens
------------------------------------------------------------

/- A gap is passed, and what it stands before comes next. -/
theorem exists_reads_nil (l : Lexer) :
    ∃ l',
      Reads l [] l' ∧
        (l'.rest = [] ∨
          ∃ c cs kind,
            l'.rest = c :: cs ∧
              (lexeme l'.enclosures c cs).kind =
                some kind) := by
  cases hRest : l.rest with
  | nil => exact ⟨l, .done, .inl hRest⟩
  | cons c cs =>
      cases hKind : (lexeme l.enclosures c cs).kind with
      | some kind =>
          exact ⟨l, .done,
            .inr ⟨c, cs, kind, hRest, hKind⟩⟩
      | none =>
          rcases exists_reads_nil
            (l.pass (lexeme l.enclosures c cs)) with
            ⟨l', hReads, hNext⟩
          have hAll := Reads.next hRest hReads
          unfold made at hAll
          rw [hKind] at hAll
          exact ⟨l', hAll, hNext⟩
termination_by l.rest.length
decreasing_by
  unfold pass
  rw [hRest, List.length_drop, List.length_cons]
  omega

/- A token ends where the lexer goes on. -/
theorem stop_of_made
    {l : Lexer}
    {piece : Lexeme}
    {t : Token}
    (hMade : l.made piece = [t]) :
    (l.pass piece).position = t.span.stop := by
  unfold made at hMade
  cases hKind : piece.kind with
  | none =>
      rw [hKind] at hMade
      cases hMade
  | some kind =>
      rw [hKind] at hMade
      cases hMade
      rfl

/-
  A token stands behind a gap.  Either it is the end, or it
  is made by the lexeme behind the gap.
-/
theorem tokens_eq_cons
    {l : Lexer}
    {t : Token}
    {back : List Token}
    (hTokens : l.tokens = t :: back) :
    ∃ l',
      Reads l [] l' ∧ l'.tokens = t :: back ∧
        (l'.rest = [] ∧ back = [] ∨
          ∃ c cs,
            l'.rest = c :: cs ∧
              l'.made (lexeme l'.enclosures c cs) = [t] ∧
                (l'.pass
                    (lexeme l'.enclosures c cs)).tokens =
                  back) := by
  rcases exists_reads_nil l with ⟨l', hReads, hNext⟩
  have hSame : l'.tokens = t :: back := by
    rw [← hTokens, hReads.tokens_eq]
    rfl
  refine ⟨l', hReads, hSame, ?_⟩
  rcases hNext with hEnd | ⟨c, cs, kind, hRest, hKind⟩
  · left
    rw [tokens_of_end hEnd] at hSame
    cases hSame
    exact ⟨hEnd, rfl⟩
  · right
    rw [tokens_of_cons hRest] at hSame
    refine ⟨c, cs, hRest, ?_⟩
    unfold made at hSame ⊢
    rw [hKind] at hSame ⊢
    cases hSame
    exact ⟨rfl, rfl⟩

/-
  Every first part of the tokens is read by a run, which
  ends behind the last of them.
-/
theorem reads_of_tokens
    {l : Lexer}
    {front back : List Token}
    (hTokens : l.tokens = front ++ back)
    (hBack : back ≠ []) :
    ∃ l',
      Reads l front l' ∧ l'.tokens = back ∧
        l'.position =
          (front.getLast?.map (·.span.stop)).getD
            l.position := by
  induction front generalizing l with
  | nil => exact ⟨l, .done, hTokens, rfl⟩
  | cons t front ih =>
      rcases tokens_eq_cons hTokens with
        ⟨l₁, hGap, -, hNext⟩
      rcases hNext with
        ⟨-, hNone⟩ | ⟨c, cs, hRest, hMade, hLater⟩
      · exact absurd (List.append_eq_nil_iff.1 hNone).2 hBack
      · rcases ih hLater with
          ⟨l', hReads, hSame, hPosition⟩
        have hAll := hGap.trans (.next hRest hReads)
        rw [hMade] at hAll
        refine ⟨l', hAll, hSame, ?_⟩
        rw [hPosition, List.getLast?_cons,
          stop_of_made hMade]
        cases front.getLast? <;> rfl

/- A run reads everything. -/
theorem exists_reads_end (l : Lexer) :
    ∃ ts l',
      Reads l ts l' ∧ l'.rest = [] ∧
        l.tokens =
          ts ++ [⟨.eof, "EOF", Span.point l'.position⟩] := by
  cases hRest : l.rest with
  | nil => exact ⟨[], l, .done, hRest, tokens_of_end hRest⟩
  | cons c cs =>
      rcases exists_reads_end
        (l.pass (lexeme l.enclosures c cs)) with
        ⟨ts, l', hReads, hEnd, hTokens⟩
      refine ⟨_, l', .next hRest hReads, hEnd, ?_⟩
      rw [tokens_of_cons hRest, hTokens, List.append_assoc]
termination_by l.rest.length
decreasing_by
  unfold pass
  rw [hRest, List.length_drop, List.length_cons]
  omega

end Lexer

end SourceCheck
