import SourceCheck.Proofs.Layout.Alignment
import SourceCheck.Token.Stream

/-
  Tokens stand in the text in their order.

  A token is not empty and stops before the next one starts,
  so that the order of two places of tokens is the order of
  the tokens.  Texts with the same tokens can be aligned for
  this reason, wherever the tokens stand.

  Key definitions include:
    * `Token.StopsBefore`
    * `TokensInOrder`
    * `Alignment.ofTokens`

  Key theorems include:
    * `tokensInOrder_tokenize`
    * `Alignment.isMonotone_ofTokens`
-/

namespace SourceCheck

------------------------------------------------------------
-- The order of tokens
------------------------------------------------------------

/- A token is not empty and stops before another starts. -/
structure Token.StopsBefore (a b : Token) : Prop where
  start_lt : a.span.start.offset < a.span.stop.offset
  stop_le : a.span.stop.offset ≤ b.span.start.offset

/-
  Each token of a list stops before all later ones, and the
  last one is the end of a text, which is empty.
-/
structure TokensInOrder (ts : List Token) : Prop where
  pairwise : ts.Pairwise Token.StopsBefore
  ends :
    ∃ front last,
      ts = front ++ [last] ∧
        last.kind = .eof ∧
          last.span.start = last.span.stop

/- Characters are not empty. -/
theorem Position.offset_le_afterAll
    (p : Position)
    (cs : List Char) :
    p.offset ≤ (p.afterAll cs).offset := by
  induction cs generalizing p with
  | nil => exact Nat.le_refl _
  | cons c cs ih =>
      have hRest := ih (p.after c)
      rw [offset_after] at hRest
      exact Nat.le_trans (Nat.le_add_right _ _) hRest

theorem Position.offset_lt_afterAll_cons
    (p : Position)
    (c : Char)
    (cs : List Char) :
    p.offset < (p.afterAll (c :: cs)).offset := by
  have hRest := (p.after c).offset_le_afterAll cs
  have hSize := c.utf8Size_pos
  rw [offset_after] at hRest
  rw [afterAll_cons]
  omega

/-
  The tokens from a place on are in order, and none of them
  starts before the place.
-/
theorem tokensInOrder_tokensFrom
    (p : Position)
    (es : List Enclosure)
    (cs : List Char) :
    TokensInOrder (Lexer.tokensFrom p es cs) ∧
      ∀ t ∈ Lexer.tokensFrom p es cs,
        p.offset ≤ t.span.start.offset := by
  fun_induction Lexer.tokensFrom p es cs with
  | case1 p es =>
      constructor
      · exact ⟨List.pairwise_singleton _ _,
          [], _, rfl, rfl, rfl⟩
      · intro t hMember
        rw [List.mem_singleton.1 hMember]
        exact Nat.le_refl _
  | case2 p es c cs piece text stop later hKind ih =>
      refine ⟨ih.1, fun t hMember => ?_⟩
      have hStop := p.offset_le_afterAll text
      exact Nat.le_trans hStop (ih.2 t hMember)
  | case3 p es c cs piece text stop later kind hKind ih =>
      have hStop : p.offset < stop.offset :=
        p.offset_lt_afterAll_cons c _
      rcases ih with ⟨⟨hPairwise, front, last, hLater, hLast⟩,
        hStarts⟩
      constructor
      · refine ⟨List.pairwise_cons.2 ⟨?_, hPairwise⟩, ?_⟩
        · intro t hMember
          exact ⟨hStop, hStarts t hMember⟩
        · exact ⟨_ :: front, last,
            congrArg (List.cons _) hLater, hLast⟩
      · intro t hMember
        rcases List.mem_cons.1 hMember with rfl | hMember
        · exact Nat.le_refl _
        · exact Nat.le_trans (Nat.le_of_lt hStop)
            (hStarts t hMember)

/- The tokens of a source text are in order. -/
theorem tokensInOrder_tokenize
    (source : String)
    (file? : Option String) :
    TokensInOrder (tokenize source file?) :=
  (tokensInOrder_tokensFrom _ _ _).1

------------------------------------------------------------
-- Places in order
------------------------------------------------------------

namespace TokensInOrder

variable {ts : List Token}
variable {i j : Nat}

/- The last token is the end of the text. -/
theorem ends_concat
    {last : Token}
    (hOrder : TokensInOrder (ts ++ [last])) :
    last.kind = .eof ∧ last.span.start = last.span.stop := by
  rcases hOrder.ends with ⟨front, stop, hEnd, hStop⟩
  have hSame := (List.append_inj' hEnd rfl).2
  rw [List.singleton_inj.1 hSame]
  exact hStop

theorem stopsBefore
    (hOrder : TokensInOrder ts)
    (hLess : i < j)
    (hSecond : j < ts.length) :
    have hFirst : i < ts.length := by omega
    Token.StopsBefore ts[i] ts[j] :=
  List.pairwise_iff_getElem.1 hOrder.pairwise i j _ _ hLess

/- Starts are in the order of the tokens. -/
theorem start_le_start_iff
    (hOrder : TokensInOrder ts)
    (hFirst : i < ts.length)
    (hSecond : j < ts.length) :
    ts[i].span.start.offset ≤ ts[j].span.start.offset ↔
      i ≤ j := by
  rcases Nat.lt_trichotomy i j with hLess | rfl | hLess
  · have hBefore := hOrder.stopsBefore hLess hSecond
    have hStart := hBefore.start_lt
    have hStop := hBefore.stop_le
    omega
  · simp
  · have hBefore := hOrder.stopsBefore hLess hFirst
    have hStart := hBefore.start_lt
    have hStop := hBefore.stop_le
    omega

/-
  A token stops before the next ones start; only the end of
  the text also stops where it starts.
-/
theorem stop_le_start_iff
    (hOrder : TokensInOrder ts)
    (hFirst : i < ts.length)
    (hSecond : j < ts.length) :
    ts[i].span.stop.offset ≤ ts[j].span.start.offset ↔
      i < j ∨ i = j ∧ i + 1 = ts.length := by
  rcases Nat.lt_trichotomy i j with hLess | rfl | hLess
  · have hBefore := hOrder.stopsBefore hLess hSecond
    have hStop := hBefore.stop_le
    omega
  · by_cases hLast : i + 1 = ts.length
    · rcases hOrder.ends with ⟨front, last, rfl, -, hSpan⟩
      have hLength : i = front.length := by simpa using hLast
      subst hLength
      simp [hSpan]
    · have hBefore :=
        hOrder.stopsBefore (i := i) (Nat.lt_succ_self i)
          (by omega)
      have hStart := hBefore.start_lt
      omega
  · have hBefore := hOrder.stopsBefore hLess hFirst
    have hSame :
        ts[i].span.start.offset ≤
          ts[i].span.stop.offset := by
      rcases Nat.lt_or_ge (i + 1) ts.length with hMore | hEnd
      · exact Nat.le_of_lt (hOrder.stopsBefore
          (Nat.lt_succ_self i) hMore).start_lt
      · rcases hOrder.ends with
          ⟨front, last, rfl, -, hSpan⟩
        have hLength : i = front.length := by
          rw [List.length_append, List.length_singleton]
            at hFirst hEnd
          omega
        subst hLength
        simp [hSpan]
    have hStart := hBefore.start_lt
    have hStop := hBefore.stop_le
    omega

end TokensInOrder

------------------------------------------------------------
-- Texts with the same tokens
------------------------------------------------------------

/- Two tokens are the same but for their places. -/
def Token.word (t : Token) : TokenKind × String :=
  (t.kind, t.value)

namespace Alignment

/-
  The places of tokens with the same number correspond to
  each other.
-/
def ofTokens (ts us : List Token) : Alignment where
  starts a b :=
    ∃ (i : Nat) (hLeft : i < ts.length)
      (hRight : i < us.length),
        ts[i].span.start.offset = a ∧
          us[i].span.start.offset = b
  stops a b :=
    ∃ (i : Nat) (hLeft : i < ts.length)
      (hRight : i < us.length),
        ts[i].span.stop.offset = a ∧
          us[i].span.stop.offset = b

/- In texts with as many tokens the places are in order. -/
theorem isMonotone_ofTokens
    {ts us : List Token}
    (hLeft : TokensInOrder ts)
    (hRight : TokensInOrder us)
    (hLength : ts.length = us.length) :
    (ofTokens ts us).IsMonotone where
  starts_le := by
    rintro _ _ _ _ ⟨i, hi, hi', rfl, rfl⟩
      ⟨j, hj, hj', rfl, rfl⟩
    rw [hLeft.start_le_start_iff hi hj,
      hRight.start_le_start_iff hi' hj']
  stops_le := by
    rintro _ _ _ _ ⟨i, hi, hi', rfl, rfl⟩
      ⟨j, hj, hj', rfl, rfl⟩
    rw [hLeft.stop_le_start_iff hi hj,
      hRight.stop_le_start_iff hi' hj', hLength]

/- Tokens with the same words are aligned one by one. -/
theorem tokens_ofTokens
    {ts us : List Token}
    (hWords : ts.map Token.word = us.map Token.word) :
    List.Forall₂ (ofTokens ts us).Tokens ts us := by
  have hLength : ts.length = us.length := by
    simpa using congrArg List.length hWords
  rw [List.forall₂_iff_get]
  refine ⟨hLength, fun i hi hi' => ?_⟩
  have hWord : ts[i].word = us[i].word := by
    have hAt := congrArg (·[i]?) hWords
    simpa [hi, hi'] using hAt
  exact
    { kind := congrArg Prod.fst hWord
      value := congrArg Prod.snd hWord
      span :=
        { start := ⟨i, hi, hi', rfl, rfl⟩
          stop := ⟨i, hi, hi', rfl, rfl⟩ } }

end Alignment

end SourceCheck
