import SourceCheck.Token.Stream

/-
  Cursors by their index.

  A cursor is kept as an array of tokens and an index, which
  may be behind the last of them.  To read a token out of
  range stops the program, and so does a subtraction below
  zero.  As the tokens are never empty, no cursor does so,
  however it is moved.

  Key definitions include:
    * `TokenStream.tokens`
    * `TokenStream.Move`
    * `TokenStream.moved`
    * `TokenStream.Ended`
    * `TokenCursor`
    * `TokenStream.ReadsInRange`
    * `TokenStream.StaysInRange`

  Key theorems include:
    * `TokenStream.Ended.moved`
    * `TokenStream.Ended.readsInRange`
    * `TokenStream.Ended.staysInRange`
-/

namespace SourceCheck

namespace TokenStream

------------------------------------------------------------
-- Moves of a cursor
------------------------------------------------------------

/- All tokens of a cursor, behind it and ahead of it. -/
def tokens (s : TokenStream) : List Token :=
  s.before.reverse ++ s.ahead

/- A move keeps the tokens. -/
theorem tokens_consume (s : TokenStream) :
    s.consume.tokens = s.tokens := by
  unfold tokens consume
  cases hAhead : s.ahead with
  | nil => simp [hAhead]
  | cons t ts => simp

/- Moving back keeps the tokens. -/
theorem tokens_unconsume (s : TokenStream) :
    s.unconsume.tokens = s.tokens := by
  unfold tokens unconsume
  cases hBefore : s.before with
  | nil => simp [hBefore]
  | cons t ts => simp

/- The ways in which a cursor is moved. -/
inductive Move where
  | consume
  | unconsume
  | accept (kind : TokenKind)
deriving DecidableEq

/- Move a cursor; a token of another kind is not accepted. -/
def move (s : TokenStream) : Move → TokenStream
  | .consume => s.consume
  | .unconsume => s.unconsume
  | .accept kind => (s.accept? kind).getD s

/- Move a cursor a number of times. -/
def moved (s : TokenStream) (moves : List Move) : TokenStream :=
  moves.foldl move s

theorem last_consume (s : TokenStream) :
    s.consume.last = s.last := by
  unfold consume
  cases s.ahead with
  | nil => rfl
  | cons t ts => rfl

theorem last_unconsume (s : TokenStream) :
    s.unconsume.last = s.last := by
  unfold unconsume
  cases s.before with
  | nil => rfl
  | cons t ts => rfl

/- What is accepted is passed, and all else is left. -/
theorem move_accept (s : TokenStream) (kind : TokenKind) :
    s.move (.accept kind) =
      if s.check kind then s.consume else s := by
  simp only [move, accept?]
  split
  · rfl
  · rfl

theorem tokens_move (s : TokenStream) (m : Move) :
    (s.move m).tokens = s.tokens := by
  cases m with
  | consume => exact s.tokens_consume
  | unconsume => exact s.tokens_unconsume
  | accept kind =>
      rw [move_accept]
      split
      · exact s.tokens_consume
      · rfl

theorem last_move (s : TokenStream) (m : Move) :
    (s.move m).last = s.last := by
  cases m with
  | consume => exact s.last_consume
  | unconsume => exact s.last_unconsume
  | accept kind =>
      rw [move_accept]
      split
      · exact s.last_consume
      · rfl

/- However a cursor is moved, it stays over its tokens. -/
theorem tokens_moved (s : TokenStream) (moves : List Move) :
    (s.moved moves).tokens = s.tokens := by
  induction moves generalizing s with
  | nil => rfl
  | cons m moves ih =>
      calc (s.moved (m :: moves)).tokens
          = ((s.move m).moved moves).tokens := rfl
        _ = (s.move m).tokens := ih (s.move m)
        _ = s.tokens := s.tokens_move m

/- At the start no token is behind the cursor. -/
theorem tokens_start (tokens : List Token) :
    (ofTokens tokens).tokens = (ofTokens tokens).ahead := by
  unfold ofTokens TokenStream.tokens
  split
  · rfl
  · split
    · rfl
    · rfl

------------------------------------------------------------
-- Where the tokens end
------------------------------------------------------------

/- The last one of the tokens is the end of the text. -/
def Ended (s : TokenStream) : Prop :=
  s.tokens.getLast? = some s.last

theorem ended_ofTokens (tokens : List Token) :
    (ofTokens tokens).Ended := by
  unfold ofTokens
  cases hLast : tokens.getLast? with
  | none => rfl
  | some t =>
      dsimp only
      split
      · simpa [Ended, TokenStream.tokens] using hLast
      · simp [Ended, TokenStream.tokens]

theorem Ended.move
    {s : TokenStream}
    (hEnded : s.Ended)
    (m : Move) :
    (s.move m).Ended := by
  unfold Ended
  rw [tokens_move, last_move]
  exact hEnded

theorem Ended.moved
    {s : TokenStream}
    (hEnded : s.Ended)
    (moves : List Move) :
    (s.moved moves).Ended := by
  induction moves generalizing s with
  | nil => exact hEnded
  | cons m moves ih => exact ih (hEnded.move m)

/- Behind the end a step forward does nothing. -/
theorem consume_of_ahead_nil
    {s : TokenStream}
    (hAhead : s.ahead = []) :
    s.consume = s := by
  unfold consume
  rw [hAhead]

theorem length_tokens (s : TokenStream) :
    s.tokens.length = s.index + s.ahead.length := by
  simp [tokens, index]

/- The cursor is within the text where tokens are left. -/
theorem index_lt_iff (s : TokenStream) :
    s.index < s.tokens.length ↔ s.ahead ≠ [] := by
  rw [length_tokens, ← List.length_pos_iff]
  omega

/- Behind the end, the end is the token before the cursor. -/
theorem Ended.exists_before
    {s : TokenStream}
    (hEnded : s.Ended)
    (hAhead : s.ahead = []) :
    ∃ before, s.before = s.last :: before := by
  unfold Ended tokens at hEnded
  rw [hAhead, List.append_nil, List.getLast?_reverse,
    List.head?_eq_some_iff] at hEnded
  exact hEnded

------------------------------------------------------------
-- Indices
------------------------------------------------------------

end TokenStream

/- The tokens of a text, and the index of the current one. -/
structure TokenCursor where
  tokens : List Token
  index : Nat

namespace TokenCursor

/- The index of the last token, if there are tokens. -/
def lastIndex? (c : TokenCursor) : Option Nat :=
  if 0 < c.tokens.length then
    some (c.tokens.length - 1)
  else
    none

/- The token at the index, or else the last one. -/
def current? (c : TokenCursor) : Option Token :=
  match c.tokens[c.index]? with
  | some t => some t
  | none => do c.tokens[← c.lastIndex?]?

/- The token before the index, or else the first one. -/
def previous? (c : TokenCursor) : Option Token := do
  c.tokens[min (c.index - 1) (← c.lastIndex?)]?

/- Take the current token, and pass it if it is in range. -/
def consume? (c : TokenCursor) :
    Option (Token × TokenCursor) := do
  let t ← c.current?
  if c.index < c.tokens.length then
    return (t, { c with index := c.index + 1 })
  else
    return (t, c)

/- Move back, but not before the first token. -/
def unconsume (c : TokenCursor) : TokenCursor :=
  { c with index := c.index - 1 }

end TokenCursor

namespace TokenStream

/- The same cursor, by its index. -/
def cursor (s : TokenStream) : TokenCursor :=
  ⟨s.tokens, s.index⟩

/-
  All tokens are read in range, and what is read there is
  what the cursor gives.
-/
structure ReadsInRange (s : TokenStream) : Prop where
  current_eq : s.cursor.current? = some s.current
  previous_eq : s.cursor.previous? = some s.previous
  consume_eq :
    s.cursor.consume? = some (s.current, s.consume.cursor)
  unconsume_eq : s.cursor.unconsume = s.unconsume.cursor

section Reads

variable {s : TokenStream}

theorem getElem?_index (s : TokenStream) :
    s.tokens[s.index]? = s.ahead.head? := by
  unfold tokens index
  rw [List.getElem?_append_right (by simp)]
  simp [List.head?_eq_getElem?]

theorem Ended.lastIndex?_eq (hEnded : s.Ended) :
    s.cursor.lastIndex? = some (s.tokens.length - 1) := by
  have hTokens : s.tokens ≠ [] := by
    intro hNone
    unfold Ended at hEnded
    rw [hNone] at hEnded
    cases hEnded
  exact if_pos (List.length_pos_iff.2 hTokens)

theorem Ended.current?_eq (hEnded : s.Ended) :
    s.cursor.current? = some s.current := by
  have hAt : s.cursor.tokens[s.cursor.index]? = _ :=
    s.getElem?_index
  have hLast : s.tokens[s.tokens.length - 1]? = some s.last := by
    rw [← List.getLast?_eq_getElem?]
    exact hEnded
  unfold TokenCursor.current? current
  rw [hAt]
  cases s.ahead with
  | cons t ts => rfl
  | nil =>
      dsimp only [List.head?_nil]
      rw [hEnded.lastIndex?_eq]
      exact hLast

theorem Ended.previous?_eq (hEnded : s.Ended) :
    s.cursor.previous? = some s.previous := by
  have hLength := s.length_tokens
  unfold TokenCursor.previous? previous
  rw [hEnded.lastIndex?_eq]
  change
    s.tokens[min (s.index - 1) (s.tokens.length - 1)]? = _
  cases hBefore : s.before with
  | nil =>
      -- The tokens are not empty, so that one is ahead.
      have hAhead : s.ahead ≠ [] := by
        intro hNone
        rcases hEnded.exists_before hNone with ⟨_, hSome⟩
        rw [hBefore] at hSome
        cases hSome
      have hIndex : s.index = 0 := congrArg _ hBefore
      have hAt := s.getElem?_index
      rw [hIndex] at hAt
      rw [hIndex, Nat.zero_sub, Nat.zero_min, hAt]
      unfold current
      cases hTokens : s.ahead with
      | nil => exact absurd hTokens hAhead
      | cons t ts => rfl
  | cons t ts =>
      have hIndex : s.index = ts.length + 1 :=
        congrArg List.length hBefore
      have hWithin : ts.length < s.before.reverse.length := by
        rw [List.length_reverse, hBefore]
        exact Nat.lt_succ_self _
      rw [hIndex, Nat.add_sub_cancel,
        Nat.min_eq_left (by omega), tokens,
        List.getElem?_append_left hWithin, hBefore,
        List.reverse_cons, ← List.length_reverse,
        List.getElem?_concat_length]
      rfl

/- A cursor whose tokens end reads them in range. -/
theorem Ended.readsInRange (hEnded : s.Ended) :
    s.ReadsInRange where
  current_eq := hEnded.current?_eq
  previous_eq := hEnded.previous?_eq
  consume_eq := by
    have hWithin := s.index_lt_iff
    have hTokens := s.tokens_consume
    unfold TokenCursor.consume?
    rw [hEnded.current?_eq]
    change
      (if s.index < s.tokens.length then
          some (s.current, ⟨s.tokens, s.index + 1⟩)
        else
          some (s.current, s.cursor)) = _
    by_cases hAhead : s.ahead = []
    · rw [if_neg fun hLess => hWithin.1 hLess hAhead,
        consume_of_ahead_nil hAhead]
    · rw [if_pos (hWithin.2 hAhead)]
      unfold cursor
      rw [hTokens, index_consume hAhead]
  unconsume_eq := by
    have hTokens := s.tokens_unconsume
    unfold cursor
    rw [hTokens]
    unfold TokenCursor.unconsume unconsume index
    cases hBefore : s.before with
    | nil => simp [hBefore]
    | cons t ts => simp

/- However the cursor is moved, it reads in range. -/
def StaysInRange (s : TokenStream) : Prop :=
  ∀ moves, (s.moved moves).ReadsInRange

theorem Ended.staysInRange (hEnded : s.Ended) :
    s.StaysInRange :=
  fun moves => (hEnded.moved moves).readsInRange

/- A checkpoint is reached by moves. -/
theorem exists_moved_skipTo
    (stop : TokenStream → Bool)
    (s : TokenStream) :
    ∃ moves, s.skipTo stop = s.moved moves := by
  fun_induction skipTo stop s with
  | case1 s hGo ih =>
      rcases ih with ⟨moves, hMoves⟩
      exact ⟨.consume :: moves, hMoves⟩
  | case2 s hStop => exact ⟨[], rfl⟩

end Reads

end TokenStream

end SourceCheck
