import SourceCheck.Token.Lexer

/-
  A cursor over a list of tokens.

  The list ends with the end of the text, and the cursor may
  be moved behind it; there the last token is still the
  current one.

  Key definitions include:
    * `TokenStream`
    * `TokenStream.ofTokens`
    * `TokenStream.current`
    * `TokenStream.previous`
    * `TokenStream.consume`
    * `TokenStream.unconsume`
    * `TokenStream.accept?`
    * `TokenStream.skipTo`
-/

namespace SourceCheck

------------------------------------------------------------
-- Streams
------------------------------------------------------------

/-
  The tokens before the cursor, the last one first, and the
  tokens from the cursor on.  The last token of the whole
  list is the end of the text.
-/
structure TokenStream where
  before : List Token
  ahead : List Token
  last : Token
  kind_last : last.kind = .eof
deriving DecidableEq

namespace TokenStream

/- The token that ends a list which has no end yet. -/
def endOf (tokens : List Token) : Token where
  kind := .eof
  value := "EOF"
  span :=
    match tokens.getLast? with
    | none => Span.null
    | some t => Span.point t.span.stop

/- A cursor at the start of a list, which is ended. -/
def ofTokens (tokens : List Token) : TokenStream :=
  match tokens.getLast? with
  | none => ⟨[], [endOf tokens], endOf tokens, rfl⟩
  | some t =>
      if h : t.kind = .eof then
        ⟨[], tokens, t, h⟩
      else
        ⟨[], tokens ++ [endOf tokens], endOf tokens, rfl⟩

/- A cursor at the start of a source text. -/
def ofSource (source file : String) : TokenStream :=
  ofTokens (tokenize source (some file))

------------------------------------------------------------
-- Looking
------------------------------------------------------------

/- How many tokens lie before the cursor. -/
def index (s : TokenStream) : Nat :=
  s.before.length

/- The token at the cursor. -/
def current (s : TokenStream) : Token :=
  s.ahead.headD s.last

/-
  The token before the cursor; at the start of the list, the
  first token.
-/
def previous (s : TokenStream) : Token :=
  s.before.headD s.current

/- The current token is of the kind. -/
def check (s : TokenStream) (kind : TokenKind) : Bool :=
  s.current.kind = kind

/- The current token is of one of the kinds. -/
def checkAny
    (s : TokenStream)
    (kinds : List TokenKind) :
    Bool :=
  kinds.contains s.current.kind

/- The current token is not the end of the text. -/
def hasMore (s : TokenStream) : Bool :=
  s.current.kind ≠ .eof

------------------------------------------------------------
-- Moving
------------------------------------------------------------

/- Move over the current token, if the list goes on. -/
def consume (s : TokenStream) : TokenStream :=
  match s.ahead with
  | [] => s
  | t :: ts => { s with before := t :: s.before, ahead := ts }

/- Move back over the previous token, if there is one. -/
def unconsume (s : TokenStream) : TokenStream :=
  match s.before with
  | [] => s
  | t :: ts => { s with before := ts, ahead := t :: s.ahead }

/- Move over the current token if it is of the kind. -/
def accept?
    (s : TokenStream)
    (kind : TokenKind) :
    Option TokenStream :=
  if s.check kind then
    some s.consume
  else
    none

/- Moving over a token and back changes nothing. -/
theorem unconsume_consume
    {s : TokenStream}
    (h : s.ahead ≠ []) :
    s.consume.unconsume = s := by
  obtain ⟨before, ahead, last, kind_last⟩ := s
  cases ahead with
  | nil => exact absurd rfl h
  | cons t ts => rfl

/- Before the end of the text, tokens are left. -/
theorem ahead_ne_nil_of_hasMore
    {s : TokenStream}
    (h : s.hasMore) :
    s.ahead ≠ [] := by
  intro ha
  simp [hasMore, current, ha, s.kind_last] at h

/- A move over a token counts it. -/
theorem index_consume
    {s : TokenStream}
    (h : s.ahead ≠ []) :
    s.consume.index = s.index + 1 := by
  obtain ⟨before, ahead, last, kind_last⟩ := s
  cases ahead with
  | nil => exact absurd rfl h
  | cons t ts => rfl

/- Where tokens are left to pass, a move passes one. -/
theorem length_ahead_consume
    {s : TokenStream}
    (h : s.hasMore) :
    s.consume.ahead.length < s.ahead.length := by
  cases ha : s.ahead with
  | nil => exact absurd ha (ahead_ne_nil_of_hasMore h)
  | cons t ts => simp [consume, ha]

/-
  Move on until the cursor stands where the test holds, or
  at the end of the text.
-/
def skipTo
    (stop : TokenStream → Bool)
    (s : TokenStream) :
    TokenStream :=
  if s.hasMore && !stop s then
    skipTo stop s.consume
  else
    s
termination_by s.ahead.length
decreasing_by
  apply length_ahead_consume
  simp_all

/- A stop short of the end is one where the test holds. -/
theorem stop_skipTo
    {stop : TokenStream → Bool}
    {s : TokenStream}
    (h : (s.skipTo stop).hasMore) :
    stop (s.skipTo stop) := by
  fun_induction skipTo stop s with
  | case1 s _ ih => exact ih h
  | case2 s hs => simpa [h] using hs

end TokenStream

end SourceCheck
