import SourceCheck.Proofs.Lexing.Names
import SourceCheck.Proofs.Parsing.Comparison

/-
  States of parsers that differ in the spelling of names.

  A name may be written with a back-tick or without one, and
  two of the words that stand for names have kinds of their
  own.  Tokens are alike if they are the same once all names
  are plain identifiers; streams and states are alike if
  they differ in such tokens only.

  Key definitions include:
    * `Token.plain`
    * `Token.Alike`
    * `TokenStream.Alike`
    * `Diagnostic.Alike`
    * `ParserState.Alike`
-/

namespace SourceCheck

------------------------------------------------------------
-- Kinds that stand for names
------------------------------------------------------------

namespace TokenKind

/-
  What is the same for all four kinds of names is the same
  for two kinds that are equal or stand for names both.
-/
theorem congr_of_names
    {β : Type}
    {f : TokenKind → β}
    (hNames : ∀ kind ∈ names, f kind = f .identifier)
    {j k : TokenKind}
    (hKinds : j = k ∨ j.isName ∧ k.isName) :
    f j = f k := by
  rcases hKinds with rfl | ⟨hLeft, hRight⟩
  · rfl
  · rw [hNames j (mem_names_of_isName hLeft),
      hNames k (mem_names_of_isName hRight)]

end TokenKind

------------------------------------------------------------
-- Tokens
------------------------------------------------------------

namespace Token

/- The token, as a plain identifier if it is a name. -/
def plain (t : Token) : Token :=
  if t.kind.isName then
    ⟨.identifier, t.name, t.span⟩
  else
    t

/- Two tokens are the same but for the spelling of a name. -/
def Alike (a b : Token) : Prop :=
  a.plain = b.plain

theorem Alike.refl (a : Token) : a.Alike a :=
  Eq.refl a.plain

theorem plain_of_isName
    {t : Token}
    (hName : t.kind.isName) :
    t.plain = ⟨.identifier, t.name, t.span⟩ :=
  if_pos hName

theorem plain_of_not_isName
    {t : Token}
    (hName : t.kind.isName = false) :
    t.plain = t :=
  if_neg (by rw [hName]; exact Bool.false_ne_true)

/- Being a name can be seen from the plain token. -/
theorem isName_plain (t : Token) :
    t.plain.kind.isName = t.kind.isName := by
  cases hName : t.kind.isName with
  | true =>
      rw [plain_of_isName hName]
      rfl
  | false =>
      rw [plain_of_not_isName hName]
      exact hName

section Alike

variable {a b : Token}

theorem Alike.isName_eq (hAlike : a.Alike b) :
    a.kind.isName = b.kind.isName := by
  rw [← isName_plain a, ← isName_plain b, hAlike]

/- Tokens that are alike are equal, or spell one name. -/
theorem Alike.cases (hAlike : a.Alike b) :
    a = b ∨
      a.kind.isName ∧ b.kind.isName ∧ a.name = b.name ∧
        a.span = b.span := by
  have hPlain := hAlike
  have hSame := hAlike.isName_eq
  unfold Token.Alike at hPlain
  cases hName : a.kind.isName with
  | false =>
      have hOther := hSame.symm.trans hName
      rw [plain_of_not_isName hName,
        plain_of_not_isName hOther] at hPlain
      exact .inl hPlain
  | true =>
      have hOther := hSame.symm.trans hName
      rw [plain_of_isName hName, plain_of_isName hOther,
        Token.mk.injEq] at hPlain
      exact .inr ⟨rfl, hOther, hPlain.2.1, hPlain.2.2⟩

theorem Alike.name_eq (hAlike : a.Alike b) :
    a.name = b.name := by
  rcases hAlike.cases with rfl | ⟨-, -, hName, -⟩
  · rfl
  · exact hName

theorem Alike.span_eq (hAlike : a.Alike b) :
    a.span = b.span := by
  rcases hAlike.cases with rfl | ⟨-, -, -, hSpan⟩
  · rfl
  · exact hSpan

/- What is the same for all names is the same for both. -/
theorem Alike.congr
    {β : Type}
    (hAlike : a.Alike b)
    {f : TokenKind → β}
    (hNames :
      ∀ kind ∈ TokenKind.names, f kind = f .identifier) :
    f a.kind = f b.kind := by
  refine TokenKind.congr_of_names hNames ?_
  rcases hAlike.cases with rfl | ⟨hLeft, hRight, -⟩
  · exact .inl rfl
  · exact .inr ⟨hLeft, hRight⟩

/- Both tokens are of the same kinds that are no names. -/
theorem Alike.kind_iff
    (hAlike : a.Alike b)
    {kind : TokenKind}
    (hKind : kind.isName = false) :
    a.kind = kind ↔ b.kind = kind := by
  rcases hAlike.cases with rfl | ⟨hLeft, hRight, -⟩
  · rfl
  · constructor
    · rintro rfl
      rw [hKind] at hLeft
      exact absurd hLeft Bool.false_ne_true
    · rintro rfl
      rw [hKind] at hRight
      exact absurd hRight Bool.false_ne_true

end Alike

end Token

------------------------------------------------------------
-- Streams
------------------------------------------------------------

namespace TokenStream

/- Moving on to a checkpoint keeps the tokens. -/
theorem tokens_skipTo
    (stop : TokenStream → Bool)
    (s : TokenStream) :
    (s.skipTo stop).tokens = s.tokens := by
  fun_induction skipTo stop s with
  | case1 s hGo ih => rw [ih, tokens_consume]
  | case2 s hStop => rfl

/- Two cursors stand alike in tokens that are alike. -/
structure Alike (s t : TokenStream) : Prop where
  before : List.Forall₂ Token.Alike s.before t.before
  ahead : List.Forall₂ Token.Alike s.ahead t.ahead
  last : s.last.Alike t.last

namespace Alike

variable {s t : TokenStream}

theorem refl (s : TokenStream) : s.Alike s :=
  ⟨List.forall₂_same.2 fun a _ => .refl a,
    List.forall₂_same.2 fun a _ => .refl a, .refl s.last⟩

theorem current (hAlike : s.Alike t) :
    s.current.Alike t.current :=
  forall₂_headD hAlike.ahead hAlike.last

theorem previous (hAlike : s.Alike t) :
    s.previous.Alike t.previous :=
  forall₂_headD hAlike.before hAlike.current

theorem index_eq (hAlike : s.Alike t) :
    s.index = t.index :=
  hAlike.before.length_eq

theorem check_eq
    (hAlike : s.Alike t)
    {kind : TokenKind}
    (hKind : kind.isName = false) :
    s.check kind = t.check kind :=
  decide_eq_decide.2 (hAlike.current.kind_iff hKind)

/- Lists of kinds that make no difference between names. -/
theorem checkAny_eq
    (hAlike : s.Alike t)
    {kinds : List TokenKind}
    (hKinds :
      ∀ kind ∈ TokenKind.names,
        kinds.contains kind =
          kinds.contains TokenKind.identifier) :
    s.checkAny kinds = t.checkAny kinds :=
  hAlike.current.congr (f := fun kind => kinds.contains kind)
    hKinds

theorem hasMore_eq (hAlike : s.Alike t) :
    s.hasMore = t.hasMore :=
  decide_eq_decide.2
    (not_congr (hAlike.current.kind_iff rfl))

theorem consume (hAlike : s.Alike t) :
    s.consume.Alike t.consume where
  before := by
    rw [before_consume, before_consume]
    exact List.rel_append
      (forall₂_head?_toList hAlike.ahead) hAlike.before
  ahead := by
    rw [ahead_consume, ahead_consume]
    exact forall₂_tail hAlike.ahead
  last := by
    have hLast (s : TokenStream) :
        s.consume.last = s.last := by
      unfold TokenStream.consume
      cases s.ahead with
      | nil => rfl
      | cons a as => rfl
    rw [hLast, hLast]
    exact hAlike.last

theorem unconsume (hAlike : s.Alike t) :
    s.unconsume.Alike t.unconsume := by
  obtain ⟨before, ahead, last, hLast⟩ := s
  obtain ⟨before', ahead', last', hLast'⟩ := t
  have hBefore := hAlike.before
  cases hBefore with
  | nil => exact hAlike
  | cons hHead hTail =>
      exact ⟨hTail, .cons hHead hAlike.ahead, hAlike.last⟩

/- They stop alike where the test tells no names apart. -/
theorem skipTo
    {stop : TokenStream → Bool}
    (hStop :
      ∀ {s t : TokenStream}, s.Alike t → stop s = stop t)
    {s t : TokenStream}
    (hAlike : s.Alike t) :
    (s.skipTo stop).Alike (t.skipTo stop) := by
  fun_induction TokenStream.skipTo stop s generalizing t with
  | case1 s hGo ih =>
      have hOther : (t.hasMore && !stop t) = true := by
        rw [← hAlike.hasMore_eq, ← hStop hAlike]
        exact hGo
      rw [TokenStream.skipTo.eq_def stop t, if_pos hOther]
      exact ih hAlike.consume
  | case2 s hStay =>
      have hOther : ¬(t.hasMore && !stop t) = true := by
        rw [← hAlike.hasMore_eq, ← hStop hAlike]
        exact hStay
      rw [TokenStream.skipTo.eq_def stop t, if_neg hOther]
      exact hAlike

end Alike

end TokenStream

------------------------------------------------------------
-- Diagnostics
------------------------------------------------------------

/- A name was declared again. -/
def Problem.isRedefinition : Problem → Bool
  | .redefinition _ => true
  | _ => false

/- Two diagnostics are of one sort and at one place. -/
structure Diagnostic.Alike (d e : Diagnostic) : Prop where
  name : d.problem.name = e.problem.name
  position : d.position = e.position

theorem Diagnostic.Alike.refl (d : Diagnostic) : d.Alike d :=
  ⟨rfl, rfl⟩

/- A token that may not stand where it stands. -/
theorem Token.Alike.unexpected
    {a b : Token}
    (hAlike : a.Alike b)
    (expected : String) :
    (Parser.unexpectedToken a expected).Alike
      (Parser.unexpectedToken b expected) := by
  rcases hAlike.cases with rfl | ⟨hLeft, hRight, -, hSpan⟩
  · exact .refl _
  · have hOther {t : Token} (hName : t.kind.isName) :
        t.kind ≠ .unexpectedCharacter := by
      intro hKind
      rw [hKind] at hName
      exact absurd hName Bool.false_ne_true
    unfold Parser.unexpectedToken
    rw [if_neg (hOther hLeft), if_neg (hOther hRight)]
    exact ⟨rfl, congrArg Span.start hSpan⟩

theorem isRedefinition_unexpectedToken
    (token : Token)
    (expected : String) :
    (Parser.unexpectedToken token
        expected).problem.isRedefinition =
      false := by
  unfold Parser.unexpectedToken
  split
  · rfl
  · rfl

------------------------------------------------------------
-- States
------------------------------------------------------------

/- Two states are the same but for spellings of names. -/
structure ParserState.Alike (s t : ParserState) : Prop where
  stream : s.stream.Alike t.stream
  symbols : s.symbols = t.symbols
  scopes : s.scopes = t.scopes
  diagnostics :
    List.Forall₂ Diagnostic.Alike s.diagnostics t.diagnostics

namespace ParserState.Alike

variable {s t : ParserState}

theorem refl (s : ParserState) : s.Alike s :=
  ⟨.refl s.stream, rfl, rfl,
    List.forall₂_same.2 fun d _ => .refl d⟩

theorem token (hAlike : s.Alike t) :
    s.token.Alike t.token :=
  hAlike.stream.current

theorem moved
    {f : TokenStream → TokenStream}
    (hAlike : s.Alike t)
    (hMove : (f s.stream).Alike (f t.stream)) :
    ParserState.Alike { s with stream := f s.stream }
      { t with stream := f t.stream } :=
  ⟨hMove, hAlike.symbols, hAlike.scopes, hAlike.diagnostics⟩

theorem next (hAlike : s.Alike t) : s.next.Alike t.next :=
  hAlike.moved hAlike.stream.consume

theorem reported
    (hAlike : s.Alike t)
    {d e : Diagnostic}
    (hSame : d.Alike e) :
    (s.reported d).Alike (t.reported e) :=
  ⟨hAlike.stream, hAlike.symbols, hAlike.scopes,
    List.rel_append hAlike.diagnostics (.cons hSame .nil)⟩

theorem newScope_eq (hAlike : s.Alike t) :
    s.newScope = t.newScope :=
  congrArg (·.scopes.size) hAlike.symbols

theorem opened (hAlike : s.Alike t) :
    s.opened.Alike t.opened where
  stream := hAlike.stream
  symbols := by
    simp only [ParserState.opened, hAlike.symbols,
      hAlike.scopes]
  scopes := by
    simp only [ParserState.opened, hAlike.newScope_eq,
      hAlike.scopes]
  diagnostics := hAlike.diagnostics

theorem closed (hAlike : s.Alike t) :
    s.closed.Alike t.closed :=
  ⟨hAlike.stream, hAlike.symbols,
    congrArg List.tail hAlike.scopes, hAlike.diagnostics⟩

/- The same declaration keeps states alike. -/
theorem declared
    (hAlike : s.Alike t)
    (scope : ScopeId)
    (d : Definition)
    (p : Position) :
    (s.declared scope d p).Alike (t.declared scope d p) := by
  have hWith (y : Symbols) :
      (s.withSymbols y).Alike (t.withSymbols y) :=
    ⟨hAlike.stream, rfl, hAlike.scopes, hAlike.diagnostics⟩
  unfold ParserState.declared ParserState.bound
  rw [hAlike.symbols]
  split
  · exact (hWith _).reported (.refl _)
  · exact hWith _

/- So do failures that are recovered from. -/
theorem resumed
    {u v : ParserState}
    {stop : TokenStream → Bool}
    (hStop :
      ∀ {s t : TokenStream}, s.Alike t → stop s = stop t)
    (hAlike : s.Alike t)
    (hBehind : u.Alike v)
    {d e : Diagnostic}
    (hSame : d.Alike e) :
    (s.resumed stop u d).Alike (t.resumed stop v e) := by
  have hReported := hBehind.reported hSame
  unfold ParserState.resumed
  dsimp only
  rw [← hBehind.stream.index_eq, ← hAlike.stream.index_eq]
  split
  · exact hReported.next.moved
      (hReported.next.stream.skipTo hStop)
  · exact hReported.moved (hReported.stream.skipTo hStop)

end ParserState.Alike

/- The tokens stay while a failure is recovered from. -/
theorem tokens_resumed
    (stop : TokenStream → Bool)
    (s t : ParserState)
    (d : Diagnostic) :
    (s.resumed stop t d).stream.tokens = t.stream.tokens := by
  unfold ParserState.resumed
  dsimp only
  rw [TokenStream.tokens_skipTo]
  split
  · exact TokenStream.tokens_consume t.stream
  · rfl

/- The cursor stays while a name is declared. -/
theorem stream_declared
    (s : ParserState)
    (scope : ScopeId)
    (d : Definition)
    (p : Position) :
    (s.declared scope d p).stream = s.stream := by
  unfold ParserState.declared
  split
  · rfl
  · rfl

end SourceCheck
