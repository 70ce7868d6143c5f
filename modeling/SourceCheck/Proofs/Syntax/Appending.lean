import SourceCheck.Proofs.Lexing.Appending
import SourceCheck.Proofs.Syntax.Completeness
import SourceCheck.Proofs.Syntax.Effect
import SourceCheck.Proofs.Syntax.Splicing

/-
  Programs that go on with more declarations.

  Where the tokens of an accepted program are followed by
  those of a declaration instead of the end of the text, its
  imports and declarations are read as before.  A state has
  one derivation at most, so they are the first ones of the
  longer program.

  Key theorems include:
    * `DerivesImports.spliced`
    * `DerivesDeclarations.split`
-/

namespace SourceCheck

open SourceCheck.Parser
open SourceCheck.ParserState

variable {s t u v : ParserState}
variable {x : Splice}

------------------------------------------------------------
-- The end of the text
------------------------------------------------------------

/- The end of the text is ahead. -/
def ParserState.Ended (s : ParserState) : Prop :=
  ∃ last,
    s.stream.ahead.getLast? = some last ∧ last.kind = .eof

namespace ParserState.Ended

theorem left_pos (hEnded : s.Ended) : 0 < s.left := by
  rcases hEnded with ⟨last, hLast, -⟩
  unfold left
  cases hAhead : s.stream.ahead with
  | nil =>
      rw [hAhead] at hLast
      cases hLast
  | cons token rest => exact Nat.succ_pos _

/- What is passed does not include it. -/
theorem crosses
    {a b : List Bracket}
    (hEnded : s.Ended)
    (hCrosses : s.Crosses a t b) :
    t.Ended := by
  rcases hEnded with ⟨last, hLast, hKind⟩
  rcases hCrosses with ⟨ts, hPasses, hBrackets⟩
  refine ⟨last, ?_, hKind⟩
  rw [hPasses.ahead_eq] at hLast
  cases hAhead : t.stream.ahead with
  | nil =>
      rw [hAhead, List.append_nil] at hLast
      exact absurd hKind
        (not_refused_of_bracketsAfter hBrackets
          (List.mem_of_getLast? hLast)).2
  | cons token rest =>
      rw [hAhead, List.getLast?_append_of_ne_nil _
        (List.cons_ne_nil _ _)] at hLast
      exact hLast

end ParserState.Ended

theorem ParserState.Crosses.left_le
    {a b : List Bracket}
    (hCrosses : s.Crosses a t b) :
    t.left ≤ s.left := by
  rcases hCrosses with ⟨ts, hPasses, -⟩
  unfold left
  rw [hPasses.ahead_eq, List.length_append]
  exact Nat.le_add_left _ _

/- A token other than the end of the text is left. -/
theorem left_pos_of_kind
    {kind : TokenKind}
    (hKind : s.token.kind = kind)
    (hMore : kind ≠ .eof) :
    0 < s.left :=
  Nat.lt_of_le_of_lt (Nat.zero_le _)
    (left_next (by rw [hKind]; exact hMore))

------------------------------------------------------------
-- Imports
------------------------------------------------------------

theorem DerivesImport.crosses
    {i : Import}
    (hDerives : DerivesImport s i t) :
    s.Crosses [] t [] := by
  rcases hDerives with
    ⟨hKeyword, hQuote, hPath, hOpen, hEntries, hClose, -⟩
  have hSolid : s.token.kind.isSolid := by
    rw [hKeyword]
    rfl
  have hFirst :=
    ((Crosses.solid hSolid []).trans
      (.opening hQuote [] rfl)).trans
        (hPath.crosses trivial [])
  have hItems :=
    (hFirst.trans (.opening hOpen [] rfl)).trans
      (hEntries.crosses trivial [.curly])
  exact hItems.andClosing hClose rfl

theorem DerivesImports.crosses
    {imports : List Import}
    (hDerives : DerivesImports s imports t) :
    s.Crosses [] t [] := by
  induction hDerives with
  | stop _ => exact .refl _ []
  | more hImport _ ih => exact hImport.crosses.trans ih

/- An import is read before other tokens as well. -/
theorem DerivesImport.spliced
    {i : Import}
    (hDerives : DerivesImport s i t)
    (hLeft : x.count ≤ t.left) :
    DerivesImport (s.spliced x) i (t.spliced x) := by
  rcases hDerives with
    ⟨hKeyword, hQuote, hPath, hOpen, hEntries, hClose,
      hValue⟩
  rename_i e t entries u path
  have hOver := left_next_le
  have hLast : x.count < u.left :=
    Nat.lt_of_le_of_lt hLeft
      (left_next (by rw [hClose]; decide))
  have hThird : x.count < t.left :=
    Nat.lt_of_lt_of_le
      (Nat.lt_of_lt_of_le hLast hEntries.left_le) (hOver t)
  have hInside : x.count < s.next.next.left :=
    Nat.lt_of_lt_of_le hThird hPath.left_le
  have hSecond := Nat.lt_of_lt_of_le hInside (hOver s.next)
  have hFirst := Nat.lt_of_lt_of_le hSecond (hOver s)
  have hNext :
      (s.spliced x).next.next = s.next.next.spliced x := by
    rw [next_spliced hFirst, next_spliced hSecond]
  have hPath :=
    hPath.spliced (x := x) (Splice.keeps_of_lt hThird)
  have hEntries :=
    hEntries.spliced (x := x) (Splice.keeps_of_lt hLast)
  rw [← hNext, ← token_spliced hSecond,
    ← next_spliced hFirst] at hPath
  rw [← next_spliced hThird] at hEntries
  rw [← token_spliced (x := x) hFirst,
    ← token_spliced (x := x) hLast, ← next_spliced hLast]
  exact .intro (by rwa [token_spliced hFirst])
    (by rwa [next_spliced hFirst, token_spliced hSecond])
    hPath (by rwa [token_spliced hThird]) hEntries
    (by rwa [token_spliced hLast]) hValue

/- So are imports, before a token that starts none. -/
theorem DerivesImports.spliced
    {imports : List Import}
    (hDerives : DerivesImports s imports t)
    (hKind : x.kind ≠ .kwImport) :
    x.count ≤ t.left →
      DerivesImports (s.spliced x) imports (t.spliced x) := by
  induction hDerives with
  | @stop s hStop =>
      exact fun hLeft =>
        .stop (holds_spliced (p := (· ≠ .kwImport))
          ⟨hLeft, fun _ => hKind⟩ hStop)
  | more hImport hMore ih =>
      intro hLeft
      exact .more
        (hImport.spliced
          (Nat.le_trans hLeft hMore.crosses.left_le))
        (ih hLeft)

theorem DerivesImport.unique
    {i j : Import}
    (hFirst : DerivesImport s i t)
    (hSecond : DerivesImport s j u) :
    i = j ∧ t = u := by
  rcases hFirst with
    ⟨-, -, hPath, hOpen, hEntries, hClose, hValue⟩
  rcases hSecond with
    ⟨-, -, hPath', hOpen', hEntries', hClose', hValue'⟩
  rcases hPath.unique hPath' (left_pos_of_kind hOpen nofun)
    (left_pos_of_kind hOpen' nofun) with ⟨rfl, rfl⟩
  rcases hEntries.unique hEntries'
    (left_pos_of_kind hClose nofun)
    (left_pos_of_kind hClose' nofun) with ⟨rfl, rfl⟩
  cases hValue.symm.trans hValue'
  exact ⟨rfl, rfl⟩

theorem DerivesImports.unique
    {is js : List Import}
    (hFirst : DerivesImports s is t)
    (hSecond : DerivesImports s js u) :
    is = js ∧ t = u := by
  induction hFirst generalizing js with
  | stop hStop =>
      cases hSecond with
      | stop _ => exact ⟨rfl, rfl⟩
      | more hImport _ =>
          cases hImport with
          | intro hKeyword => exact absurd hKeyword hStop
  | more hImport _ ih =>
      cases hSecond with
      | stop hStop =>
          cases hImport with
          | intro hKeyword => exact absurd hKeyword hStop
      | more hOther hMore =>
          rcases hImport.unique hOther with ⟨rfl, rfl⟩
          rcases ih hMore with ⟨rfl, rfl⟩
          exact ⟨rfl, rfl⟩

------------------------------------------------------------
-- Declarations
------------------------------------------------------------

theorem DerivesDeclaration.crosses
    {d : Declaration}
    (hDerives : DerivesDeclaration s d t) :
    s.Crosses [] t [] := by
  cases hDerives with
  | function hFunction => exact hFunction.crosses trivial []
  | property hKeyword hVariable =>
      refine hVariable.crosses ?_ []
      change s.token.kind.isSolid
      rcases hKeyword with hKind | hKind
      · rw [hKind]
        rfl
      · rw [hKind]
        rfl

theorem DerivesDeclarations.crosses
    {ds : List Declaration}
    (hDerives : DerivesDeclarations s ds t) :
    s.Crosses [] t [] := by
  induction hDerives with
  | stop _ => exact .refl _ []
  | more hDeclaration _ ih =>
      exact hDeclaration.crosses.trans ih

/- The keywords that may start a declaration. -/
def Declaration.keywords : Declaration → List TokenKind
  | .function _ => [.kwFun]
  | .property _ => [.kwVal, .kwVar]

theorem DerivesDeclaration.keyword
    {d : Declaration}
    (hDerives : DerivesDeclaration s d t) :
    s.token.kind ∈ d.keywords := by
  cases hDerives with
  | function hFunction =>
      cases hFunction with
      | functionDecl hKeyword =>
          exact List.mem_singleton.2 hKeyword
  | property hKeyword _ =>
      exact List.mem_pair.2 hKeyword

theorem DerivesDeclaration.kind_ne_eof
    {d : Declaration}
    (hDerives : DerivesDeclaration s d t) :
    s.token.kind ≠ .eof := by
  intro hEnd
  have hKeyword := hDerives.keyword
  rw [hEnd] at hKeyword
  unfold Declaration.keywords at hKeyword
  split at hKeyword
  · exact absurd hKeyword (by decide)
  · exact absurd hKeyword (by decide)

/- A declaration is read before another one as well. -/
theorem DerivesDeclaration.spliced
    {d : Declaration}
    (hDerives : DerivesDeclaration s d t)
    (hBreak : x.kind.isBreak)
    (hLeft : x.count ≤ t.left) :
    DerivesDeclaration (s.spliced x) d (t.spliced x) := by
  cases hDerives with
  | function hFunction =>
      exact .function (hFunction.spliced
        ⟨hLeft, fun _ => hBreak⟩)
  | property hKeyword hVariable =>
      have hInside : x.count < s.left :=
        Nat.lt_of_le_of_lt hLeft hVariable.left_le
      exact .property (by rwa [token_spliced hInside])
        (hVariable.spliced ⟨hLeft, fun _ => trivial⟩)

theorem DerivesDeclaration.unique
    {c d : Declaration}
    (hFirst : DerivesDeclaration s c t)
    (hSecond : DerivesDeclaration s d u)
    (hEnded : s.Ended) :
    c = d ∧ t = u := by
  have hLeft := (hEnded.crosses hFirst.crosses).left_pos
  have hLeft' := (hEnded.crosses hSecond.crosses).left_pos
  have hKeyword := hFirst.keyword
  have hKeyword' := hSecond.keyword
  cases hFirst with
  | function hFunction =>
      cases hSecond with
      | function hOther =>
          rcases hFunction.unique hOther hLeft hLeft' with
            ⟨rfl, rfl⟩
          exact ⟨rfl, rfl⟩
      | property _ _ =>
          rw [List.mem_singleton.1 hKeyword] at hKeyword'
          change _ ∈ [TokenKind.kwVal, .kwVar] at hKeyword'
          exact absurd hKeyword' (by decide)
  | property _ hVariable =>
      cases hSecond with
      | function _ =>
          rw [List.mem_singleton.1 hKeyword'] at hKeyword
          change _ ∈ [TokenKind.kwVal, .kwVar] at hKeyword
          exact absurd hKeyword (by decide)
      | property _ hOther =>
          rcases hVariable.unique hOther hLeft hLeft' with
            ⟨rfl, rfl⟩
          exact ⟨rfl, rfl⟩

/-
  Declarations at the end of a text are the first ones of
  those that are read if others follow.
-/
theorem DerivesDeclarations.split
    {ds es : List Declaration}
    (hDerives : DerivesDeclarations s ds t)
    (hBreak : x.kind.isBreak)
    (hOther : DerivesDeclarations (s.spliced x) es u) :
    x.count ≤ t.left →
      (s.spliced x).Ended →
        (s.spliced x).Regular →
          ∃ later,
            es = ds ++ later ∧
              DerivesDeclarations (t.spliced x) later u ∧
                (t.spliced x).Regular := by
  induction hDerives generalizing es with
  | stop _ =>
      exact fun _ _ hRegular => ⟨es, rfl, hOther, hRegular⟩
  | @more s d t ds u hDeclaration hRest ih =>
      intro hLeft hEnded hRegular
      have hSame :=
        hDeclaration.spliced hBreak
          (Nat.le_trans hLeft hRest.crosses.left_le)
      cases hOther with
      | stop hEnd => exact absurd hEnd hSame.kind_ne_eof
      | more hAgain hOthers =>
          rcases hSame.unique hAgain hEnded with ⟨rfl, rfl⟩
          rcases ih hOthers hLeft
            (hEnded.crosses hSame.crosses)
            (hSame.leads hRegular).regular with
            ⟨later, rfl, hLater⟩
          exact ⟨later, rfl, hLater⟩

theorem DerivesDeclarations.kind_eq
    {ds : List Declaration}
    (hDerives : DerivesDeclarations s ds t) :
    t.token.kind = .eof := by
  induction hDerives with
  | stop hEnd => exact hEnd
  | more _ _ ih => exact ih

------------------------------------------------------------
-- Sources
------------------------------------------------------------

theorem TokenStream.eq_of_lists
    {a b : TokenStream}
    (hBefore : a.before = b.before)
    (hAhead : a.ahead = b.ahead)
    (hLast : a.last = b.last) :
    a = b := by
  rcases a with ⟨before, ahead, last, kind_last⟩
  rcases b with ⟨before', ahead', last', kind_last'⟩
  dsimp only at hBefore hAhead hLast
  subst hBefore hAhead hLast
  rfl

theorem ended_initial (source file : String) :
    (ParserState.initial source file).Ended := by
  have hStream := ofSource_eq source file
  refine ⟨(TokenStream.ofSource source file).last, ?_,
    (TokenStream.ofSource source file).kind_last⟩
  rw [← hStream.2.2, ← hStream.2.1]
  rfl

/-
  What is read up to the end of a text are all its tokens
  but the last.
-/
theorem tokens_of_crosses
    {source file : String}
    (hAhead : s.stream.ahead = tokenize source (some file))
    (hCrosses : s.Crosses [] t [])
    (hEnded : t.Ended)
    (hEnd : t.token.kind = .eof) :
    ∃ ts last,
      tokenize source (some file) = ts ++ [last] ∧
        bracketsAfter [] ts = some [] ∧ t.left = 1 := by
  rcases hCrosses with ⟨ts, hPasses, hBrackets⟩
  rcases Lexer.exists_reads_end (.start source (some file))
    with ⟨front, l, hReads, -, hTokens⟩
  have hLeft := hEnded.left_pos
  cases hRest : t.stream.ahead with
  | nil =>
      unfold left at hLeft
      rw [hRest] at hLeft
      cases hLeft
  | cons token rest =>
      have hAll :
          ts ++ token :: rest =
            front ++
              [⟨.eof, "EOF", Span.point l.position⟩] := by
        rw [← hRest, ← hPasses.ahead_eq, hAhead]
        exact hTokens
      have hNone : rest = [] := by
        by_contra hSome
        rw [← List.dropLast_concat_getLast hSome,
          ← List.cons_append, ← List.append_assoc] at hAll
        have hFront := (List.append_inj' hAll rfl).1
        refine hReads.kind_ne_eof (t := token) ?_ ?_
        · rw [← hFront]
          exact List.mem_append_right _ List.mem_cons_self
        · rw [← hEnd, token_of_ahead hRest]
      subst hNone
      refine ⟨ts, token, ?_, hBrackets, ?_⟩
      · rw [← hAhead, hPasses.ahead_eq, hRest]
      · unfold left
        rw [hRest]
        rfl

/-
  The tokens of a text with another one in new lines are
  those of the text with others in place of its end.
-/
theorem exists_spliced
    {source other file : String}
    {ts : List Token}
    {last : Token}
    {kind : TokenKind}
    (hTokens : tokenize source (some file) = ts ++ [last])
    (hDepth : depthAfter 0 ts = some 0)
    (hKind :
      (tokenize other (some file)).head?.map (·.kind) =
        some kind) :
    ∃ x : Splice,
      x.count = 1 ∧ x.kind = kind ∧
        (ParserState.initial source file).spliced x =
          .initial (source ++ "\n" ++ other) file := by
  rcases tokenize_appended hTokens hDepth other (some file)
    with ⟨us, hBoth, hWords⟩
  have hFirst := ofSource_eq source file
  have hLonger := ofSource_eq (source ++ "\n" ++ other) file
  have hHead : us.head?.map (·.kind) = some kind := by
    have hSame :=
      congrArg (fun ws => ws.head?.map Prod.fst) hWords
    rw [List.head?_map, List.head?_map, Option.map_map,
      Option.map_map] at hSame
    exact hSame.trans hKind
  have hAhead :
      (ParserState.initial source file).stream.ahead =
        ts ++ [last] :=
    hFirst.2.1.trans hTokens
  generalize hOther :
    TokenStream.ofSource (source ++ "\n" ++ other) file =
      longer at hLonger
  refine ⟨⟨1, us, longer.last, longer.kind_last⟩,
    rfl, ?_, ?_⟩
  · unfold Splice.kind
    cases us with
    | nil => cases hHead
    | cons token rest => exact Option.some.inj hHead
  · have hStream :
        ((ParserState.initial source file).spliced
            ⟨1, us, longer.last, longer.kind_last⟩).stream =
          longer := by
      refine TokenStream.eq_of_lists
        (hFirst.1.trans hLonger.1.symm) ?_ rfl
      unfold spliced left
      dsimp only
      rw [hAhead, List.length_append, List.length_singleton,
        Nat.add_sub_cancel, List.take_left]
      exact hBoth.symm.trans hLonger.2.1.symm
    exact congrArg (ParserState.start · file)
      (hStream.trans hOther.symm)

/-
  How the run over a longer text goes on behind the run over
  its first part: from the same state, but for the tokens
  that are ahead.
-/
structure Continues
    (source file : String)
    (p q : Program)
    (t u : ParserState)
    (x : Splice)
    (later : List Declaration)
    (v : ParserState) :
    Prop where
  imports :
    DerivesImports (ParserState.initial source file).opened
      p.imports t
  declarations : DerivesDeclarations t p.declarations u
  more : DerivesDeclarations (u.spliced x) later v
  regular : (u.spliced x).Regular
  scope_eq :
    p.scope = (ParserState.initial source file).newScope
  symbols_eq : p.symbols = u.symbols
  imports_eq : q.imports = p.imports
  declarations_eq : q.declarations = p.declarations ++ later
  scopes_eq : q.scope = p.scope
  extended_eq : q.symbols = v.symbols

/- An accepted text goes on if more declarations follow. -/
theorem exists_continues
    {source other file : String}
    {p q : Program}
    {kind : TokenKind}
    (hFirst : parseProgram source file = .ok p)
    (hKind :
      (tokenize other (some file)).head?.map (·.kind) =
        some kind)
    (hKeyword :
      kind ∈ [TokenKind.kwFun, .kwVal, .kwVar])
    (hBoth :
      parseProgram (source ++ "\n" ++ other) file = .ok q) :
    ∃ t u x later v,
      Continues source file p q t u x later v := by
  have hKinds :
      ∀ kind ∈ [TokenKind.kwFun, .kwVal, .kwVar],
        kind.isBreak = true ∧ kind ≠ .kwImport := by
    decide
  rcases hKinds kind hKeyword with ⟨hBreak, hNoImport⟩
  have hDerives := derivesProgram_of_parseProgram hFirst
  have hLonger := derivesProgram_of_parseProgram hBoth
  rcases hDerives with ⟨hImports, hDeclarations⟩
  rename_i imports t ds u
  have hCrosses :=
    hImports.crosses.trans hDeclarations.crosses
  have hEnded :
      (ParserState.initial source file).opened.Ended :=
    ended_initial source file
  rcases tokens_of_crosses (ofSource_eq source file).2.1
    hCrosses (hEnded.crosses hCrosses) hDeclarations.kind_eq
    with ⟨ts, last, hTokens, hBrackets, hLeft⟩
  rcases exists_spliced hTokens
      (depthAfter_of_bracketsAfter hBrackets) hKind with
    ⟨x, hCount, rfl, hSame⟩
  have hEarlier : x.count ≤ u.left := by
    rw [hCount, hLeft]
  have hAgain :=
    hImports.spliced hNoImport
      (Nat.le_trans hEarlier hDeclarations.crosses.left_le)
  rw [← opened_spliced, hSame] at hAgain
  rcases hLonger with ⟨hOther, hOthers⟩
  rcases hAgain.unique hOther with ⟨rfl, rfl⟩
  have hRegular :=
    (hAgain.leads (regular_initial _ file).opened).regular
  have hEndedThere : (t.spliced x).Ended :=
    ParserState.Ended.crosses
      (s := (ParserState.initial
        (source ++ "\n" ++ other) file).opened)
      (ended_initial _ file) hAgain.crosses
  rcases hDeclarations.split hBreak hOthers hEarlier
    hEndedThere hRegular with ⟨later, rfl, hLater, hThere⟩
  exact ⟨_, _, _, _, _,
    { imports := hImports
      declarations := hDeclarations
      more := hLater
      regular := hThere
      scope_eq := rfl
      symbols_eq := rfl
      imports_eq := rfl
      declarations_eq := rfl
      scopes_eq := rfl
      extended_eq := rfl }⟩

end SourceCheck
