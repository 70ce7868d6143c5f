import Mathlib
import SourceCheck.Proofs.Literals.Parts
import SourceCheck.Proofs.Literals.Spellings
import SourceCheck.Proofs.Operators.Sources

/-
  String literals.

  However the characters of a string are written, the string
  is read as these characters.  And a string without
  templates is accepted only if it is closed, and if
  everything in it stands for characters.

  Key definitions include:
    * `Token.EscapesScalar`
    * `Token.IsSound`
    * `HasPlainString`

  Key theorems include:
    * `Spells.outcome`
    * `HasPlainString.isAccepted_iff`
    * `HasPlainString.reports_escape`
    * `strings_decode`
-/

namespace SourceCheck

open SourceCheck.Parser
open SourceCheck.Grammar
open SourceCheck.ParserState

------------------------------------------------------------
-- Reading
------------------------------------------------------------

section Reading

variable {nested : Nested}
variable {s t : ParserState}
variable {quote stop bad : Token}
variable {ts back : List Token}
variable {cs : List Char}
variable {parts : List StringPart}

/- A token that stands for characters is read as a text. -/
theorem readsPart_of_decoded?
    (nested : Nested)
    (hDecoded : s.token.decoded? = some cs) :
    nested.ReadsPart s
      (.text (String.ofList cs) s.token.span) s.next := by
  unfold Token.decoded? at hDecoded
  split at hDecoded
  · rename_i hText
    cases hDecoded
    rw [String.ofList_toList]
    exact .text hText
  · rename_i hEscape
    rcases Option.map_eq_some_iff.mp hDecoded with
      ⟨c, hChar, rfl⟩
    exact .escape hEscape hChar
  · cases hDecoded

/- Only such tokens are read, and those that open templates. -/
theorem decoded?_of_readsPart
    {part : StringPart}
    (hPart : nested.ReadsPart s part t)
    (hPlain : s.token.kind ≠ .stringTemplateStart) :
    t = s.next ∧ ∃ cs, s.token.decoded? = some cs := by
  cases hPart with
  | text hText =>
      refine ⟨rfl, s.token.value.toList, ?_⟩
      unfold Token.decoded?
      rw [hText]
  | @escape c hEscape hChar =>
      refine ⟨rfl, [c], ?_⟩
      unfold Token.decoded?
      rw [hEscape]
      exact congrArg (Option.map ([·])) hChar
  | embedded hOpen => exact absurd hOpen hPlain

/- Tokens that stand for characters are read as texts. -/
theorem Spells.readsParts
    (nested : Nested)
    (hSpells : Spells ts cs)
    (hAhead : s.stream.ahead = ts ++ stop :: back)
    (hEnd : stop.kind = .stringEnd) :
    ∃ parts,
      nested.ReadsParts s parts (s.passed ts) ∧
        parts.length = ts.length ∧
          stringForm parts = .string (String.ofList cs) := by
  suffices hTexts :
      ∃ parts,
        nested.ReadsParts s parts (s.passed ts) ∧
          parts.length = ts.length ∧
            parts.any (·.isEmbedded) = false ∧
              String.join (parts.map (·.ownText)) =
                String.ofList cs by
    rcases hTexts with
      ⟨parts, hParts, hLength, hNone, hJoin⟩
    refine ⟨parts, hParts, hLength, ?_⟩
    unfold stringForm
    rw [hNone, if_neg Bool.false_ne_true, hJoin]
  induction hSpells generalizing s with
  | nil =>
      rw [← token_of_ahead hAhead] at hEnd
      exact ⟨[], .done hEnd, rfl, rfl, rfl⟩
  | @cons first ts cs ds hFirst _ ih =>
      rcases ih (ahead_next hAhead) with
        ⟨parts, hParts, hLength, hNone, hJoin⟩
      rw [← token_of_ahead hAhead] at hFirst
      have hPart := readsPart_of_decoded? nested hFirst
      refine ⟨_, .part hPart hParts,
        congrArg Nat.succ hLength, hNone, ?_⟩
      rw [List.map_cons, String.join_cons, hJoin,
        String.ofList_append]
      rfl

/- They are accepted if a closing quote follows. -/
theorem Spells.outcome
    (hSpells : Spells ts cs)
    (hAhead : s.stream.ahead = ts ++ stop :: back)
    (hEnd : stop.kind = .stringEnd) :
    (stringLiteral nested quote).outcome s =
      (.ok
        (.new (.string (String.ofList cs))
          (quote.span.between stop.span)),
        (s.passed ts).next) := by
  rcases hSpells.readsParts nested hAhead hEnd with
    ⟨parts, hParts, hLength, hForm⟩
  have hBudget : parts.length ≤ s.stream.ahead.length := by
    rw [hAhead, hLength, List.length_append]
    exact Nat.le_add_right _ _
  have hStop : (s.passed ts).token = stop :=
    token_of_ahead (ahead_passed hAhead)
  rw [outcome_stringLiteral (hParts.outcome hBudget)
    hParts.kind_end, hForm, hStop]

/- Nothing else is accepted where no template is opened. -/
theorem spells_of_readsParts
    (hParts : nested.ReadsParts s parts t)
    (hAhead : s.stream.ahead = ts ++ stop :: back)
    (hPlain :
      ∀ u ∈ ts,
        u.kind ≠ .stringTemplateStart ∧ u.kind ≠ .stringEnd)
    (hStop : stop.kind = .stringEnd ∨ stop.kind = .eof) :
    stop.kind = .stringEnd ∧ ∃ cs, Spells ts cs := by
  induction hParts generalizing ts with
  | done hEnd =>
      cases ts with
      | nil =>
          rw [token_of_ahead hAhead] at hEnd
          exact ⟨hEnd, [], .nil⟩
      | cons first ts =>
          rw [token_of_ahead hAhead] at hEnd
          exact absurd hEnd
            (hPlain first List.mem_cons_self).2
  | part hPart _ ih =>
      have hMore := hPart.hasMore
      cases ts with
      | nil =>
          rw [token_of_ahead hAhead] at hMore
          exact absurd hStop (not_or.mpr hMore)
      | cons first ts =>
          rcases List.forall_mem_cons.mp hPlain with
            ⟨hFirst, hRest⟩
          rw [← token_of_ahead hAhead] at hFirst
          rcases decoded?_of_readsPart hPart hFirst.1
            with ⟨rfl, cs, hDecoded⟩
          rcases ih (ahead_next hAhead) hRest with
            ⟨hEnd, ds, hSpells⟩
          rw [token_of_ahead hAhead] at hDecoded
          exact ⟨hEnd, cs ++ ds, .cons hDecoded hSpells⟩

/- An escape that stands for nothing is reported. -/
theorem outcome_invalidPart
    (nested : Nested)
    (hEscape : s.token.kind = .escapeSequence)
    (hNone : unescape? s.token.value = none) :
    (nextStringPart nested).outcome s =
      (.error
        ⟨.invalidEscapeSequence s.token.value,
          s.token.span.start⟩,
        s.next) := by
  have hMore :
      s.token.kind ≠ .stringEnd ∧ s.token.kind ≠ .eof := by
    rw [hEscape]
    decide
  unfold nextStringPart
  rw [outcome_unlessEnd, if_pos hMore, outcome_bind,
    outcome_consume]
  dsimp only
  unfold stringPart
  rw [hEscape]
  dsimp only
  rw [hNone]
  rfl

/- Behind other characters, too. -/
theorem Spells.outcome_invalid
    (hSpells : Spells ts cs)
    (hAhead : s.stream.ahead = ts ++ bad :: back)
    (hEscape : bad.kind = .escapeSequence)
    (hNone : unescape? bad.value = none)
    {budget : List Token}
    (hBudget : ts.length ≤ budget.length) :
    (collectWithin (nextStringPart nested) budget).outcome s =
      (.error
        ⟨.invalidEscapeSequence bad.value, bad.span.start⟩,
        (s.passed ts).next) := by
  induction hSpells generalizing s budget with
  | nil =>
      rw [← token_of_ahead hAhead] at hEscape hNone ⊢
      have hPart :=
        outcome_invalidPart nested hEscape hNone
      cases budget with
      | nil =>
          rw [collectWithin, outcome_bind, hPart]
          rfl
      | cons token budget =>
          rw [collectWithin, outcome_bind, hPart]
          rfl
  | cons hFirst _ ih =>
      cases budget with
      | nil => exact absurd hBudget (Nat.not_succ_le_zero _)
      | cons token budget =>
          have hRest :=
            ih (ahead_next hAhead)
              (Nat.le_of_succ_le_succ hBudget)
          rw [← token_of_ahead hAhead] at hFirst
          have hPart :=
            outcome_nextStringPart_iff.mpr
              (readsPart_of_decoded? nested hFirst)
          rw [collectWithin, outcome_bind, hPart]
          dsimp only
          rw [outcome_bind, hRest]
          rfl

theorem Spells.outcome_stringLiteral_invalid
    (hSpells : Spells ts cs)
    (hAhead : s.stream.ahead = ts ++ bad :: back)
    (hEscape : bad.kind = .escapeSequence)
    (hNone : unescape? bad.value = none) :
    (stringLiteral nested quote).outcome s =
      (.error
        ⟨.invalidEscapeSequence bad.value, bad.span.start⟩,
        (s.passed ts).next) := by
  have hBudget : ts.length ≤ s.stream.ahead.length := by
    rw [hAhead, List.length_append]
    exact Nat.le_add_right _ _
  unfold stringLiteral collect
  rw [bind_assoc, outcome_bind, outcome_get]
  dsimp only
  rw [outcome_bind,
    hSpells.outcome_invalid hAhead hEscape hNone hBudget]

end Reading

------------------------------------------------------------
-- Tokens of strings
------------------------------------------------------------

/-
  An escape by a code point has digits of the radix sixteen,
  at least one, and their number is a code point that is no
  surrogate.
-/
def Token.EscapesScalar (t : Token) : Prop :=
  t.kind = .escapeSequence →
    ∀ code,
      t.value.toList = '\\' :: 'u' :: code →
        NamesScalar (unbraced code)

/- Nothing is wrong with a token of a string. -/
def Token.IsSound (t : Token) : Prop :=
  t.kind ≠ .unexpectedCharacter ∧ t.EscapesScalar

/- The token is made of a lexeme in a string. -/
def Token.IsInString (t : Token) : Prop :=
  ∃ c cs,
    (textLexeme c cs).kind = some t.kind ∧
      t.value =
        String.ofList (c :: cs.take (textLexeme c cs).more)

/- In a string only a backslash is an escape. -/
theorem exists_body_of_escape
    {t : Token}
    (hToken : t.IsInString)
    (hEscape : t.kind = .escapeSequence) :
    ∃ body,
      t.value = String.ofList ('\\' :: body) ∧
        EscapeBody body := by
  rcases hToken with ⟨c, cs, hKind, hValue⟩
  rw [hEscape] at hKind
  unfold textLexeme at hKind hValue
  split at hKind
  · cases hKind
  rename_i hQuote
  rw [if_neg hQuote] at hValue
  split at hKind
  · rename_i hSlash
    rw [if_pos hSlash, hSlash] at hValue
    exact ⟨_, hValue, body_of_backslashLexeme hKind⟩
  · cases hKind

/- Which tokens of a string stand for characters. -/
theorem isSome_decoded?_iff
    {t : Token}
    (hToken : t.IsInString)
    (hPlain :
      t.kind ≠ .stringTemplateStart ∧ t.kind ≠ .stringEnd) :
    t.decoded?.isSome ↔ t.IsSound := by
  unfold Token.decoded? Token.IsSound Token.EscapesScalar
  split
  · rename_i hText
    rw [hText]
    exact iff_of_true rfl ⟨nofun, nofun⟩
  · rename_i hEscape
    rcases exists_body_of_escape hToken hEscape with
      ⟨body, hValue, hBody⟩
    rw [Option.isSome_map, hValue, isSome_unescape? hBody,
      String.toList_ofList, hEscape]
    simp only [ne_eq, reduceCtorEq, not_false_eq_true,
      true_and, forall_const, List.cons.injEq]
  · rename_i hText hEscape
    refine iff_of_false Bool.false_ne_true fun hBoth => ?_
    rcases hToken with ⟨c, cs, hKind, -⟩
    have hFits := fits_textLexeme hKind
    simp only [TokenKind.isText, List.contains_iff_mem,
      List.mem_cons, List.not_mem_nil, or_false,
      Bool.or_eq_true, decide_eq_true_eq] at hFits
    tauto

/- Parts of a string leave it open. -/
theorem after_of_isText
    {kind : TokenKind}
    (hText : kind.isText)
    (es : List Enclosure) :
    Enclosure.after kind (.text :: es) = .text :: es := by
  revert hText
  cases kind <;> first | exact fun _ => rfl | exact nofun

/-
  In a string all tokens are parts of it, as long as they
  neither open a template nor close the string.
-/
theorem isInString_of_reads
    {l l' : Lexer}
    {ts : List Token}
    (hReads : Lexer.Reads l ts l')
    {es : List Enclosure}
    (hText : l.enclosures = .text :: es)
    (hPlain :
      ∀ t ∈ ts,
        t.kind ≠ .stringTemplateStart ∧ t.kind ≠ .stringEnd) :
    ∀ t ∈ ts, t.IsInString := by
  induction hReads with
  | done => exact nofun
  | @next l c cs ts l' hRest _ ih =>
      have hLexeme :
          lexeme l.enclosures c cs = textLexeme c cs := by
        rw [hText]
        rfl
      rw [List.forall_mem_append] at hPlain ⊢
      have hMade :
          ∀ t ∈ l.made (lexeme l.enclosures c cs),
            t.IsInString := by
        intro t hMem
        unfold Lexer.made Lexer.word at hMem
        rw [hLexeme, hRest] at hMem
        rcases List.mem_map.mp hMem with ⟨kind, hKind, rfl⟩
        exact ⟨c, cs, Option.mem_toList.mp hKind, rfl⟩
      refine ⟨hMade, ih ?_ hPlain.2⟩
      unfold Lexer.pass Lexer.enclosuresAfter
      cases hKind : (lexeme l.enclosures c cs).kind with
      | none => exact hText
      | some kind =>
          have hFits := fits_lexeme hKind
          have hFirst :
              kind ≠ .stringTemplateStart ∧
                kind ≠ .stringEnd := by
            refine hPlain.1 ⟨kind, _, _⟩
              (List.mem_map.mpr ⟨kind, ?_, rfl⟩)
            rw [hKind]
            exact List.mem_cons_self
          rw [hText] at hFits ⊢
          apply after_of_isText
          simpa [TokenKind.fits, hFirst] using hFits

/-
  Among the tokens there is a string without templates: its
  quote, its parts, and what ends it, which is a quote or the
  end of the text.
-/
structure HasPlainString
    (all : List Token)
    (quote : Token)
    (ts : List Token)
    (stop : Token)
    (back : List Token) :
    Prop where
  exists_front :
    ∃ front, all = front ++ quote :: (ts ++ stop :: back)
  kind_quote : quote.kind = .stringStart
  plain :
    ∀ t ∈ ts,
      t.kind ≠ .stringTemplateStart ∧ t.kind ≠ .stringEnd
  kind_stop : stop.kind = .stringEnd ∨ stop.kind = .eof

section PlainStrings

variable {source : String}
variable {file? : Option String}
variable {quote stop bad : Token}
variable {ts us back : List Token}
variable {nested : Nested}
variable {s : ParserState}

/- All parts of a string in a text are made by the lexer. -/
theorem HasPlainString.isInString
    (hString :
      HasPlainString (tokenize source file?) quote ts stop
        back) :
    ∀ t ∈ ts, t.IsInString := by
  rcases hString.exists_front with ⟨front, hTokens⟩
  have hFront :
      (Lexer.start source file?).tokens =
        (front ++ [quote]) ++ (ts ++ stop :: back) := by
    rw [List.append_assoc]
    exact hTokens
  rcases Lexer.reads_of_tokens hFront (by simp) with
    ⟨l, hReads, hLater, -⟩
  rcases Lexer.reads_of_tokens hLater
      (List.cons_ne_nil _ _) with
    ⟨l', hInside, -, -⟩
  have hOpen :
      l.enclosures =
        .text ::
          Enclosure.afterAll (front.map (·.kind)) [] := by
    rw [hReads.enclosures_eq, List.map_append,
      Enclosure.afterAll, List.foldl_append, List.map_cons,
      hString.kind_quote]
    rfl
  exact isInString_of_reads hInside hOpen hString.plain

theorem HasPlainString.isSome_decoded?
    (hString :
      HasPlainString (tokenize source file?) quote ts stop
        back)
    (t : Token)
    (hMem : t ∈ ts) :
    t.decoded?.isSome ↔ t.IsSound :=
  isSome_decoded?_iff (hString.isInString t hMem)
    (hString.plain t hMem)

/- A string is accepted if it is closed and sound. -/
theorem HasPlainString.isAccepted_iff
    (hString :
      HasPlainString (tokenize source file?) quote ts stop
        back)
    (hAhead : s.stream.ahead = ts ++ stop :: back) :
    (∃ e u,
        (stringLiteral nested quote).outcome s = (.ok e, u)) ↔
      stop.kind = .stringEnd ∧ ∀ t ∈ ts, t.IsSound := by
  constructor
  · rintro ⟨e, u, hRun⟩
    rcases readsParts_of_stringLiteral hRun with
      ⟨parts, t, hParts, -, -⟩
    rcases spells_of_readsParts hParts hAhead hString.plain
      hString.kind_stop with ⟨hEnd, cs, hSpells⟩
    exact ⟨hEnd, fun t hMem =>
      (hString.isSome_decoded? t hMem).mp
        (hSpells.isSome_decoded? t hMem)⟩
  · rintro ⟨hEnd, hAll⟩
    rcases exists_spells fun t hMem =>
        (hString.isSome_decoded? t hMem).mpr (hAll t hMem)
      with ⟨cs, hSpells⟩
    exact ⟨_, _, hSpells.outcome hAhead hEnd⟩

/- The first escape that is not sound is reported. -/
theorem HasPlainString.reports_escape
    (hString :
      HasPlainString (tokenize source file?) quote
        (us ++ bad :: ts) stop back)
    (hAhead :
      s.stream.ahead = (us ++ bad :: ts) ++ stop :: back)
    (hSound : ∀ t ∈ us, t.IsSound)
    (hBad : ¬ bad.EscapesScalar) :
    ∃ u,
      (stringLiteral nested quote).outcome s =
        (.error
          ⟨.invalidEscapeSequence bad.value, bad.span.start⟩,
          u) := by
  have hEscape : bad.kind = .escapeSequence :=
    Classical.byContradiction fun hOther =>
      hBad fun hKind => absurd hKind hOther
  have hDecoded : ¬ bad.decoded?.isSome := by
    intro hSome
    exact hBad
      ((hString.isSome_decoded? bad
        (List.mem_append_right us List.mem_cons_self)).mp
          hSome).2
  have hNone : unescape? bad.value = none := by
    unfold Token.decoded? at hDecoded
    rw [hEscape] at hDecoded
    dsimp only at hDecoded
    rw [Option.isSome_map] at hDecoded
    exact Option.not_isSome_iff_eq_none.mp hDecoded
  rcases exists_spells fun t hMem =>
      (hString.isSome_decoded? t
        (List.mem_append_left _ hMem)).mpr (hSound t hMem)
    with ⟨cs, hSpells⟩
  rw [List.append_assoc] at hAhead
  exact ⟨_, hSpells.outcome_stringLiteral_invalid hAhead
    hEscape hNone⟩

end PlainStrings

------------------------------------------------------------
-- Strings
------------------------------------------------------------

/- A whole string is read as what is written. -/
theorem parseExpression_spelled
    (xs : List Spelling)
    (file : String) :
    ∃ e,
      parseExpression
            (String.ofList
              ('"' :: (xs.flatMap Spelling.text ++ ['"'])))
            file =
          .ok e ∧
        e.form =
          .string (String.ofList (xs.map Spelling.char)) := by
  rcases exists_tokenize_spelled xs (some file) with
    ⟨quote, ts, stop, last, hTokens, hQuote, hStop, hLast,
      hSpells⟩
  generalize String.ofList ('"' :: _) = source at hTokens ⊢
  have hStart :
      (ParserState.initial source file).stream.ahead =
        quote :: (ts ++ [stop, last]) := by
    rw [← hTokens]
    exact (ofSource_eq source file).2.1
  have hAhead := ahead_next hStart
  have hEnd :
      (((ParserState.initial source file).next.passed
        ts).next).token = last :=
    token_of_ahead (ahead_next (ahead_passed hAhead))
  have hStarter :
      (ParserState.initial source file).token.kind.starter? =
        some .string := by
    rw [token_of_ahead hStart, hQuote]
    rfl
  have hNone :
      ((ParserState.initial source file).next.passed
        ts).next.token.kind.extender? = none := by
    rw [hEnd, hLast]
    rfl
  have hRun :
      (Grammar.closed fun nested =>
            nested.required .loosest).outcome
          (.initial source file) =
        (.ok
          (.new
            (.string (String.ofList (xs.map Spelling.char)))
            ((ParserState.initial source
              file).token.span.between stop.span)),
          ((ParserState.initial source file).next.passed
            ts).next) := by
    unfold Grammar.closed
    rw [outcome_bind, outcome_get]
    refine outcome_required
      (outcome_expression hStarter
        (hSpells.outcome hAhead hStop) ?_)
    exact outcome_loopWithin_none
      (outcome_extend_none
        (endsAbove_of_extender?_eq_none hNone _)) _
  exact ⟨_, parse_of_outcome hRun (diagnostics_passed _ ts),
    rfl⟩

/-
  String literals decode what they encode.

  In whatever ways the characters of a string are written, in
  quotes they are read as a string of these characters.  And
  a string without templates, in any text, is accepted if it
  is closed, nothing in it is unexpected, and every escape by
  a code point has digits that name one, and only then.  The
  first other escape is reported at its place.
-/
theorem strings_decode :
    (∀ (xs : List Spelling) (file : String),
        ∃ e,
          parseExpression
                (String.ofList
                  ('"' ::
                    (xs.flatMap Spelling.text ++ ['"'])))
                file =
              .ok e ∧
            e.form =
              .string (String.ofList (xs.map Spelling.char))) ∧
      ∀ source file? quote ts stop back nested s,
        HasPlainString (tokenize source file?) quote ts stop
            back →
          s.stream.ahead = ts ++ stop :: back →
            ((∃ e u,
                  (stringLiteral nested quote).outcome s =
                    (.ok e, u)) ↔
                stop.kind = .stringEnd ∧
                  ∀ t ∈ ts, t.IsSound) ∧
              ∀ us bad vs,
                ts = us ++ bad :: vs →
                  (∀ t ∈ us, t.IsSound) →
                    ¬ bad.EscapesScalar →
                      ∃ u,
                        (stringLiteral nested quote).outcome
                            s =
                          (.error
                            ⟨.invalidEscapeSequence bad.value,
                              bad.span.start⟩, u) := by
  constructor
  · exact parseExpression_spelled
  intro source file? quote ts stop back nested s hString
    hAhead
  constructor
  · exact hString.isAccepted_iff hAhead
  · rintro us bad vs rfl hSound hBad
    exact hString.reports_escape hAhead hSound hBad

/- A token of a line, between two offsets. -/
def lineToken
    (kind : TokenKind)
    (value : String)
    (start stop : Nat) :
    Token where
  kind := kind
  value := value
  span :=
    ⟨⟨start, 1, start + 1, "main"⟩,
      ⟨stop, 1, stop + 1, "main"⟩⟩

/- A surrogate behind another character of a string. -/
def surrogate : Token :=
  lineToken .escapeSequence "\\u\x7bd800\x7d" 2 10

theorem strings_decode_surrogate :
    ∃ u,
      (stringLiteral (nestedWithin 0)
            (lineToken .stringStart "\"" 0 1)).outcome
          (ParserState.initial "\"a\\u\x7bd800\x7d\""
            "main").next =
        (.error
          ⟨.invalidEscapeSequence surrogate.value,
            surrogate.span.start⟩, u) := by
  have hTokens :
      tokenize "\"a\\u\x7bd800\x7d\"" (some "main") =
        lineToken .stringStart "\"" 0 1 ::
          ([lineToken .stringContent "a" 1 2, surrogate] ++
            [ lineToken .stringEnd "\"" 10 11,
              lineToken .eof "EOF" 11 11 ]) := by
    cbv
  have hStart :
      (ParserState.initial "\"a\\u\x7bd800\x7d\""
          "main").stream.ahead =
        _ :: _ :=
    (ofSource_eq _ _).2.1.trans hTokens
  have hPlain :
      ∀ t ∈ [lineToken .stringContent "a" 1 2, surrogate],
        t.kind ≠ .stringTemplateStart ∧
          t.kind ≠ .stringEnd := by
    refine List.forall_mem_cons.mpr ⟨by decide, ?_⟩
    exact List.forall_mem_singleton.mpr (by decide)
  have hSound :
      ∀ t ∈ [lineToken .stringContent "a" 1 2],
        t.IsSound :=
    List.forall_mem_singleton.mpr
      ⟨by decide, fun hKind => absurd hKind (by decide)⟩
  have hBad : ¬ surrogate.EscapesScalar := by
    intro hScalar
    have hNames := hScalar rfl "\x7bd800\x7d".toList rfl
    exact absurd hNames.2.2 (by decide)
  exact (strings_decode.2 _ _ _ _ _ _ _ _
    ⟨⟨[], hTokens⟩, rfl, hPlain, .inl rfl⟩
    (ahead_next hStart)).2 [_] surrogate [] rfl hSound hBad

end SourceCheck
