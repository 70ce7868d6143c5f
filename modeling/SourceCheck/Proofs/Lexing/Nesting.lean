import SourceCheck.Token.Lexer

/-
  Tokens nest.

  Strings hold templates, templates hold code, and code
  holds strings again.  Which token may come next depends on
  what is open, so that the tokens of any text begin a word
  in which all strings, all templates and all braces in
  templates are closed by their own tokens.

  Key definitions include:
    * `TokenKind.fits`
    * `Enclosure.Follows`
    * `Nests`
    * `Enclosure.Closes`

  Key theorems include:
    * `fits_lexeme`
    * `follows_tokensFrom`
    * `Enclosure.Follows.closes`
-/

namespace SourceCheck

------------------------------------------------------------
-- Tokens that may come next
------------------------------------------------------------

/- Kinds that code has in no place. -/
def TokenKind.isForeign (kind : TokenKind) : Bool :=
  [TokenKind.eof, .stringContent, .escapeSequence,
    .stringTemplateStart, .stringEnd].contains kind

/- Kinds that a string has before its end. -/
def TokenKind.isText (kind : TokenKind) : Bool :=
  [TokenKind.stringContent, .escapeSequence,
    .unexpectedCharacter].contains kind

/-
  A token of the kind may come next.  A brace that opened
  nothing in a template ends the template, and is no brace.
-/
def TokenKind.fits (kind : TokenKind) :
    List Enclosure → Bool
  | .text :: _ =>
      kind.isText || kind = .stringTemplateStart ||
        kind = .stringEnd
  | .template 0 :: _ =>
      !kind.isForeign && kind ≠ .closeCurly
  | _ => !kind.isForeign && kind ≠ .stringTemplateEnd

/- A reserved word or an identifier is code. -/
theorem isForeign_ofWord (word : String) :
    (TokenKind.ofWord word).isForeign = false ∧
      TokenKind.ofWord word ≠ .stringTemplateEnd ∧
        TokenKind.ofWord word ≠ .closeCurly := by
  unfold TokenKind.ofWord
  split <;> decide

/- What is found in a table is one of its rows. -/
theorem mem_of_lookup
    {α β : Type}
    [BEq α]
    [LawfulBEq α]
    {a : α}
    {b : β}
    {rows : List (α × β)}
    (hFound : rows.lookup a = some b) :
    (a, b) ∈ rows := by
  rcases List.lookup_eq_some_iff.1 hFound with
    ⟨front, back, rfl, -⟩
  exact List.mem_append_right _ List.mem_cons_self

/- A symbol stands in one of the tables, or is none. -/
theorem symbol_cases
    {c : Char}
    {cs : List Char}
    {kind : TokenKind}
    (hKind : (symbol c cs).kind = some kind) :
    kind = .unexpectedCharacter ∨
      (c, kind) ∈ singleSymbols ∨
        ∃ d,
          cs.head? = some d ∧
            ((c, d), kind) ∈ doubleSymbols := by
  unfold symbol at hKind
  split at hKind
  · rename_i found hLookup
    cases hKind
    rcases Option.bind_eq_some_iff.1 hLookup with
      ⟨d, hHead, hFound⟩
    exact .inr (.inr ⟨d, hHead, mem_of_lookup hFound⟩)
  · cases hKind
    cases hLookup : singleSymbols.lookup c with
    | none => exact .inl rfl
    | some found =>
        exact .inr (.inl (mem_of_lookup hLookup))

/- A symbol is code, and only a closing brace closes one. -/
theorem isForeign_symbol
    {c : Char}
    {cs : List Char}
    {kind : TokenKind}
    (hKind : (symbol c cs).kind = some kind) :
    kind.isForeign = false ∧
      kind ≠ .stringTemplateEnd ∧
        (kind = .closeCurly → c = '\x7d') := by
  have hDouble :
      ∀ x ∈ doubleSymbols,
        x.2.isForeign = false ∧
          x.2 ≠ .stringTemplateEnd ∧ x.2 ≠ .closeCurly := by
    decide
  have hSingle :
      ∀ x ∈ singleSymbols,
        x.2.isForeign = false ∧
          x.2 ≠ .stringTemplateEnd ∧
            (x.2 = .closeCurly → x.1 = '\x7d') := by
    decide
  rcases symbol_cases hKind with
    rfl | hRow | ⟨d, -, hRow⟩
  · exact ⟨rfl, nofun, nofun⟩
  · exact hSingle _ hRow
  · have hCode := hDouble _ hRow
    exact ⟨hCode.1, hCode.2.1,
      fun hClose => absurd hClose hCode.2.2⟩

/- An integer literal is a token. -/
theorem kind_intLexeme (c : Char) (cs : List Char) :
    (intLexeme c cs).kind = some .intLiteral := by
  unfold intLexeme
  split
  · split
    · rfl
    · split
      · rfl
      · split <;> rfl
  · rfl

/- The lexemes of code. -/
theorem codeLexeme_cases (c : Char) (cs : List Char) :
    (codeLexeme c cs).kind = none ∨
      (∃ word, (codeLexeme c cs).kind = some (.ofWord word)) ∨
        (codeLexeme c cs).kind = some .intLiteral ∨
          (codeLexeme c cs).kind = some .escapedIdentifier ∨
            codeLexeme c cs = symbol c cs := by
  unfold codeLexeme
  split
  · exact .inl rfl
  split
  · exact .inl rfl
  split
  · exact .inr (.inl ⟨_, rfl⟩)
  split
  · exact .inr (.inr (.inl (kind_intLexeme c cs)))
  split
  · exact .inr (.inr (.inr (.inl rfl)))
  · exact .inr (.inr (.inr (.inr rfl)))

/- A lexeme of code is code. -/
theorem isForeign_codeLexeme
    {c : Char}
    {cs : List Char}
    {kind : TokenKind}
    (hKind : (codeLexeme c cs).kind = some kind) :
    kind.isForeign = false ∧
      kind ≠ .stringTemplateEnd ∧
        (kind = .closeCurly → c = '\x7d') := by
  rcases codeLexeme_cases c cs with
    hGap | ⟨word, hWord⟩ | hInt | hEscaped | hSymbol
  · rw [hGap] at hKind
    cases hKind
  · rw [hWord] at hKind
    cases hKind
    have hCode := isForeign_ofWord word
    exact ⟨hCode.1, hCode.2.1,
      fun hClose => absurd hClose hCode.2.2⟩
  · rw [hInt] at hKind
    cases hKind
    exact ⟨rfl, nofun, nofun⟩
  · rw [hEscaped] at hKind
    cases hKind
    exact ⟨rfl, nofun, nofun⟩
  · rw [hSymbol] at hKind
    exact isForeign_symbol hKind

/- A lexeme in a string is a part of it, or its end. -/
theorem fits_textLexeme
    {c : Char}
    {cs : List Char}
    {kind : TokenKind}
    (hKind : (textLexeme c cs).kind = some kind) :
    kind.isText || kind = .stringTemplateStart ||
      kind = .stringEnd := by
  have hBackslash :
      ∀ found,
        (backslashLexeme cs).kind = some found →
          found.isText ||
            found = .stringTemplateStart := by
    intro found hFound
    unfold backslashLexeme codePointLexeme at hFound
    split at hFound
    case h_2 =>
      split at hFound
      · cases hFound
        rfl
      · split at hFound
        · split at hFound
          · cases hFound
            rfl
          · cases hFound
            rfl
        · cases hFound
          rfl
    all_goals
      cases hFound
      rfl
  unfold textLexeme at hKind
  split at hKind
  · cases hKind
    rfl
  split at hKind
  · rw [hBackslash kind hKind]
    rfl
  · cases hKind
    rfl

/- The kind of the first lexeme fits to what is open. -/
theorem fits_lexeme
    {es : List Enclosure}
    {c : Char}
    {cs : List Char}
    {kind : TokenKind}
    (hKind : (lexeme es c cs).kind = some kind) :
    kind.fits es := by
  have hCode :
      (codeLexeme c cs).kind = some kind →
        (!kind.isForeign &&
          decide (kind ≠ .stringTemplateEnd)) = true := by
    intro hSome
    have hNot := isForeign_codeLexeme hSome
    rw [hNot.1, decide_eq_true hNot.2.1]
    rfl
  match es with
  | [] => exact hCode hKind
  | .text :: _ => exact fits_textLexeme hKind
  | .template (_ + 1) :: _ => exact hCode hKind
  | .template 0 :: _ =>
      unfold lexeme at hKind
      split at hKind
      · rename_i hEq
        cases hEq
      · split at hKind
        · cases hKind
          rfl
        · rename_i hOther
          have hNot := isForeign_codeLexeme hKind
          have hOpen : kind ≠ .closeCurly :=
            fun hClose => hOther (hNot.2.2 hClose)
          unfold TokenKind.fits
          rw [hNot.1, decide_eq_true hOpen]
          rfl
      · rename_i hNone
        exact absurd rfl (hNone _)

------------------------------------------------------------
-- Tokens one after the other
------------------------------------------------------------

namespace Enclosure

/- What is open behind many tokens. -/
def afterAll
    (kinds : List TokenKind)
    (es : List Enclosure) :
    List Enclosure :=
  kinds.foldl (fun opened kind => after kind opened) es

/- Each of the tokens fits to what is open before it. -/
inductive Follows :
    List Enclosure → List TokenKind → Prop where
  | nil {es} : Follows es []
  | cons {es kind kinds}
      (hFits : kind.fits es)
      (hRest : Follows (after kind es) kinds) :
      Follows es (kind :: kinds)

end Enclosure

/- The tokens of a text follow each other, up to its end. -/
theorem follows_tokensFrom
    (p : Position)
    (es : List Enclosure)
    (cs : List Char) :
    ∃ kinds,
      (Lexer.tokensFrom p es cs).map (·.kind) =
          kinds ++ [.eof] ∧
        Enclosure.Follows es kinds := by
  fun_induction Lexer.tokensFrom p es cs with
  | case1 p es => exact ⟨[], rfl, .nil⟩
  | case2 p es c cs piece text stop later hKind ih =>
      dsimp only [later, piece] at ih ⊢
      rw [hKind] at ih ⊢
      exact ih
  | case3 p es c cs piece text stop later kind hKind ih =>
      dsimp only [later, piece] at ih ⊢
      rw [hKind] at ih ⊢
      rcases ih with ⟨kinds, hKinds, hFollows⟩
      refine ⟨kind :: kinds, ?_, .cons (fits_lexeme hKind)
        hFollows⟩
      exact congrArg (List.cons kind) hKinds

------------------------------------------------------------
-- Nested words
------------------------------------------------------------

/- Kinds that neither open nor close anything in code. -/
def TokenKind.isPlain (kind : TokenKind) : Bool :=
  !kind.isForeign &&
    !([TokenKind.stringStart, .stringTemplateEnd, .openCurly,
      .mapStart, .closeCurly].contains kind)

/- Kinds that open what a closing brace closes. -/
def TokenKind.opensBrace (kind : TokenKind) : Bool :=
  kind = .openCurly || kind = .mapStart

/-
  A word of kinds in which everything is closed.  Braces are
  free in code, but have to match in templates.
-/
inductive Nests : Mode → List TokenKind → Prop where
  | nil {mode} : Nests mode []
  | plain {mode kind ks}
      (hCode : mode ≠ .text)
      (hPlain : kind.isPlain)
      (hRest : Nests mode ks) :
      Nests mode (kind :: ks)
  | freeBrace {kind ks}
      (hBrace : kind.opensBrace ∨ kind = .closeCurly)
      (hRest : Nests .code ks) :
      Nests .code (kind :: ks)
  | braces {kind inside ks}
      (hOpen : kind.opensBrace)
      (hInside : Nests .template inside)
      (hRest : Nests .template ks) :
      Nests .template (kind :: inside ++ .closeCurly :: ks)
  | string {mode inside ks}
      (hCode : mode ≠ .text)
      (hInside : Nests .text inside)
      (hRest : Nests mode ks) :
      Nests mode (.stringStart :: inside ++ .stringEnd :: ks)
  | textPart {kind ks}
      (hText : kind.isText)
      (hRest : Nests .text ks) :
      Nests .text (kind :: ks)
  | template {inside ks}
      (hInside : Nests .template inside)
      (hRest : Nests .text ks) :
      Nests .text
        (.stringTemplateStart :: inside ++
          .stringTemplateEnd :: ks)

namespace Enclosure

/-
  What closes the open braces of a template, one after the
  other, then the template itself, and then the others.
-/
def ClosesTemplate
    (others : List TokenKind → Prop) :
    Nat → List TokenKind → Prop
  | 0, ks =>
      ∃ inside rest,
        ks = inside ++ .stringTemplateEnd :: rest ∧
          Nests .template inside ∧ others rest
  | n + 1, ks =>
      ∃ inside rest,
        ks = inside ++ .closeCurly :: rest ∧
          Nests .template inside ∧
            ClosesTemplate others n rest

/- What closes everything that is open. -/
def Closes : List Enclosure → List TokenKind → Prop
  | [], ks => Nests .code ks
  | .text :: es, ks =>
      ∃ inside rest,
        ks = inside ++ .stringEnd :: rest ∧
          Nests .text inside ∧ Closes es rest
  | .template n :: es, ks => ClosesTemplate (Closes es) n ks

/- Everything that is open can be closed. -/
theorem exists_closes (es : List Enclosure) :
    ∃ ks, Closes es ks := by
  induction es with
  | nil => exact ⟨[], .nil⟩
  | cons e es ih =>
      rcases ih with ⟨ks, hCloses⟩
      cases e with
      | text => exact ⟨_, [], ks, rfl, .nil, hCloses⟩
      | template n =>
          have hTemplate :
              ∃ ls, ClosesTemplate (Closes es) n ls := by
            induction n with
            | zero => exact ⟨_, [], ks, rfl, .nil, hCloses⟩
            | succ n ih =>
                rcases ih with ⟨ls, hMore⟩
                exact ⟨_, [], ls, rfl, .nil, hMore⟩
          exact hTemplate

/-
  What may stand before a word in the innermost template may
  stand before what closes it.
-/
theorem ClosesTemplate.prepend
    {others : List TokenKind → Prop}
    {n : Nat}
    {front ks : List TokenKind}
    (hFront :
      ∀ inside,
        Nests .template inside →
          Nests .template (front ++ inside))
    (hCloses : ClosesTemplate others n ks) :
    ClosesTemplate others n (front ++ ks) := by
  cases n with
  | zero =>
      rcases hCloses with ⟨inside, rest, rfl, hInside, hRest⟩
      exact ⟨front ++ inside, rest,
        (List.append_assoc _ _ _).symm,
        hFront inside hInside, hRest⟩
  | succ n =>
      rcases hCloses with ⟨inside, rest, rfl, hInside, hRest⟩
      exact ⟨front ++ inside, rest,
        (List.append_assoc _ _ _).symm,
        hFront inside hInside, hRest⟩

/- The same, in any code. -/
theorem Closes.prepend
    {es : List Enclosure}
    {front ks : List TokenKind}
    (hCode : Mode.ofEnclosures es ≠ .text)
    (hFront :
      ∀ mode inside,
        mode ≠ .text →
          Nests mode inside → Nests mode (front ++ inside))
    (hCloses : Closes es ks) :
    Closes es (front ++ ks) := by
  match es with
  | [] => exact hFront .code ks nofun hCloses
  | .text :: _ => exact absurd rfl hCode
  | .template n :: es =>
      exact ClosesTemplate.prepend (hFront .template · nofun)
        hCloses

/- The same, in a string. -/
theorem Closes.prependText
    {es : List Enclosure}
    {front ks : List TokenKind}
    (hFront :
      ∀ inside,
        Nests .text inside → Nests .text (front ++ inside))
    (hCloses : Closes (.text :: es) ks) :
    Closes (.text :: es) (front ++ ks) := by
  rcases hCloses with ⟨inside, rest, rfl, hInside, hRest⟩
  exact ⟨front ++ inside, rest,
    (List.append_assoc _ _ _).symm, hFront inside hInside,
    hRest⟩

/- A plain token changes nothing that is open. -/
theorem after_of_isPlain
    {kind : TokenKind}
    (hPlain : kind.isPlain)
    (es : List Enclosure) :
    after kind es = es := by
  unfold after
  split <;> first | rfl | cases hPlain

/- Nor does a word. -/
theorem after_ofWord (word : String) (es : List Enclosure) :
    after (.ofWord word) es = es := by
  refine after_of_isPlain ?_ es
  unfold TokenKind.ofWord
  split <;> rfl

/- What fits in code is plain, or opens or closes a brace. -/
theorem plain_of_fits
    {kind : TokenKind}
    {es : List Enclosure}
    (hCode : Mode.ofEnclosures es ≠ .text)
    (hFits : kind.fits es) :
    kind.isPlain ∨ kind = .stringStart ∨
      kind.opensBrace ∨ kind = .closeCurly ∨
        kind = .stringTemplateEnd := by
  have hForeign : kind.isForeign = false := by
    match es with
    | .text :: _ => exact absurd rfl hCode
    | [] | .template 0 :: _ | .template (_ + 1) :: _ =>
        exact (by simpa [TokenKind.fits] using hFits :
          kind.isForeign = false ∧ _).1
  revert hForeign
  cases kind <;> decide

/-
  A brace in code is free, and one in a template stands
  before its match.
-/
theorem Closes.openBrace
    {es : List Enclosure}
    {kind : TokenKind}
    {ks : List TokenKind}
    (hCode : Mode.ofEnclosures es ≠ .text)
    (hOpen : kind.opensBrace)
    (hCloses : Closes (after kind es) ks) :
    Closes es (kind :: ks) := by
  have hKind : kind = .openCurly ∨ kind = .mapStart := by
    simpa [TokenKind.opensBrace] using hOpen
  match es with
  | .text :: _ => exact absurd rfl hCode
  | [] =>
      have hAfter : after kind [] = [] := by
        rcases hKind with rfl | rfl <;> rfl
      rw [hAfter] at hCloses
      exact .freeBrace (.inl hOpen) hCloses
  | .template n :: es =>
      have hAfter :
          after kind (.template n :: es) =
            .template (n + 1) :: es := by
        rcases hKind with rfl | rfl <;> rfl
      rw [hAfter] at hCloses
      rcases hCloses with
        ⟨inside, rest, rfl, hInside, hRest⟩
      have hFront :
          ∀ word,
            Nests .template word →
              Nests .template
                ((kind :: inside ++ [.closeCurly]) ++
                  word) := by
        intro word hWord
        rw [List.append_assoc]
        exact .braces hOpen hInside hWord
      have hMore :=
        ClosesTemplate.prepend hFront hRest
      rw [List.append_assoc] at hMore
      exact hMore

/-
  A token that fits may stand before what closes everything
  behind it.  The cases are the kinds that open or close
  something, each in what it fits to.
-/
theorem Closes.cons
    {es : List Enclosure}
    {kind : TokenKind}
    {ks : List TokenKind}
    (hFits : kind.fits es)
    (hCloses : Closes (after kind es) ks) :
    Closes es (kind :: ks) := by
  by_cases hCode : Mode.ofEnclosures es = .text
  · match es with
    | .text :: es =>
        have hKind :
            kind.isText ∨ kind = .stringTemplateStart ∨
              kind = .stringEnd := by
          simpa [TokenKind.fits, or_assoc] using hFits
        rcases hKind with hText | rfl | rfl
        · have hAfter :
              after kind (.text :: es) = .text :: es := by
            revert hText
            cases kind <;>
              first | exact fun _ => rfl | exact nofun
          rw [hAfter] at hCloses
          have hFront :
              ∀ word,
                Nests .text word →
                  Nests .text ([kind] ++ word) :=
            fun _ => .textPart hText
          exact Closes.prependText hFront hCloses
        · rcases hCloses with
            ⟨inside, rest, rfl, hInside, hRest⟩
          have hFront :
              ∀ word,
                Nests .text word →
                  Nests .text
                    ((.stringTemplateStart :: inside ++
                      [.stringTemplateEnd]) ++ word) := by
            intro word hWord
            rw [List.append_assoc]
            exact .template hInside hWord
          have hMore := Closes.prependText hFront hRest
          rw [List.append_assoc] at hMore
          exact hMore
        · exact ⟨[], ks, rfl, .nil, hCloses⟩
  · rcases plain_of_fits hCode hFits with
      hPlain | rfl | hOpen | rfl | rfl
    · rw [after_of_isPlain hPlain] at hCloses
      have hFront :
          ∀ mode word,
            mode ≠ .text →
              Nests mode word → Nests mode ([kind] ++ word) :=
        fun _ _ hMode => .plain hMode hPlain
      exact Closes.prepend hCode hFront hCloses
    · rcases hCloses with
        ⟨inside, rest, rfl, hInside, hRest⟩
      have hFront :
          ∀ mode word,
            mode ≠ .text →
              Nests mode word →
                Nests mode
                  ((.stringStart :: inside ++ [.stringEnd]) ++
                    word) := by
        intro mode word hMode hWord
        rw [List.append_assoc]
        exact .string hMode hInside hWord
      have hMore := Closes.prepend hCode hFront hRest
      rw [List.append_assoc] at hMore
      exact hMore
    · exact Closes.openBrace hCode hOpen hCloses
    · match es with
      | [] => exact .freeBrace (.inr rfl) hCloses
      | .text :: _ => exact absurd rfl hCode
      | .template 0 :: _ => cases hFits
      | .template (_ + 1) :: _ =>
          exact ⟨[], ks, rfl, .nil, hCloses⟩
    · match es with
      | [] | .template (_ + 1) :: _ => cases hFits
      | .text :: _ => exact absurd rfl hCode
      | .template 0 :: _ => exact ⟨[], ks, rfl, .nil, hCloses⟩

/- Tokens that follow each other begin a closed word. -/
theorem Follows.closes
    {es : List Enclosure}
    {kinds : List TokenKind}
    (hFollows : Follows es kinds) :
    ∃ rest, Closes es (kinds ++ rest) := by
  induction hFollows with
  | @nil es => exact exists_closes es
  | cons hFits _ ih =>
      rcases ih with ⟨rest, hCloses⟩
      exact ⟨rest, hCloses.cons hFits⟩

end Enclosure

end SourceCheck
