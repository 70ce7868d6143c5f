import SourceCheck.Proofs.Lexing.Appending
import SourceCheck.Proofs.Lexing.Respelling
import SourceCheck.Proofs.Resolution.Narrow
import SourceCheck.Proofs.Resolution.Sources
import SourceCheck.Proofs.Syntax.Likeness

/-
  Checking sources whose names are spelled anew.

  The spelling of names makes no difference: with back-ticks
  in front of some of its names, a source is accepted with
  the same tree, types and targets, or it is refused because
  of problems of the same sorts.  Places have 32 bits, which
  have to count all bytes of both spellings.

  Between a source and its new spelling stand the tokens of
  the source with the words of the new spelling.  They are
  read as those of the source, since names are alike, and as
  those of the new spelling, since their words are the same.

  Key definitions include:
    * `retold`
    * `SameVerdicts`
    * `SpellsTheSame`

  Key theorems include:
    * `spellsTheSame_respelled`
-/

namespace SourceCheck

open SourceCheck.Parser
open SourceCheck.Grammar

------------------------------------------------------------
-- Tokens between both spellings
------------------------------------------------------------

section Tokens

variable {chosen : Token → Bool}
variable {t u : Token}
variable {ts us : List Token}

/- A token that has the other one's word, spelled anew. -/
def Token.retold
    (chosen : Token → Bool)
    (t u : Token) :
    Token :=
  ⟨(u.respelled chosen).1, (u.respelled chosen).2, t.span⟩

/- A name behind a back-tick is the same name. -/
theorem Token.name_tick
    {value : String}
    (hParts : ∀ c ∈ value.toList, isWordPart c)
    (span : Span) :
    Token.name ⟨.escapedIdentifier, "\x60" ++ value, span⟩ =
      value := by
  have hNoTick :
      value.toList.dropWhile (· == '\x60') =
        value.toList := by
    refine List.dropWhile_eq_self_iff.2
      fun hLength hTick => ?_
    have hPart := hParts _ (List.getElem_mem hLength)
    rw [beq_iff_eq.1 hTick] at hPart
    cases hPart
  unfold Token.name
  rw [if_pos rfl, String.toList_append]
  change
    String.ofList
      (value.toList.dropWhile (· == '\x60')) = value
  rw [hNoTick, String.ofList_toList]

/- Tokens with the same word are alike if one is retold. -/
theorem alike_retold
    (hWord : t.word = u.word)
    (hParts :
      u.kind.isName → ∀ c ∈ u.name.toList, isWordPart c) :
    t.Alike (t.retold chosen u) := by
  obtain ⟨kind, value, span⟩ := t
  obtain ⟨kind', value', span'⟩ := u
  cases hWord
  unfold Token.retold Token.respelled
  split
  · rename_i hRespelled
    obtain ⟨hName, hOther⟩ :=
      TokenKind.isName_of_isUnescaped
        (Bool.and_eq_true_iff.1 hRespelled).1
    have hPlain {s : Span} :
        Token.name ⟨kind, value, s⟩ = value :=
      if_neg hOther
    have hTold := hParts hName
    rw [hPlain] at hTold
    have hLeft :
        Token.plain ⟨kind, value, span⟩ =
          ⟨.identifier, value, span⟩ := by
      rw [Token.plain_of_isName (t := ⟨kind, value, span⟩)
        hName, hPlain]
    have hRight :
        Token.plain
            ⟨.escapedIdentifier, "\x60" ++ value, span⟩ =
          ⟨.identifier, value, span⟩ := by
      rw [Token.plain_of_isName rfl, Token.name_tick hTold]
    exact hLeft.trans hRight.symm
  · exact .refl _

/- Lists with the same words are alike if one is retold. -/
theorem forall₂_alike_retold
    (hWords : ts.map Token.word = us.map Token.word)
    (hParts :
      ∀ u ∈ us,
        u.kind.isName → ∀ c ∈ u.name.toList, isWordPart c) :
    List.Forall₂ Token.Alike ts
      (List.zipWith (Token.retold chosen) ts us) := by
  induction ts generalizing us with
  | nil => exact .nil
  | cons t ts ih =>
      cases us with
      | nil => cases hWords
      | cons u us =>
          rw [List.forall_mem_cons] at hParts
          obtain ⟨hWord, hLater⟩ := List.cons.inj hWords
          exact .cons (alike_retold hWord hParts.1)
            (ih hLater hParts.2)

/- A list that is retold has the words that are told. -/
theorem words_retold
    (hLength : ts.length = us.length) :
    (List.zipWith (Token.retold chosen) ts us).map
        Token.word =
      us.map (Token.respelled chosen) := by
  induction ts generalizing us with
  | nil =>
      rw [List.eq_nil_of_length_eq_zero hLength.symm]
      rfl
  | cons t ts ih =>
      cases us with
      | nil => cases hLength
      | cons u us =>
          exact congrArg _ (ih (Nat.succ.inj hLength))

/- The order of tokens does not depend on their spelling. -/
theorem TokensInOrder.of_alike
    (hOrder : TokensInOrder ts)
    (hAlike : List.Forall₂ Token.Alike ts us) :
    TokensInOrder us := by
  obtain ⟨hLength, hAt⟩ := List.forall₂_iff_get.1 hAlike
  constructor
  · refine List.pairwise_iff_getElem.2
      fun i j hi hj hLess => ?_
    have hFirst := hLength.trans_gt hi
    have hSecond := hLength.trans_gt hj
    have hBefore := hOrder.stopsBefore hLess hSecond
    have hSpan := (hAt i hFirst hi).span_eq
    have hSpan' := (hAt j hSecond hj).span_eq
    simp only [List.get_eq_getElem] at hSpan hSpan'
    refine ⟨?_, ?_⟩
    · rw [← hSpan]
      exact hBefore.start_lt
    · rw [← hSpan, ← hSpan']
      exact hBefore.stop_le
  · rcases hOrder.ends with
      ⟨front, last, rfl, hLast, hPoint⟩
    have hBack := List.rel_reverse hAlike
    rw [List.reverse_concat] at hBack
    obtain ⟨stop, back, hStop, -, hAll⟩ :=
      List.forall₂_cons_left_iff.1 hBack
    refine ⟨back.reverse, stop,
      List.reverse_eq_cons_iff.1 hAll,
      (hStop.kind_iff rfl).1 hLast, ?_⟩
    rw [← hStop.span_eq]
    exact hPoint

/-
  The tokens of a source in a file, with the words of its
  new spelling.
-/
def retold
    (chosen : Token → Bool)
    (source file : String) :
    List Token :=
  List.zipWith (Token.retold chosen)
    (tokenize source (some file)) (tokenize source none)

theorem alike_retold_source
    (chosen : Token → Bool)
    (source file : String) :
    List.Forall₂ Token.Alike (tokenize source (some file))
      (retold chosen source file) :=
  forall₂_alike_retold (word_tokenize source (some file))
    fun _ hMem hName => isWordPart_of_name hMem hName

theorem words_retold_source
    (chosen : Token → Bool)
    (source file : String)
    (otherFile? : Option String) :
    (retold chosen source file).map Token.word =
      (tokenize (respelled chosen source) otherFile?).map
        Token.word := by
  have hLength :=
    congrArg List.length (word_tokenize source (some file))
  rw [List.length_map, List.length_map] at hLength
  rw [words_tokenize_respelled]
  exact words_retold hLength

end Tokens

------------------------------------------------------------
-- Parsing tokens that are alike
------------------------------------------------------------

/- Nothing is said of the runs of parsers. -/
def ParserProperty.trivial : ParserProperty where
  holds _ _ := True
  ofPure _ := .intro
  ofThrow _ := .intro
  ofBind _ _ := .intro
  ofLook _ := .intro
  ofMove _ := .intro
  ofDeclare _ _ _ _ := .intro
  ofNewScope _ := .intro
  ofRecovering _ _ := .intro

/-
  Both results are the same, or both were refused because of
  problems of the same sorts.
-/
inductive LikeResults
    {α : Type} :
    Except (List Diagnostic) α →
      Except (List Diagnostic) α → Prop where
  | ok (a : α) : LikeResults (.ok a) (.ok a)
  | error {ds es}
      (hNames :
        ds.map (·.problem.name) =
          es.map (·.problem.name)) :
      LikeResults (.error ds) (.error es)

theorem map_name_of_alike
    {ds es : List Diagnostic}
    (hAlike : List.Forall₂ Diagnostic.Alike ds es) :
    ds.map (·.problem.name) = es.map (·.problem.name) := by
  induction hAlike with
  | nil => rfl
  | cons hHead _ ih =>
      rw [List.map_cons, List.map_cons, hHead.name, ih]

/- Runs that end alike say the same of their texts. -/
theorem EndsAlike.likeResults
    {α : Type}
    {ts : List Token}
    {x y : Except Diagnostic α × ParserState}
    (hEnds : EndsAlike Eq ts x y) :
    LikeResults (verdict x) (verdict y) := by
  unfold verdict
  cases hEnds with
  | @ok a _ u v hSame _ hStates =>
      subst hSame
      have hNames := map_name_of_alike hStates.diagnostics
      have hEmpty :
          u.diagnostics.isEmpty =
            v.diagnostics.isEmpty := by
        rw [← List.isEmpty_map (f := (·.problem.name)),
          hNames, List.isEmpty_map]
      dsimp only
      rw [← hEmpty]
      split
      · exact .ok a
      · exact .error hNames
  | error hProblems _ _ hStates =>
      refine .error ?_
      rw [List.map_append, List.map_append,
        map_name_of_alike hStates.diagnostics]
      exact congrArg (_ ++ [·]) hProblems.name

/- Programs are read alike from states that are alike. -/
theorem endsAlike_program
    {s t : ParserState}
    (hAlike : s.Alike t) :
    EndsAlike Eq s.stream.tokens
      ((closed program).outcome s)
      ((closed program).outcome t) := by
  have hNested :
      ParserProperty.trivial.NestedMatches s.stream.tokens
        (nestedWithin (2 * s.stream.ahead.length + 2)) :=
    ParserProperty.nestedMatches_nestedWithin _
  have hEnds :=
    (ParserProperty.matches_programItems hNested s.opened
      t.opened hAlike.opened rfl).ends
  unfold closed
  rw [outcome_bind, outcome_bind, outcome_get, outcome_get]
  dsimp only
  rw [← hAlike.stream.ahead.length_eq, outcome_program,
    outcome_program, hAlike.newScope_eq]
  generalize (programItems _).outcome s.opened = x
    at hEnds ⊢
  generalize (programItems _).outcome t.opened = y
    at hEnds ⊢
  cases hEnds with
  | @ok items _ u v hSame hTokens hStates =>
      subst hSame
      dsimp only
      rw [hStates.symbols]
      refine .ok rfl hTokens (ParserState.Alike.closed ?_)
      exact ⟨hStates.stream, rfl, hStates.scopes,
        hStates.diagnostics⟩
  | error hProblems hOther hTokens hStates =>
      exact .error hProblems hOther hTokens hStates.closed

/- Cursors of tokens that are alike start alike. -/
theorem alike_start
    {ts us : List Token}
    (hOrder : TokensInOrder ts)
    (hAlike : List.Forall₂ Token.Alike ts us)
    (file : String) :
    (ParserState.start (.ofTokens ts) file).Alike
      (.start (.ofTokens us) file) := by
  obtain ⟨hBefore, hAhead, hLast⟩ := ofTokens_eq hOrder
  obtain ⟨hBefore', hAhead', hLast'⟩ :=
    ofTokens_eq (hOrder.of_alike hAlike)
  have hEnds :=
    forall₂_head?_toList (List.rel_reverse hAlike)
  rw [List.head?_reverse, List.head?_reverse, hLast, hLast']
    at hEnds
  refine ⟨⟨?_, ?_, ?_⟩, rfl, rfl, .nil⟩
  · simp only [ParserState.start, hBefore, hBefore']
    exact .nil
  · simp only [ParserState.start, hAhead, hAhead']
    exact hAlike
  · exact (List.forall₂_cons.1 hEnds).1

------------------------------------------------------------
-- Sources in both spellings
------------------------------------------------------------

/-
  Two checks end with the same tree, but for places, or with
  problems of the same sorts in the same order.
-/
inductive SameVerdicts :
    Except (List Diagnostic) Program →
      Except (List Diagnostic) Program → Prop where
  | accepted {a b}
      (hTrees : a.equivalent b = true)
      (hSlots : a.withoutPlaces = b.withoutPlaces) :
      SameVerdicts (.ok a) (.ok b)
  | refused {ds es}
      (hNames :
        ds.map (·.problem.name) =
          es.map (·.problem.name)) :
      SameVerdicts (.error ds) (.error es)

theorem SameChecks.sameVerdicts
    {x y : Except (List Diagnostic) Program}
    (hSame : SameChecks x y) :
    SameVerdicts x y := by
  cases hSame with
  | accepted hTrees hSlots => exact .accepted hTrees hSlots
  | @refused ds es hProblems =>
      have hNames := congrArg (List.map (·.name)) hProblems
      rw [List.map_map, List.map_map] at hNames
      exact .refused hNames

/- The tokens of both are aligned, through those between. -/
def spellings
    (chosen : Token → Bool)
    (source file otherFile : String) :
    Alignment :=
  .ofTokens (retold chosen source file)
    (tokenize (respelled chosen source) (some otherFile))

/- The places in both spellings are in the same order. -/
theorem isMonotone_spellings
    (chosen : Token → Bool)
    (source file otherFile : String) :
    (spellings chosen source file
      otherFile).IsMonotone := by
  have hWords :=
    words_retold_source chosen source file (some otherFile)
  have hLength := congrArg List.length hWords
  rw [List.length_map, List.length_map] at hLength
  have hOrder := tokensInOrder_tokenize source (some file)
  have hAlike := alike_retold_source chosen source file
  exact Alignment.isMonotone_ofTokens
    (hOrder.of_alike hAlike) (tokensInOrder_tokenize _ _)
    hLength

/-
  Two results of the parser are aligned, or problems of the
  same sorts.
-/
inductive SpelledResults (A : Alignment) :
    Except (List Diagnostic) Program →
      Except (List Diagnostic) Program → Prop where
  | ok {a b}
      (hPrograms : A.Programs a b) :
      SpelledResults A (.ok a) (.ok b)
  | error {ds es}
      (hNames :
        ds.map (·.problem.name) =
          es.map (·.problem.name)) :
      SpelledResults A (.error ds) (.error es)

theorem LikeResults.spelled
    {A : Alignment}
    {x y z : Except (List Diagnostic) Program}
    (hLike : LikeResults x y)
    (hSame : SameResults A.Programs y z) :
    SpelledResults A x z := by
  cases hLike with
  | ok a =>
      cases hSame with
      | ok hPrograms => exact .ok hPrograms
  | error hNames =>
      cases hSame with
      | error hProblems _ =>
          have hOther :=
            congrArg (List.map (·.name)) hProblems
          rw [List.map_map, List.map_map] at hOther
          exact .error (hNames.trans hOther)

/-
  The tokens between both spellings are read as the source
  is, and as the new spelling is.
-/
theorem parseProgram_spelled
    (chosen : Token → Bool)
    (source file otherFile : String) :
    SpelledResults
      (spellings chosen source file otherFile)
      (parseProgram source file)
      (parseProgram (respelled chosen source)
        otherFile) := by
  have hOrder := tokensInOrder_tokenize source (some file)
  have hAlike := alike_retold_source chosen source file
  have hStep :=
    Comparison.inStep_ofTokens (hOrder.of_alike hAlike)
      (tokensInOrder_tokenize (respelled chosen source)
        (some otherFile))
      (words_retold_source chosen source file _)
      file otherFile
  have hLike :=
    (endsAlike_program
      (alike_start hOrder hAlike file)).likeResults
  have hSame :=
    (Comparison.closed_program_ends hStep).sameResults
      fun hHolds => hHolds
  exact hLike.spelled hSame

/- Both spellings are the same program. -/
theorem sameVerdicts_parseProgram
    (chosen : Token → Bool)
    (source file otherFile : String) :
    SameVerdicts (parseProgram source file)
      (parseProgram (respelled chosen source)
        otherFile) := by
  have hParsed :=
    parseProgram_spelled chosen source file otherFile
  generalize parseProgram source file = x at hParsed ⊢
  generalize parseProgram _ otherFile = y at hParsed ⊢
  cases hParsed with
  | ok hPrograms =>
      have hSame := hPrograms.same
      exact .accepted hSame.2 hSame.1
  | error hNames => exact .refused hNames

/- Both are the same when they are checked. -/
theorem sameVerdicts_compile
    (chosen : Token → Bool)
    (source : String)
    (library : Library)
    (file otherFile : String) :
    SameVerdicts (compile library source file)
      (compile library (respelled chosen source)
        otherFile) := by
  have hMonotone :=
    isMonotone_spellings chosen source file otherFile
  have hParsed :=
    parseProgram_spelled chosen source file otherFile
  unfold compile
  generalize parseProgram source file = x at hParsed ⊢
  generalize parseProgram _ otherFile = y at hParsed ⊢
  cases hParsed with
  | error hNames => exact .refused hNames
  | ok hPrograms =>
      have hResolved :=
        Alignment.resolveProgram_rel hMonotone library
          hPrograms
      exact (sameChecks_of_resolved hResolved.1
        hResolved.2).sameVerdicts

------------------------------------------------------------
-- Spellings with places of 32 bits
------------------------------------------------------------

/-
  A source and its new spelling: only the chosen names have
  other tokens, both are the same programs, and both are the
  same when they are checked.  Places have 32 bits.
-/
structure SpellsTheSame
    (chosen : Token → Bool)
    (source : String) :
    Prop where
  tokens :
    ∀ file?,
      (tokenize (respelled chosen source) file?).map
          Token.word =
        (tokenize source none).map (Token.respelled chosen)
  parsed :
    ∀ file otherFile,
      SameVerdicts (parseProgramNarrow source file)
        (parseProgramNarrow (respelled chosen source)
          otherFile)
  checked :
    ∀ library file otherFile,
      SameVerdicts (compileNarrow library source file)
        (compileNarrow library (respelled chosen source)
          otherFile)

/- A text with marks is no shorter. -/
theorem utf8Length_le_ticked
    (marks : Nat → Bool)
    (offset : Nat)
    (cs : List Char) :
    utf8Length cs ≤ utf8Length (ticked marks offset cs) := by
  induction cs generalizing offset with
  | nil => exact Nat.le_refl 0
  | cons c cs ih =>
      have hLater := ih (offset + c.utf8Size)
      unfold ticked
      rw [utf8Length_append, utf8Length_cons,
        utf8Length_cons]
      omega

------------------------------------------------------------
-- Definitions that are far apart
------------------------------------------------------------

/-
  Two definitions with empty lines between them.  The second
  one, whose name is given, uses the first one.
-/
def farSource (lines : Nat) (name : String) : String :=
  String.ofList
    ("val x = 1;".toList ++
      (List.replicate lines '\n' ++
        ("val " ++ name ++ " = x;").toList))

/- The second definition has its tokens at a later place. -/
theorem tokenize_farSource
    (n : Nat)
    (name : String)
    (file? : Option String) :
    tokenize (farSource (n + 1) name) file? =
      (tokenize "val x = 1;" file?).dropLast ++
        Lexer.tokens
          ⟨⟨10 + (n + 1), 1 + (n + 1), 1,
              file?.getD Lexer.unnamed⟩,
            [], ("val " ++ name ++ " = x;").toList⟩ := by
  obtain ⟨ts, last, hTokens, hDepth⟩ :
      ∃ ts last,
        tokenize "val x = 1;" file? = ts ++ [last] ∧
          depthAfter 0 ts = some 0 := by
    refine ⟨(tokenize "val x = 1;" file?).dropLast,
      ⟨.eof, "EOF",
        .point ⟨10, 1, 11, file?.getD Lexer.unnamed⟩⟩,
      ?_, ?_⟩
    · cbv
    · cbv
  have hStart :
      ∀ c ∈ ("val " ++ name ++ " = x;").toList.head?,
        isGap c = false := by
    rw [String.toList_append, String.toList_append]
    rintro c hHead
    cases hHead
    rfl
  rw [hTokens, List.dropLast_concat]
  have hLines := tokenize_lines hTokens hDepth hStart n
  rw [Position.afterAll_lines] at hLines
  exact hLines

theorem utf8Length_lines (n : Nat) :
    utf8Length (List.replicate n '\n') = n := by
  induction n with
  | zero => rfl
  | succ n ih =>
      rw [List.replicate_succ, utf8Length_cons, ih]
      exact Nat.add_comm 1 n

/-
  Only the second name stands at its offset, so that it gets
  the only back-tick.
-/
theorem respelled_farSource :
    respelled (fun t => t.value = "y")
        (farSource (4294967276 + 1) "y") =
      farSource (4294967276 + 1) "\x60y" := by
  have hMarks (offset : Nat) :
      isTicked (fun t => t.value = "y")
          (tokenize (farSource (4294967276 + 1) "y") none)
          offset =
        decide (4294967291 = offset) := by
    rw [tokenize_farSource]
    cbv
    cases decide (4294967291 = offset) <;> rfl
  have hFirst : utf8Length "val x = 1;".toList = 10 := by
    decide
  have hLines := utf8Length_lines (4294967276 + 1)
  have hSecond :
      ticked (fun offset => decide (4294967291 = offset))
          (0 + 10 + (4294967276 + 1))
          ("val " ++ "y" ++ " = x;").toList =
        ("val " ++ "\x60y" ++ " = x;").toList := by
    cbv
  unfold respelled
  rw [funext hMarks]
  unfold farSource
  rw [String.toList_ofList, ticked_append, hFirst,
    ticked_append, hLines, hSecond]
  · intro offset _ hLess
    rw [hLines] at hLess
    exact decide_eq_false (by omega)
  · intro offset _ hLess
    rw [hFirst] at hLess
    exact decide_eq_false (by omega)

/- Without back-ticks all offsets have 32 bits. -/
theorem isOk_compileNarrow_far :
    (compileNarrow .empty (farSource (4294967276 + 1) "y")
      "main").isOk = true := by
  unfold compileNarrow parseProgramNarrow tokenizeNarrow
  rw [tokenize_farSource]
  cbv

/-
  With the back-tick, the use of the first definition stands
  at an offset that 32 bits do not hold.
-/
theorem unresolved_parseProgramNarrow_far :
    ∃ p,
      parseProgramNarrow
            (farSource (4294967276 + 1) "\x60y") "main" =
          .ok p ∧
        (resolveProgram .empty p).2.map (·.problem) =
          [.unresolvedReference "x"] := by
  refine ⟨?p, ?_, ?_⟩
  rotate_left
  · unfold parseProgramNarrow tokenizeNarrow
    rw [tokenize_farSource]
    conv => lhs; cbv
  · decide +kernel

theorem isOk_compileNarrow_far_ticked :
    (compileNarrow .empty
      (farSource (4294967276 + 1) "\x60y")
      "main").isOk = false := by
  rcases unresolved_parseProgramNarrow_far with
    ⟨p, hParse, hReports⟩
  unfold compileNarrow
  rw [hParse]
  dsimp only [bind, Except.bind]
  generalize resolveProgram .empty p = r at hReports
  rcases r with ⟨q, _ | ⟨d, ds⟩⟩
  · cases hReports
  · rfl

------------------------------------------------------------
-- Main results
------------------------------------------------------------

/-
  Names do not depend on their spelling, in sources whose new
  spelling has fewer bytes than 32 bits can count.
-/
theorem spellsTheSame_respelled
    {chosen : Token → Bool}
    {source : String}
    (hSize :
      (respelled chosen source).utf8ByteSize <
        2 ^ 32 - 1) :
    SpellsTheSame chosen source := by
  have hShorter : source.utf8ByteSize < 2 ^ 32 - 1 := by
    refine Nat.lt_of_le_of_lt ?_ hSize
    rw [utf8ByteSize_eq, utf8ByteSize_eq, respelled,
      String.toList_ofList]
    exact utf8Length_le_ticked _ 0 _
  constructor
  case tokens => exact words_tokenize_respelled chosen source
  case parsed =>
    intro file otherFile
    rw [parseProgramNarrow_eq hShorter,
      parseProgramNarrow_eq hSize]
    exact sameVerdicts_parseProgram chosen source file
      otherFile
  case checked =>
    intro library file otherFile
    rw [compileNarrow_eq hShorter, compileNarrow_eq hSize]
    exact sameVerdicts_compile chosen source library file
      otherFile

/- A short source. -/
theorem spellsTheSame_respelled_short :
    (respelled (fun _ => true)
          "val x = 1; val y = x;").utf8ByteSize <
        2 ^ 32 - 1 ∧
      SpellsTheSame (fun _ => true)
        "val x = 1; val y = x;" := by
  have hTold :
      respelled (fun _ => true) "val x = 1; val y = x;" =
        "val \x60x = 1; val \x60y = \x60x;" := by
    cbv
  have hSize :
      (respelled (fun _ => true)
          "val x = 1; val y = x;").utf8ByteSize <
        2 ^ 32 - 1 := by
    rw [hTold]
    decide
  exact ⟨hSize, spellsTheSame_respelled hSize⟩

/-
  Where 32 bits do not hold all offsets, a back-tick may move
  the use of a definition to an offset before the definition.
-/
theorem not_spellsTheSame_far :
    ¬ SpellsTheSame (fun t => t.value = "y")
        (farSource (2 ^ 32 - 19) "y") := by
  intro hSame
  have hChecked := hSame.checked .empty "main" "main"
  change
    SameVerdicts
      (compileNarrow .empty
        (farSource (4294967276 + 1) "y") "main")
      (compileNarrow .empty
        (respelled (fun t => t.value = "y")
          (farSource (4294967276 + 1) "y")) "main")
    at hChecked
  rw [respelled_farSource] at hChecked
  have hOk := isOk_compileNarrow_far
  have hRefused := isOk_compileNarrow_far_ticked
  generalize compileNarrow _ _ _ = x at hOk hChecked
  generalize compileNarrow _ _ _ = y at hRefused hChecked
  cases hChecked with
  | accepted _ _ => cases hRefused
  | refused _ => cases hOk

end SourceCheck
