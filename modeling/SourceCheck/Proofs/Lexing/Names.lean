import Mathlib.Data.List.TakeWhile
import SourceCheck.Proofs.Lexing.Reading

/-
  Names are words.

  The name that a token stands for, escaped or not, has only
  letters, digits and underscores in it.

  Key theorems include:
    * `Lexer.Reads.exists_made`
    * `exists_lexeme_of_token`
    * `isWordPart_of_name`
-/

namespace SourceCheck

theorem TokenKind.mem_names_of_isName
    {kind : TokenKind}
    (hName : kind.isName) :
    kind ∈ names :=
  List.contains_iff_mem.1 hName

/- A kind that stands for a name is one of four. -/
theorem TokenKind.eq_of_isName
    {kind : TokenKind}
    (hName : kind.isName) :
    kind = .identifier ∨ kind = .escapedIdentifier ∨
      kind = .kwSet ∨ kind = .kwGet := by
  have hKind := mem_names_of_isName hName
  simpa only [names, List.mem_cons, List.not_mem_nil,
    or_false] using hKind

/- Each token that is read is made of a lexeme. -/
theorem Lexer.Reads.exists_made
    {l l' : Lexer}
    {ts : List Token}
    (hReads : Reads l ts l')
    {t : Token}
    (hMember : t ∈ ts) :
    ∃ es c cs,
      (lexeme es c cs).kind = some t.kind ∧
        t.value =
          String.ofList
            (c :: cs.take (lexeme es c cs).more) := by
  induction hReads with
  | done => cases hMember
  | @next l c cs ts l' hRest _ ih =>
      rcases List.mem_append.1 hMember with hMade | hLater
      · unfold made at hMade
        rcases List.mem_map.1 hMade with ⟨kind, hKind, rfl⟩
        refine ⟨l.enclosures, c, cs,
          Option.mem_toList.1 hKind, ?_⟩
        unfold word
        rw [hRest, List.take_succ_cons]
      · exact ih hLater

/- So is each token of a text but the end. -/
theorem exists_lexeme_of_token
    {source : String}
    {file? : Option String}
    {t : Token}
    (hToken : t ∈ tokenize source file?)
    (hMore : t.kind ≠ .eof) :
    ∃ es c cs,
      (lexeme es c cs).kind = some t.kind ∧
        t.value =
          String.ofList
            (c :: cs.take (lexeme es c cs).more) := by
  rcases Lexer.exists_reads_end
      (Lexer.start source file?) with
    ⟨ts, l, hReads, -, hTokens⟩
  unfold tokenize at hToken
  rw [hTokens] at hToken
  rcases List.mem_append.1 hToken with hFound | hLast
  · exact hReads.exists_made hFound
  · rw [List.mem_singleton.1 hLast] at hMore
    exact absurd rfl hMore

/- Names are not found in the text of strings. -/
theorem isName_textLexeme
    {c : Char}
    {cs : List Char}
    {kind : TokenKind}
    (hKind : (textLexeme c cs).kind = some kind) :
    kind.isName = false := by
  have hFits := fits_textLexeme hKind
  cases kind with
  | identifier => cases hFits
  | escapedIdentifier => cases hFits
  | kwSet => cases hFits
  | kwGet => cases hFits
  | _ => rfl

/- Names are no symbols. -/
theorem isName_symbol
    {c : Char}
    {cs : List Char}
    {kind : TokenKind}
    (hKind : (symbol c cs).kind = some kind) :
    kind.isName = false := by
  have hDouble :
      ∀ x ∈ doubleSymbols, x.2.isName = false := by
    decide
  have hSingle :
      ∀ x ∈ singleSymbols, x.2.isName = false := by
    decide
  rcases symbol_cases hKind with
    rfl | hRow | ⟨d, -, hRow⟩
  · rfl
  · exact hSingle _ hRow
  · exact hDouble _ hRow

/- No word without a back-tick is escaped. -/
theorem ofWord_ne_escaped (word : String) :
    TokenKind.ofWord word ≠ .escapedIdentifier := by
  unfold TokenKind.ofWord
  split <;> exact nofun

/- A name in code is a word, maybe behind a back-tick. -/
theorem codeLexeme_of_isName
    {c : Char}
    {cs : List Char}
    {kind : TokenKind}
    (hKind : (codeLexeme c cs).kind = some kind)
    (hName : kind.isName) :
    (codeLexeme c cs).more = countWhile isWordPart cs ∧
      if kind = .escapedIdentifier then
        c = '\x60'
      else
        isWordStart c := by
  unfold codeLexeme at hKind ⊢
  split at hKind
  · cases hKind
  rename_i hBlank
  rw [if_neg hBlank]
  split at hKind
  · cases hKind
  rename_i hComment
  rw [if_neg hComment]
  split at hKind
  · rename_i hWord
    cases hKind
    rw [if_pos hWord, if_neg (ofWord_ne_escaped _)]
    exact ⟨rfl, hWord⟩
  rename_i hWord
  rw [if_neg hWord]
  split at hKind
  · rw [kind_intLexeme] at hKind
    cases hKind
    cases hName
  rename_i hDigit
  rw [if_neg hDigit]
  split at hKind
  · rename_i hEscaped
    cases hKind
    rw [if_pos hEscaped, if_pos rfl]
    exact ⟨rfl,
      of_decide_eq_true (Bool.and_eq_true_iff.1 hEscaped).1⟩
  · rw [isName_symbol hKind] at hName
    cases hName

/- Outside of strings and at the end of a template, too. -/
theorem lexeme_of_isName
    {es : List Enclosure}
    {c : Char}
    {cs : List Char}
    {kind : TokenKind}
    (hKind : (lexeme es c cs).kind = some kind)
    (hName : kind.isName) :
    lexeme es c cs = codeLexeme c cs := by
  unfold lexeme at hKind ⊢
  split at hKind
  · rw [isName_textLexeme hKind] at hName
    cases hName
  · split at hKind
    · cases hKind
      cases hName
    · rename_i hOpen
      exact if_neg hOpen
  · rfl

theorem isWordPart_of_start
    {c : Char}
    (hStart : isWordStart c) :
    isWordPart c := by
  unfold isWordStart at hStart
  unfold isWordPart Char.isAlphanum
  rcases Bool.or_eq_true_iff.1 hStart with hAlpha | hLow
  · rw [hAlpha]
    rfl
  · rw [hLow, Bool.or_true]

/-
  Whatever token stands for a name, the name has only parts
  of words in it.
-/
theorem isWordPart_of_name
    {source : String}
    {file? : Option String}
    {t : Token}
    (hToken : t ∈ tokenize source file?)
    (hName : t.kind.isName) :
    ∀ c ∈ t.name.toList, isWordPart c := by
  have hMore : t.kind ≠ .eof := by
    intro hEnd
    rw [hEnd] at hName
    cases hName
  rcases exists_lexeme_of_token hToken hMore with
    ⟨es, c, cs, hKind, hValue⟩
  have hCode := lexeme_of_isName hKind hName
  rw [hCode] at hKind hValue
  rcases codeLexeme_of_isName hKind hName with
    ⟨hMore, hFirst⟩
  rw [hMore, take_countWhile] at hValue
  have hRest : ∀ d ∈ cs.takeWhile isWordPart, isWordPart d :=
    fun d hMember => List.mem_takeWhile_imp hMember
  unfold Token.name
  split
  · rename_i hEscaped
    rw [if_pos hEscaped] at hFirst
    rw [hValue, String.toList_ofList, String.toList_ofList,
      hFirst, List.dropWhile_cons_of_pos rfl]
    exact fun d hMember =>
      hRest d ((List.dropWhile_sublist _).mem hMember)
  · rename_i hPlain
    rw [if_neg hPlain] at hFirst
    rw [hValue, String.toList_ofList]
    exact List.forall_mem_cons.2
      ⟨isWordPart_of_start hFirst, hRest⟩

end SourceCheck
