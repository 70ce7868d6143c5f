import SourceCheck.Proofs.Lexing.Reading

/-
  Rules that lexemes are the longest matches of.

  In each mode a lexer may be given by a list of rules.  A
  rule matches some first characters of a text, and says what
  is to be done with them.  The rule with the longest match
  is taken, the first one if there are several.

  Key definitions include:
    * `RuleAction`
    * `Rule`
    * `rulesFor`
    * `longestMatch`
    * `RuleAction.Agrees`

  The main statement, `longestMatch_lexeme`, says that the
  longest match is always the first lexeme of a text.
-/

namespace SourceCheck

------------------------------------------------------------
-- Rules
------------------------------------------------------------

/- What is done with the text that a rule matches. -/
inductive RuleAction where
  | skip
  | emit (kind : TokenKind)
  | word
  | push (kind : TokenKind) (mode : Mode)
  | pop (kind : TokenKind)
  | openBrace (kind : TokenKind)
  | closeBrace
deriving DecidableEq

/-
  A rule: how many characters at the start of a text it
  matches, where zero is no match, and its action.
-/
structure Rule where
  length : List Char → Nat
  action : RuleAction

namespace Rule

/- A fixed word. -/
def literal (text : List Char) (action : RuleAction) : Rule where
  length cs := if text.isPrefixOf cs then text.length else 0
  action := action

/- Blanks. -/
def gap : Rule where
  length cs := countWhile isGap cs
  action := .skip

/- A comment up to the end of its line. -/
def comment : Rule where
  length
    | '/' :: '/' :: cs => countWhile (· != '\n') cs + 2
    | _ => 0
  action := .skip

/- An integer literal. -/
def int : Rule where
  length
    | c :: cs =>
        if c.isDigit then (intLexeme c cs).more + 1 else 0
    | [] => 0
  action := .emit .intLiteral

/- A reserved word or an identifier. -/
def identifier : Rule where
  length
    | c :: cs =>
        if isWordStart c then
          countWhile isWordPart cs + 1
        else
          0
    | [] => 0
  action := .word

/- An identifier behind a back-tick. -/
def escapedIdentifier : Rule where
  length
    | '\x60' :: cs =>
        if countWhile isWordPart cs = 0 then
          0
        else
          countWhile isWordPart cs + 1
    | _ => 0
  action := .emit .escapedIdentifier

/- An escape sequence. -/
def escapeSequence : Rule where
  length
    | '\\' :: cs =>
        if (backslashLexeme cs).kind = some .escapeSequence then
          (backslashLexeme cs).more + 1
        else
          0
    | _ => 0
  action := .emit .escapeSequence

/- Characters that stand for themselves in a string. -/
def stringContent : Rule where
  length cs := countWhile isContentPart cs
  action := .emit .stringContent

/- Any character. -/
def any : Rule where
  length
    | _ :: _ => 1
    | [] => 0
  action := .emit .unexpectedCharacter

end Rule

/- What is done with a symbol: a quote starts a string. -/
def RuleAction.ofSymbol (kind : TokenKind) : RuleAction :=
  if kind = .stringStart then
    .push .stringStart .text
  else
    .emit kind

/- The rule of a symbol of two characters. -/
def doubleRule (x : (Char × Char) × TokenKind) : Rule :=
  .literal [x.1.1, x.1.2] (.ofSymbol x.2)

/- The rule of a symbol of one character. -/
def singleRule (x : Char × TokenKind) : Rule :=
  .literal [x.1] (.ofSymbol x.2)

/- The symbols, the longer ones first. -/
def symbolRules : List Rule :=
  doubleSymbols.map doubleRule ++
    singleSymbols.map singleRule

/- The rules of code. -/
def codeRules : List Rule :=
  [.gap, .comment, .int, .identifier, .escapedIdentifier] ++
    (symbolRules ++ [.any])

/- The rules of strings. -/
def textRules : List Rule :=
  [ .literal ['\\', '\x7b']
      (.push .stringTemplateStart .template),
    .escapeSequence,
    .stringContent,
    .literal ['"'] (.pop .stringEnd),
    .any ]

/- The braces, which templates count. -/
def braceRules : List Rule :=
  [ .literal ['#', '\x7b'] (.openBrace .mapStart),
    .literal ['\x7b'] (.openBrace .openCurly),
    .literal ['\x7d'] .closeBrace ]

/- The rules of templates. -/
def templateRules : List Rule :=
  braceRules ++ codeRules

/- The rules of a mode. -/
def rulesFor : Mode → List Rule
  | .code => codeRules
  | .text => textRules
  | .template => templateRules

------------------------------------------------------------
-- The longest match
------------------------------------------------------------

/- A rule is better than those before if it matches more. -/
def betterMatch
    (cs : List Char)
    (best : Option (Nat × Rule))
    (rule : Rule) :
    Option (Nat × Rule) :=
  if (best.map (·.1)).getD 0 < rule.length cs then
    some (rule.length cs, rule)
  else
    best

/- The longest match, the first one of several. -/
def longestMatch
    (rules : List Rule)
    (cs : List Char) :
    Option (Nat × Rule) :=
  rules.foldl (betterMatch cs) none

/- Rules that match no more leave the best one. -/
theorem foldl_betterMatch
    {cs : List Char}
    {rules : List Rule}
    {best : Option (Nat × Rule)}
    (hLess :
      ∀ r ∈ rules,
        r.length cs ≤ (best.map (·.1)).getD 0) :
    rules.foldl (betterMatch cs) best = best := by
  induction rules with
  | nil => rfl
  | cons r rules ih =>
      have hFirst : betterMatch cs best r = best :=
        if_neg (Nat.not_lt.2 (hLess r List.mem_cons_self))
      rw [List.foldl_cons, hFirst]
      exact ih fun s hMem =>
        hLess s (List.mem_cons_of_mem r hMem)

/- Rules that match nothing do not count. -/
theorem longestMatch_append
    {cs : List Char}
    {front : List Rule}
    (hNone : ∀ r ∈ front, r.length cs = 0)
    (rules : List Rule) :
    longestMatch (front ++ rules) cs =
      longestMatch rules cs := by
  unfold longestMatch
  have hFront :
      front.foldl (betterMatch cs) none = none :=
    foldl_betterMatch fun r hMem =>
      Nat.le_of_eq (hNone r hMem)
  rw [List.foldl_append, hFront]

/-
  A rule that matches is the best if those before it match
  nothing, and those behind it no more.
-/
theorem longestMatch_eq
    {cs : List Char}
    {rules front back : List Rule}
    {rule : Rule}
    (hRules : rules = front ++ rule :: back)
    (hFront : ∀ r ∈ front, r.length cs = 0)
    (hSome : 0 < rule.length cs)
    (hBack : ∀ r ∈ back, r.length cs ≤ rule.length cs) :
    longestMatch rules cs = some (rule.length cs, rule) := by
  rw [hRules, longestMatch_append hFront]
  have hFirst :
      betterMatch cs none rule = some (rule.length cs, rule) :=
    if_pos hSome
  unfold longestMatch
  rw [List.foldl_cons, hFirst]
  exact foldl_betterMatch hBack

/- Later rules can only make the best match longer. -/
theorem le_foldl_betterMatch
    (cs : List Char)
    (rules : List Rule)
    (best : Option (Nat × Rule)) :
    (best.map (·.1)).getD 0 ≤
        ((rules.foldl (betterMatch cs) best).map (·.1)).getD
          0 ∧
      ∀ r ∈ rules,
        r.length cs ≤
          ((rules.foldl (betterMatch cs) best).map (·.1)).getD
            0 := by
  induction rules generalizing best with
  | nil => exact ⟨Nat.le_refl _, nofun⟩
  | cons r rules ih =>
      have hStep :
          (best.map (·.1)).getD 0 ≤
              ((betterMatch cs best r).map (·.1)).getD 0 ∧
            r.length cs ≤
              ((betterMatch cs best r).map (·.1)).getD 0 := by
        unfold betterMatch
        split
        · rename_i hLess
          exact ⟨Nat.le_of_lt hLess, Nat.le_refl _⟩
        · rename_i hLess
          exact ⟨Nat.le_refl _, Nat.le_of_not_lt hLess⟩
      have hLater := ih (betterMatch cs best r)
      rw [List.foldl_cons]
      refine ⟨Nat.le_trans hStep.1 hLater.1, ?_⟩
      intro s hMem
      rcases List.mem_cons.1 hMem with rfl | hMem
      · exact Nat.le_trans hStep.2 hLater.1
      · exact hLater.2 s hMem

/- No rule matches more than the best one. -/
theorem le_longestMatch
    {cs : List Char}
    {rules : List Rule}
    {n : Nat}
    {rule : Rule}
    (hMatch : longestMatch rules cs = some (n, rule)) :
    ∀ r ∈ rules, r.length cs ≤ n := by
  have hLess := (le_foldl_betterMatch cs rules none).2
  unfold longestMatch at hMatch
  rw [hMatch] at hLess
  exact hLess

/- The best rule does match something. -/
theorem pos_of_longestMatch
    {cs : List Char}
    {rules : List Rule}
    {n : Nat}
    {rule : Rule}
    (hMatch : longestMatch rules cs = some (n, rule)) :
    0 < n := by
  have hPos :
      ∀ best : Option (Nat × Rule),
        (∀ b ∈ best, 0 < b.1) →
          ∀ b ∈ rules.foldl (betterMatch cs) best,
            0 < b.1 := by
    clear hMatch
    induction rules with
    | nil => exact fun _ hBest => hBest
    | cons r rules ih =>
        intro best hBest
        refine ih _ ?_
        intro b hMem
        unfold betterMatch at hMem
        split at hMem
        · rename_i hLess
          cases hMem
          exact Nat.zero_lt_of_lt hLess
        · exact hBest b hMem
  exact hPos none nofun _ hMatch

------------------------------------------------------------
-- What a match makes
------------------------------------------------------------

/-
  With the given constructs open, the action makes a token
  of the kind of the text, or none, and changes what is open
  as that token does.
-/
inductive RuleAction.Agrees
    (text : List Char) :
    RuleAction → List Enclosure → Option TokenKind → Prop
    where
  | skip {es} : Agrees text .skip es none
  | emit {kind es}
      (hSame : Enclosure.after kind es = es) :
      Agrees text (.emit kind) es (some kind)
  | word {es} :
      Agrees text .word es
        (some (.ofWord (String.ofList text)))
  | string {es} :
      Agrees text (.push .stringStart .text) es
        (some .stringStart)
  | template {es} :
      Agrees text (.push .stringTemplateStart .template) es
        (some .stringTemplateStart)
  | stringEnd {es} :
      Agrees text (.pop .stringEnd) (.text :: es)
        (some .stringEnd)
  | openBrace {kind n es}
      (hOpen : kind.opensBrace) :
      Agrees text (.openBrace kind) (.template n :: es)
        (some kind)
  | closeBrace {n es} :
      Agrees text .closeBrace (.template (n + 1) :: es)
        (some .closeCurly)
  | templateEnd {es} :
      Agrees text .closeBrace (.template 0 :: es)
        (some .stringTemplateEnd)

------------------------------------------------------------
-- Symbols
------------------------------------------------------------

/- Whether a character begins no symbol. -/
def beginsOther (c : Char) : Bool :=
  isGap c || isWordStart c || c.isDigit || c = '\x60'

/- A fixed word has its first character. -/
theorem length_literal_le
    {c d : Char}
    {cs text : List Char}
    {action : RuleAction}
    (hOther : c ≠ d) :
    (Rule.literal (d :: text) action).length (c :: cs) =
      0 := by
  unfold Rule.literal
  dsimp only
  rw [if_neg]
  intro hPrefix
  rw [List.isPrefixOf_cons_cons, Bool.and_eq_true] at hPrefix
  exact hOther (beq_iff_eq.1 hPrefix.1).symm

/- Where something else begins, no symbol does. -/
theorem length_symbolRules
    {c : Char}
    (hOther : beginsOther c)
    (cs : List Char) :
    ∀ r ∈ symbolRules, r.length (c :: cs) = 0 := by
  have hDouble :
      ∀ x ∈ doubleSymbols, beginsOther x.1.1 = false := by
    decide
  have hSingle :
      ∀ x ∈ singleSymbols, beginsOther x.1 = false := by
    decide
  have hFirst :
      ∀ d, beginsOther d = false → c ≠ d := by
    rintro d hNot rfl
    rw [hOther] at hNot
    cases hNot
  intro r hMem
  rcases List.mem_append.1 hMem with hMem | hMem
  · rcases List.mem_map.1 hMem with ⟨x, hRow, rfl⟩
    exact length_literal_le (hFirst _ (hDouble x hRow))
  · rcases List.mem_map.1 hMem with ⟨x, hRow, rfl⟩
    exact length_literal_le (hFirst _ (hSingle x hRow))

/- A fixed word matches no more than its length. -/
theorem length_literal_le_length
    (text cs : List Char)
    (action : RuleAction) :
    (Rule.literal text action).length cs ≤ text.length := by
  unfold Rule.literal
  dsimp only
  split
  · exact Nat.le_refl _
  · exact Nat.zero_le _

/- A symbol of one character, or any, matches no more. -/
theorem length_le_one
    {rows : List (Char × TokenKind)}
    (cs : List Char) :
    ∀ r ∈ rows.map singleRule ++ [.any],
      r.length cs ≤ 1 := by
  intro r hMem
  rcases List.mem_append.1 hMem with hMem | hMem
  · rcases List.mem_map.1 hMem with ⟨x, -, rfl⟩
    exact length_literal_le_length _ _ _
  · rw [List.mem_singleton.1 hMem]
    cases cs with
    | nil => exact Nat.zero_le 1
    | cons c cs => exact Nat.le_refl 1

/- And no symbol matches more than two. -/
theorem length_le_two
    {doubles : List ((Char × Char) × TokenKind)}
    {singles : List (Char × TokenKind)}
    (cs : List Char) :
    ∀ r ∈ doubles.map doubleRule ++
        (singles.map singleRule ++ [.any]),
      r.length cs ≤ 2 := by
  intro r hMem
  rcases List.mem_append.1 hMem with hMem | hMem
  · rcases List.mem_map.1 hMem with ⟨x, -, rfl⟩
    exact length_literal_le_length _ _ _
  · exact Nat.le_succ_of_le (length_le_one cs r hMem)

/- A symbol of two characters matches both or nothing. -/
theorem length_literal_two
    (a b c : Char)
    (cs : List Char)
    (action : RuleAction) :
    (Rule.literal [a, b] action).length (c :: cs) =
      if a = c ∧ cs.head? = some b then 2 else 0 := by
  cases cs with
  | nil => simp [Rule.literal]
  | cons d ds =>
      unfold Rule.literal
      by_cases hFirst : a = c
      · by_cases hSecond : b = d
        · subst hFirst hSecond
          simp
        · simp [hSecond, Ne.symm hSecond]
      · simp [hFirst]

/- A symbol of one character matches it or nothing. -/
theorem length_literal_one
    (a c : Char)
    (cs : List Char)
    (action : RuleAction) :
    (Rule.literal [a] action).length (c :: cs) =
      if a = c then 1 else 0 := by
  simp [Rule.literal]

/- The rows before the one that is found have other keys. -/
theorem exists_split_of_lookup
    {α β : Type}
    [BEq α]
    [LawfulBEq α]
    {a : α}
    {b : β}
    {rows : List (α × β)}
    (hFound : rows.lookup a = some b) :
    ∃ front back,
      rows = front ++ (a, b) :: back ∧
        ∀ x ∈ front, x.1 ≠ a := by
  rcases List.lookup_eq_some_iff.1 hFound with
    ⟨front, back, hRows, hFront⟩
  refine ⟨front, back, hRows, ?_⟩
  rintro x hMem rfl
  have hOther := hFront x hMem
  rw [bne_self_eq_false] at hOther
  cases hOther

/- A key that is not found is in no row. -/
theorem ne_of_lookup_eq_none
    {α β : Type}
    [BEq α]
    [LawfulBEq α]
    {a : α}
    {rows : List (α × β)}
    (hNone : rows.lookup a = none) :
    ∀ x ∈ rows, x.1 ≠ a := by
  rintro x hMem rfl
  have hOther := List.lookup_eq_none_iff.1 hNone x hMem
  rw [bne_self_eq_false] at hOther
  cases hOther

/-
  The longest symbol is matched, and any character where
  there is none.
-/
theorem longestMatch_symbol (c : Char) (cs : List Char) :
    ∃ kind rule,
      (symbol c cs).kind = some kind ∧
        rule.action = .ofSymbol kind ∧
          longestMatch (symbolRules ++ [.any]) (c :: cs) =
            some ((symbol c cs).more + 1, rule) := by
  unfold symbol
  cases hDouble :
      cs.head?.bind fun d => doubleSymbols.lookup (c, d) with
  | some kind =>
      rcases Option.bind_eq_some_iff.1 hDouble with
        ⟨d, hHead, hFound⟩
      rcases exists_split_of_lookup hFound with
        ⟨front, back, hRows, hFront⟩
      have hRules :
          symbolRules ++ [Rule.any] =
            front.map doubleRule ++
              doubleRule ((c, d), kind) ::
                (back.map doubleRule ++
                  (singleSymbols.map singleRule ++
                    [Rule.any])) := by
        unfold symbolRules
        rw [hRows]
        simp only [List.map_append, List.map_cons,
          List.append_assoc, List.cons_append]
      have hLength :
          (doubleRule ((c, d), kind)).length (c :: cs) = 2 := by
        unfold doubleRule
        rw [length_literal_two, if_pos ⟨rfl, hHead⟩]
      have hBefore :
          ∀ r ∈ front.map doubleRule,
            r.length (c :: cs) = 0 := by
        intro r hMem
        rcases List.mem_map.1 hMem with ⟨x, hRow, rfl⟩
        unfold doubleRule
        rw [length_literal_two, if_neg]
        rintro ⟨hFirst, hSecond⟩
        rw [hHead] at hSecond
        cases hSecond
        exact hFront x hRow (Prod.ext hFirst rfl)
      have hMatch :=
        longestMatch_eq hRules hBefore
          (hLength ▸ Nat.zero_lt_two)
          (hLength.symm ▸ length_le_two (c :: cs))
      rw [hLength] at hMatch
      exact ⟨kind, _, rfl, rfl, hMatch⟩
  | none =>
      have hNone :
          ∀ r ∈ doubleSymbols.map doubleRule,
            r.length (c :: cs) = 0 := by
        intro r hMem
        rcases List.mem_map.1 hMem with ⟨x, hRow, rfl⟩
        unfold doubleRule
        rw [length_literal_two, if_neg]
        rintro ⟨hFirst, hSecond⟩
        rw [hSecond, Option.bind_some] at hDouble
        exact ne_of_lookup_eq_none hDouble x hRow
          (Prod.ext hFirst rfl)
      cases hSingle : singleSymbols.lookup c with
      | some kind =>
          rcases exists_split_of_lookup hSingle with
            ⟨front, back, hRows, hFront⟩
          have hRules :
              symbolRules ++ [Rule.any] =
                (doubleSymbols.map doubleRule ++
                    front.map singleRule) ++
                  singleRule (c, kind) ::
                    (back.map singleRule ++ [Rule.any]) := by
            unfold symbolRules
            rw [hRows]
            simp only [List.map_append, List.map_cons,
              List.append_assoc, List.cons_append]
          have hLength :
              (singleRule (c, kind)).length (c :: cs) = 1 := by
            unfold singleRule
            rw [length_literal_one, if_pos rfl]
          have hBefore :
              ∀ r ∈ doubleSymbols.map doubleRule ++
                  front.map singleRule,
                r.length (c :: cs) = 0 := by
            intro r hMem
            rcases List.mem_append.1 hMem with hMem | hMem
            · exact hNone r hMem
            · rcases List.mem_map.1 hMem with ⟨x, hRow, rfl⟩
              unfold singleRule
              rw [length_literal_one,
                if_neg (hFront x hRow)]
          have hMatch :=
            longestMatch_eq hRules hBefore
              (hLength ▸ Nat.zero_lt_one)
              (hLength.symm ▸ length_le_one (c :: cs))
          rw [hLength] at hMatch
          exact ⟨kind, _, rfl, rfl, hMatch⟩
      | none =>
          have hBefore :
              ∀ r ∈ symbolRules, r.length (c :: cs) = 0 := by
            intro r hMem
            rcases List.mem_append.1 hMem with hMem | hMem
            · exact hNone r hMem
            · rcases List.mem_map.1 hMem with ⟨x, hRow, rfl⟩
              unfold singleRule
              rw [length_literal_one, if_neg]
              exact ne_of_lookup_eq_none hSingle x hRow
          exact ⟨.unexpectedCharacter, .any, rfl, rfl,
            longestMatch_eq rfl hBefore Nat.zero_lt_one
              nofun⟩

------------------------------------------------------------
-- Code
------------------------------------------------------------

theorem length_gap (c : Char) (cs : List Char) :
    Rule.gap.length (c :: cs) =
      if isGap c then countWhile isGap cs + 1 else 0 := by
  unfold Rule.gap countWhile
  dsimp only
  rw [List.takeWhile_cons]
  split <;> rfl

theorem length_comment (c : Char) (cs : List Char) :
    Rule.comment.length (c :: cs) =
      if c = '/' && cs.head? = some '/' then
        countWhile (· != '\n') cs + 1
      else
        0 := by
  unfold Rule.comment
  dsimp only
  split
  · rename_i ds hText
    cases hText
    rfl
  · rename_i hOther
    rw [if_neg]
    intro hBoth
    simp only [Bool.and_eq_true, decide_eq_true_eq] at hBoth
    rcases List.head?_eq_some_iff.1 hBoth.2 with ⟨ds, rfl⟩
    rw [hBoth.1] at hOther
    exact hOther ds rfl

theorem length_int (c : Char) (cs : List Char) :
    Rule.int.length (c :: cs) =
      if c.isDigit then (intLexeme c cs).more + 1 else 0 :=
  rfl

theorem length_identifier (c : Char) (cs : List Char) :
    Rule.identifier.length (c :: cs) =
      if isWordStart c then
        countWhile isWordPart cs + 1
      else
        0 :=
  rfl

theorem length_escapedIdentifier (c : Char) (cs : List Char) :
    Rule.escapedIdentifier.length (c :: cs) =
      if c = '\x60' && countWhile isWordPart cs ≠ 0 then
        countWhile isWordPart cs + 1
      else
        0 := by
  unfold Rule.escapedIdentifier
  dsimp only
  split
  · rename_i ds hText
    cases hText
    by_cases hNone : countWhile isWordPart cs = 0
    · simp [hNone]
    · simp [hNone]
  · rename_i hOther
    rw [if_neg]
    intro hBoth
    simp only [Bool.and_eq_true, decide_eq_true_eq] at hBoth
    rw [hBoth.1] at hOther
    exact hOther cs rfl

/- A blank begins nothing else. -/
theorem not_isGap
    {c : Char}
    (hGap : isGap c) :
    c ≠ '/' ∧ isWordStart c = false ∧ c.isDigit = false ∧
      c ≠ '\x60' := by
  simp only [isGap, Bool.or_eq_true, decide_eq_true_eq]
    at hGap
  rcases hGap with (((rfl | rfl) | rfl) | rfl) | rfl <;>
    decide

/- Digits are before all letters. -/
theorem isAlpha_of_isDigit
    {c : Char}
    (hDigit : c.isDigit) :
    c.isAlpha = false := by
  have hBelow : c.val ≤ 57 := by
    have hBoth :
        (decide (c.val ≥ 48) && decide (c.val ≤ 57)) = true :=
      hDigit
    exact of_decide_eq_true (Bool.and_eq_true_iff.1 hBoth).2
  have hLetter : ∀ n : UInt32, 57 < n → ¬ c.val ≥ n := by
    intro n hAbove hFrom
    exact absurd (UInt32.le_trans hFrom hBelow)
      (UInt32.not_le.2 hAbove)
  have hUpper : c.isUpper = false :=
    decide_eq_false fun hBoth =>
      hLetter 65 (by decide) hBoth.1
  have hLower : c.isLower = false :=
    Bool.and_eq_false_iff.2
      (.inl (decide_eq_false (hLetter 97 (by decide))))
  exact Bool.or_eq_false_iff.2 ⟨hUpper, hLower⟩

/- A word begins with no digit and no back-tick. -/
theorem not_isWordStart
    {c : Char}
    (hWord : isWordStart c) :
    c.isDigit = false ∧ c ≠ '\x60' := by
  constructor
  · refine eq_false_of_ne_true fun hDigit => ?_
    unfold isWordStart at hWord
    rw [isAlpha_of_isDigit hDigit, Bool.false_or] at hWord
    rw [of_decide_eq_true hWord] at hDigit
    revert hDigit
    decide
  · rintro rfl
    revert hWord
    decide

/-
  What is done with a lexeme of code: gaps are left out,
  words are looked up, and the others have one kind.
-/
inductive CodeAction
    (text : List Char) :
    RuleAction → Option TokenKind → Prop
    where
  | skip : CodeAction text .skip none
  | word :
      CodeAction text .word
        (some (.ofWord (String.ofList text)))
  | symbol {kind} :
      CodeAction text (.ofSymbol kind) (some kind)

/-
  A rule of code that alone matches, up to symbols, which
  are no longer or begin with other characters, is the best.
-/
theorem longestMatch_class
    {c : Char}
    {cs : List Char}
    {front back : List Rule}
    {rule : Rule}
    {n : Nat}
    (hRules :
      codeRules =
        front ++ rule :: (back ++ (symbolRules ++ [.any])))
    (hLength : rule.length (c :: cs) = n + 1)
    (hFront : ∀ r ∈ front, r.length (c :: cs) = 0)
    (hBack : ∀ r ∈ back, r.length (c :: cs) = 0)
    (hOther : beginsOther c ∨ 1 ≤ n) :
    longestMatch codeRules (c :: cs) = some (n + 1, rule) := by
  have hSymbols :
      ∀ r ∈ symbolRules ++ [.any],
        r.length (c :: cs) ≤ n + 1 := by
    intro r hMem
    rcases hOther with hOther | hMore
    · rcases List.mem_append.1 hMem with hMem | hMem
      · rw [length_symbolRules hOther cs r hMem]
        exact Nat.zero_le _
      · rw [List.mem_singleton.1 hMem]
        exact Nat.succ_le_succ (Nat.zero_le n)
    · unfold symbolRules at hMem
      rw [List.append_assoc] at hMem
      exact Nat.le_trans (length_le_two (c :: cs) r hMem)
        (Nat.succ_le_succ hMore)
  have hBehind :
      ∀ r ∈ back ++ (symbolRules ++ [.any]),
        r.length (c :: cs) ≤ rule.length (c :: cs) := by
    intro r hMem
    rw [hLength]
    rcases List.mem_append.1 hMem with hMem | hMem
    · rw [hBack r hMem]
      exact Nat.zero_le _
    · exact hSymbols r hMem
  have hMatch :=
    longestMatch_eq hRules hFront
      (hLength ▸ Nat.succ_pos n) hBehind
  rw [hLength] at hMatch
  exact hMatch

/-
  The longest match in code is the first lexeme.  The cases
  are the kinds of lexemes, in the order in which they are
  looked for, which is not that of the rules.
-/
theorem longestMatch_code (c : Char) (cs : List Char) :
    ∃ rule,
      longestMatch codeRules (c :: cs) =
          some ((codeLexeme c cs).more + 1, rule) ∧
        CodeAction (c :: cs.take (codeLexeme c cs).more)
          rule.action (codeLexeme c cs).kind := by
  have hGap := length_gap c cs
  have hComment := length_comment c cs
  have hInt := length_int c cs
  have hWord := length_identifier c cs
  have hEscaped := length_escapedIdentifier c cs
  unfold codeLexeme
  split
  case isTrue hBlank =>
    rw [if_pos hBlank] at hGap
    have hRules :
        codeRules =
          [] ++ Rule.gap ::
            ([Rule.comment, Rule.int, Rule.identifier,
              Rule.escapedIdentifier] ++
                (symbolRules ++ [Rule.any])) :=
      rfl
    refine ⟨.gap, longestMatch_class hRules hGap nofun ?_
      (.inl ?_), .skip⟩
    · simp [hComment, hInt, hWord, hEscaped,
        not_isGap hBlank]
    · simp [beginsOther, hBlank]
  rename_i hBlank
  rw [if_neg hBlank] at hGap
  split
  case isTrue hSlashes =>
    rw [if_pos hSlashes] at hComment
    simp only [Bool.and_eq_true, decide_eq_true_eq]
      at hSlashes
    rcases hSlashes with ⟨rfl, hHead⟩
    rcases List.head?_eq_some_iff.1 hHead with ⟨ds, rfl⟩
    have hRules :
        codeRules =
          [Rule.gap] ++ Rule.comment ::
            ([Rule.int, Rule.identifier, Rule.escapedIdentifier] ++
              (symbolRules ++ [Rule.any])) :=
      rfl
    refine ⟨.comment, longestMatch_class hRules hComment ?_
      ?_ (.inr (Nat.succ_le_succ (Nat.zero_le _))), .skip⟩
    · simp [hGap]
    · simp [hInt, hWord, hEscaped, isWordStart]
  rename_i hSlashes
  rw [if_neg hSlashes] at hComment
  split
  case isTrue hStart =>
    rw [if_pos hStart] at hWord
    have hRules :
        codeRules =
          [Rule.gap, Rule.comment, Rule.int] ++ Rule.identifier ::
            ([Rule.escapedIdentifier] ++
              (symbolRules ++ [Rule.any])) :=
      rfl
    refine ⟨.identifier, longestMatch_class hRules hWord ?_ ?_
      (.inl ?_), ?_⟩
    · simp [hGap, hComment, hInt, not_isWordStart hStart]
    · simp [hEscaped, not_isWordStart hStart]
    · simp [beginsOther, hStart]
    · unfold wordLexeme Lexeme.token
      rw [take_countWhile]
      exact .word
  rename_i hStart
  rw [if_neg hStart] at hWord
  split
  case isTrue hDigit =>
    rw [if_pos hDigit] at hInt
    have hRules :
        codeRules =
          [Rule.gap, Rule.comment] ++ Rule.int ::
            ([Rule.identifier, Rule.escapedIdentifier] ++
              (symbolRules ++ [Rule.any])) :=
      rfl
    refine ⟨.int, longestMatch_class hRules hInt ?_ ?_
      (.inl ?_), ?_⟩
    · simp [hGap, hComment]
    · rw [if_neg] at hEscaped
      · simp [hWord, hEscaped]
      · intro hBoth
        simp only [Bool.and_eq_true, decide_eq_true_eq]
          at hBoth
        rw [hBoth.1] at hDigit
        revert hDigit
        decide
    · simp [beginsOther, hDigit]
    · rw [kind_intLexeme]
      exact @CodeAction.symbol _ .intLiteral
  rename_i hDigit
  rw [if_neg hDigit] at hInt
  split
  case isTrue hTick =>
    rw [if_pos hTick] at hEscaped
    have hRules :
        codeRules =
          [Rule.gap, Rule.comment, Rule.int, Rule.identifier] ++
            Rule.escapedIdentifier ::
              ([] ++ (symbolRules ++ [Rule.any])) :=
      rfl
    simp only [Bool.and_eq_true, decide_eq_true_eq] at hTick
    refine ⟨.escapedIdentifier,
      longestMatch_class hRules hEscaped ?_ nofun
        (.inr (Nat.pos_of_ne_zero hTick.2)), ?_⟩
    · simp [hGap, hComment, hInt, hWord]
    · exact @CodeAction.symbol _ .escapedIdentifier
  rename_i hTick
  rw [if_neg hTick] at hEscaped
  rcases longestMatch_symbol c cs with
    ⟨kind, rule, hKind, hAction, hMatch⟩
  refine ⟨rule, ?_, ?_⟩
  · rw [← hMatch]
    refine longestMatch_append ?_ _
    simp [hGap, hComment, hInt, hWord, hEscaped]
  · rw [hKind, hAction]
    exact .symbol

------------------------------------------------------------
-- Strings
------------------------------------------------------------

/- A backslash begins a template, an escape, or nothing. -/
theorem backslashLexeme_cases (cs : List Char) :
    cs.head? = some '\x7b' ∧
        backslashLexeme cs = .token .stringTemplateStart 1 ∨
      cs.head? ≠ some '\x7b' ∧
        ((∃ more,
            backslashLexeme cs =
              .token .escapeSequence more) ∨
          backslashLexeme cs =
            .token .unexpectedCharacter 0) := by
  unfold backslashLexeme
  split
  case h_1 => exact .inl ⟨rfl, rfl⟩
  case h_2 =>
    refine .inr ⟨by simp, ?_⟩
    unfold codePointLexeme
    split
    · exact .inl ⟨_, rfl⟩
    · split
      · split
        · exact .inl ⟨_, rfl⟩
        · exact .inr rfl
      · exact .inr rfl
  case h_8 hOther _ _ _ _ _ _ =>
    refine .inr ⟨?_, .inr rfl⟩
    intro hHead
    rcases List.head?_eq_some_iff.1 hHead with ⟨ds, rfl⟩
    exact hOther ds rfl
  all_goals exact .inr ⟨by simp, .inl ⟨_, rfl⟩⟩

theorem length_escapeSequence (c : Char) (cs : List Char) :
    Rule.escapeSequence.length (c :: cs) =
      if c = '\\' &&
          (backslashLexeme cs).kind = some .escapeSequence then
        (backslashLexeme cs).more + 1
      else
        0 := by
  unfold Rule.escapeSequence
  dsimp only
  split
  · rename_i ds hText
    cases hText
    simp
  · rename_i hOther
    rw [if_neg]
    intro hBoth
    simp only [Bool.and_eq_true, decide_eq_true_eq] at hBoth
    rw [hBoth.1] at hOther
    exact hOther cs rfl

theorem length_stringContent (c : Char) (cs : List Char) :
    Rule.stringContent.length (c :: cs) =
      if isContentPart c then
        countWhile isContentPart cs + 1
      else
        0 := by
  unfold Rule.stringContent countWhile
  dsimp only
  rw [List.takeWhile_cons]
  split <;> rfl

/- The longest match in a string is the first lexeme. -/
theorem longestMatch_text
    (es : List Enclosure)
    (c : Char)
    (cs : List Char) :
    ∃ rule,
      longestMatch textRules (c :: cs) =
          some ((textLexeme c cs).more + 1, rule) ∧
        rule.action.Agrees
          (c :: cs.take (textLexeme c cs).more)
          (.text :: es) (textLexeme c cs).kind := by
  have hTemplate :=
    length_literal_two '\\' '\x7b' c cs
      (.push .stringTemplateStart .template)
  have hEscape := length_escapeSequence c cs
  have hContent := length_stringContent c cs
  have hQuote :=
    length_literal_one '"' c cs (.pop .stringEnd)
  have hAny : Rule.any.length (c :: cs) = 1 := rfl
  unfold textLexeme longestMatch textRules
  split
  case isTrue hEnd =>
    subst hEnd
    refine ⟨.literal ['"'] (.pop .stringEnd), ?_,
      .stringEnd⟩
    simp [betterMatch, hTemplate, hEscape, hContent, hQuote,
      hAny, isContentPart, Lexeme.token]
  rename_i hEnd
  split
  case isTrue hSlash =>
    subst hSlash
    rcases backslashLexeme_cases cs with
      ⟨hHead, hLexeme⟩ |
        ⟨hHead, ⟨more, hLexeme⟩ | hLexeme⟩
    · refine ⟨.literal ['\\', '\x7b']
        (.push .stringTemplateStart .template), ?_, ?_⟩
      · simp [betterMatch, hTemplate, hEscape, hContent,
          hQuote, hAny, isContentPart, Lexeme.token, hHead,
          hLexeme]
      · rw [hLexeme]
        exact .template
    · refine ⟨.escapeSequence, ?_, ?_⟩
      · simp [betterMatch, hTemplate, hEscape, hContent,
          hQuote, hAny, isContentPart, Lexeme.token, hHead,
          hLexeme]
      · rw [hLexeme]
        exact .emit rfl
    · refine ⟨.any, ?_, ?_⟩
      · simp [betterMatch, hTemplate, hEscape, hContent,
          hQuote, hAny, isContentPart, Lexeme.token, hHead,
          hLexeme]
      · rw [hLexeme]
        exact .emit rfl
  rename_i hSlash
  refine ⟨.stringContent, ?_, .emit rfl⟩
  simp [betterMatch, hTemplate, hEscape, hContent, hQuote,
    hAny, isContentPart, Lexeme.token, hEnd, hSlash,
    Ne.symm hEnd, Ne.symm hSlash]

------------------------------------------------------------
-- Every mode
------------------------------------------------------------

/- A symbol that opens a brace is one. -/
theorem opensBrace_symbol
    {c : Char}
    {cs : List Char}
    {kind : TokenKind}
    (hKind : (symbol c cs).kind = some kind)
    (hOpen : kind.opensBrace) :
    c = '\x7b' ∨ c = '#' ∧ cs.head? = some '\x7b' := by
  have hDouble :
      ∀ x ∈ doubleSymbols,
        x.2.opensBrace → x.1 = ('#', '\x7b') := by
    decide
  have hSingle :
      ∀ x ∈ singleSymbols,
        x.2.opensBrace → x.1 = '\x7b' := by
    decide
  rcases symbol_cases hKind with
    rfl | hRow | ⟨d, hHead, hRow⟩
  · cases hOpen
  · exact .inl (hSingle _ hRow hOpen)
  · cases hDouble _ hRow hOpen
    exact .inr ⟨rfl, hHead⟩

/- And no other lexeme of code opens a brace. -/
theorem opensBrace_codeLexeme
    {c : Char}
    {cs : List Char}
    {kind : TokenKind}
    (hKind : (codeLexeme c cs).kind = some kind)
    (hOpen : kind.opensBrace) :
    c = '\x7b' ∨ c = '#' ∧ cs.head? = some '\x7b' := by
  have hWords :
      ∀ word, (TokenKind.ofWord word).opensBrace = false := by
    intro word
    unfold TokenKind.ofWord
    split <;> rfl
  rcases codeLexeme_cases c cs with
    hGap | ⟨word, hWord⟩ | hInt | hEscaped | hSymbol
  · rw [hGap] at hKind
    cases hKind
  · rw [hWord] at hKind
    cases hKind
    rw [hWords] at hOpen
    cases hOpen
  · rw [hInt] at hKind
    cases hKind
    cases hOpen
  · rw [hEscaped] at hKind
    cases hKind
    cases hOpen
  · rw [hSymbol] at hKind
    exact opensBrace_symbol hKind hOpen

/-
  Where nothing is open, and outside of braces, code only
  opens strings.
-/
theorem CodeAction.agrees
    {c : Char}
    {cs text : List Char}
    {action : RuleAction}
    {es : List Enclosure}
    (hAction :
      CodeAction text action (codeLexeme c cs).kind)
    (hOpen :
      es = [] ∨
        c ≠ '\x7d' ∧ c ≠ '\x7b' ∧
          ¬ (c = '#' ∧ cs.head? = some '\x7b')) :
    action.Agrees text es (codeLexeme c cs).kind := by
  generalize hKind : (codeLexeme c cs).kind = kind?
    at hAction ⊢
  cases hAction with
  | skip => exact .skip
  | word => exact .word
  | @symbol kind =>
      by_cases hString : kind = .stringStart
      · subst hString
        exact .string
      · have hCode := isForeign_codeLexeme hKind
        have hAction : RuleAction.ofSymbol kind = .emit kind :=
          if_neg hString
        rw [hAction]
        refine .emit ?_
        rcases hOpen with rfl | ⟨hClose, hCurly, hMap⟩
        · have hForeign := hCode.1
          revert hForeign hString
          cases kind <;> first | exact fun _ _ => rfl | decide
        · refine Enclosure.after_of_isPlain ?_ es
          have hBrace : kind.opensBrace = false := by
            refine eq_false_of_ne_true fun hOpen => ?_
            rcases opensBrace_codeLexeme hKind hOpen with
              rfl | hBoth
            · exact hCurly rfl
            · exact hMap hBoth
          have hCloseKind : kind ≠ .closeCurly :=
            fun hEq => hClose (hCode.2.2 hEq)
          have hForeign := hCode.1
          have hEnd := hCode.2.1
          revert hString hBrace hCloseKind hForeign hEnd
          cases kind <;> decide

theorem codeLexeme_openCurly (cs : List Char) :
    codeLexeme '\x7b' cs = .token .openCurly 0 := by
  cases cs <;> rfl

theorem codeLexeme_closeCurly (cs : List Char) :
    codeLexeme '\x7d' cs = .token .closeCurly 0 := by
  cases cs <;> rfl

/-
  A brace is the longest match in a template if code has
  nothing longer there.
-/
theorem longestMatch_brace
    {c : Char}
    {cs : List Char}
    {front back : List Rule}
    {rule : Rule}
    {n : Nat}
    (hRules : braceRules = front ++ rule :: back)
    (hFront : ∀ r ∈ front, r.length (c :: cs) = 0)
    (hLength : rule.length (c :: cs) = n + 1)
    (hBack : ∀ r ∈ back, r.length (c :: cs) ≤ n + 1)
    (hCode : (codeLexeme c cs).more = n) :
    longestMatch templateRules (c :: cs) =
      some (n + 1, rule) := by
  have hAll :
      templateRules = front ++ rule :: (back ++ codeRules) := by
    unfold templateRules
    rw [hRules, List.append_assoc]
    rfl
  rcases longestMatch_code c cs with ⟨_, hMatch, -⟩
  have hLess := le_longestMatch hMatch
  rw [hCode] at hLess
  rw [← hLength]
  refine longestMatch_eq hAll hFront ?_ ?_
  · rw [hLength]
    exact Nat.succ_pos n
  · intro r hMem
    rw [hLength]
    rcases List.mem_append.1 hMem with hMem | hMem
    · exact hBack r hMem
    · exact hLess r hMem

/- The longest match in a template is the first lexeme. -/
theorem longestMatch_template
    (n : Nat)
    (es : List Enclosure)
    (c : Char)
    (cs : List Char) :
    ∃ rule,
      longestMatch templateRules (c :: cs) =
          some ((lexeme (.template n :: es) c cs).more + 1,
            rule) ∧
        rule.action.Agrees
          (c :: cs.take (lexeme (.template n :: es) c cs).more)
          (.template n :: es)
          (lexeme (.template n :: es) c cs).kind := by
  have hMap :=
    length_literal_two '#' '\x7b' c cs (.openBrace .mapStart)
  have hOpen :=
    length_literal_one '\x7b' c cs (.openBrace .openCurly)
  have hClose := length_literal_one '\x7d' c cs .closeBrace
  by_cases hHash : c = '#' ∧ cs.head? = some '\x7b'
  · rcases hHash with ⟨rfl, hHead⟩
    rcases List.head?_eq_some_iff.1 hHead with ⟨ds, rfl⟩
    have hSame :
        lexeme (.template n :: es) '#' ('\x7b' :: ds) =
          .token .mapStart 1 := by
      cases n <;> rfl
    have hRules :
        braceRules =
          [] ++ Rule.literal ['#', '\x7b'] (.openBrace .mapStart) ::
            [ Rule.literal ['\x7b'] (.openBrace .openCurly),
              Rule.literal ['\x7d'] .closeBrace ] :=
      rfl
    have hBack :
        ∀ r ∈ [ Rule.literal ['\x7b'] (.openBrace .openCurly),
            .literal ['\x7d'] .closeBrace ],
          r.length ('#' :: '\x7b' :: ds) ≤ 2 := by
      simp [hOpen, hClose]
    rw [if_pos ⟨rfl, rfl⟩] at hMap
    rw [hSame]
    exact ⟨_, longestMatch_brace hRules nofun hMap hBack rfl,
      .openBrace rfl⟩
  rw [if_neg (fun hBoth => hHash ⟨hBoth.1.symm, hBoth.2⟩)]
    at hMap
  by_cases hCurly : c = '\x7b'
  · subst hCurly
    have hSame :
        lexeme (.template n :: es) '\x7b' cs =
          .token .openCurly 0 := by
      cases n <;> exact codeLexeme_openCurly cs
    have hRules :
        braceRules =
          [Rule.literal ['#', '\x7b'] (.openBrace .mapStart)] ++
            Rule.literal ['\x7b'] (.openBrace .openCurly) ::
              [Rule.literal ['\x7d'] .closeBrace] :=
      rfl
    rw [if_pos rfl] at hOpen
    rw [hSame]
    refine ⟨_, longestMatch_brace hRules ?_ hOpen ?_
      (congrArg Lexeme.more (codeLexeme_openCurly cs)),
      .openBrace rfl⟩
    · simp [hMap]
    · simp [hClose]
  by_cases hBrace : c = '\x7d'
  · subst hBrace
    have hRules :
        braceRules =
          [ Rule.literal ['#', '\x7b'] (.openBrace .mapStart),
            Rule.literal ['\x7b'] (.openBrace .openCurly) ] ++
            Rule.literal ['\x7d'] .closeBrace :: [] :=
      rfl
    have hFront :
        ∀ r ∈ [ Rule.literal ['#', '\x7b']
              (.openBrace .mapStart),
            .literal ['\x7b'] (.openBrace .openCurly) ],
          r.length ('\x7d' :: cs) = 0 := by
      simp [hMap, hOpen]
    rw [if_pos rfl] at hClose
    have hMatch :=
      longestMatch_brace hRules hFront hClose
        (List.forall_mem_nil _)
        (congrArg Lexeme.more (codeLexeme_closeCurly cs))
    cases n with
    | zero => exact ⟨_, hMatch, .templateEnd⟩
    | succ n =>
        have hSame :
            lexeme (.template (n + 1) :: es) '\x7d' cs =
              .token .closeCurly 0 :=
          codeLexeme_closeCurly cs
        rw [hSame]
        exact ⟨_, hMatch, .closeBrace⟩
  have hSame :
      lexeme (.template n :: es) c cs = codeLexeme c cs := by
    cases n with
    | zero => exact if_neg hBrace
    | succ n => rfl
  rcases longestMatch_code c cs with ⟨rule, hMatch, hAction⟩
  rw [hSame]
  refine ⟨rule, ?_,
    hAction.agrees (.inr ⟨hBrace, hCurly, hHash⟩)⟩
  rw [← hMatch]
  refine longestMatch_append ?_ codeRules
  unfold braceRules
  simp [hMap, hOpen, hClose, Ne.symm hCurly, Ne.symm hBrace]

/-
  The longest match in every mode is the first lexeme, and
  what is done with it agrees with its kind.
-/
theorem longestMatch_lexeme
    (es : List Enclosure)
    (c : Char)
    (cs : List Char) :
    ∃ rule,
      longestMatch (rulesFor (Mode.ofEnclosures es))
            (c :: cs) =
          some ((lexeme es c cs).more + 1, rule) ∧
        rule.action.Agrees
          (c :: cs.take (lexeme es c cs).more) es
          (lexeme es c cs).kind := by
  match es with
  | [] =>
      rcases longestMatch_code c cs with
        ⟨rule, hMatch, hAction⟩
      exact ⟨rule, hMatch, hAction.agrees (.inl rfl)⟩
  | .text :: es => exact longestMatch_text es c cs
  | .template n :: es => exact longestMatch_template n es c cs

end SourceCheck
