import SourceCheck.Token.Basic

/-
  The first lexeme of a text.

  A lexeme is the longest piece at the start of a text that
  makes a token, or a gap between tokens.  Which pieces there
  are depends on the innermost string or template that is
  open: strings may hold templates, which hold code, which
  may hold strings again.

  Key definitions include:
    * `Enclosure`
    * `Enclosure.after`
    * `Lexeme`
    * `lexeme`

  The main statement, `more_lexeme_le`, says that a lexeme
  is no longer than the text that it begins.
-/

namespace SourceCheck

------------------------------------------------------------
-- Open strings and templates
------------------------------------------------------------

/-
  A string or a template that is open.  A template counts
  the braces that were opened in it and not closed yet.
-/
inductive Enclosure where
  | text
  | template (openBraces : Nat)
deriving DecidableEq

namespace Enclosure

/-
  What is open behind a token, innermost first.  Outside of
  templates braces are not counted.
-/
def after
    (kind : TokenKind)
    (opened : List Enclosure) :
    List Enclosure :=
  match kind, opened with
  | .stringStart, es => .text :: es
  | .stringTemplateStart, es => .template 0 :: es
  | .stringEnd, _ :: es => es
  | .stringTemplateEnd, _ :: es => es
  | .openCurly, .template n :: es => .template (n + 1) :: es
  | .mapStart, .template n :: es => .template (n + 1) :: es
  | .closeCurly, .template (n + 1) :: es => .template n :: es
  | _, es => es

end Enclosure

/- The kind of text that a place lies in. -/
inductive Mode where
  | code
  | text
  | template
deriving DecidableEq

namespace Mode

/- The innermost open construct decides on the mode. -/
def ofEnclosures : List Enclosure → Mode
  | [] => code
  | .text :: _ => text
  | .template _ :: _ => template

/- The name of a mode. -/
def name : Mode → String
  | code => "Default"
  | text => "String"
  | template => "StringTemplate"

end Mode

------------------------------------------------------------
-- Character classes
------------------------------------------------------------

/- A blank between tokens. -/
def isGap (c : Char) : Bool :=
  c = ' ' || c = '\t' || c = '\r' || c = '\n' || c = '\x0c'

/- A character that may begin a word. -/
def isWordStart (c : Char) : Bool :=
  c.isAlpha || c = '_'

/- A character that may go on a word. -/
def isWordPart (c : Char) : Bool :=
  c.isAlphanum || c = '_'

/- A decimal digit or an underscore. -/
def isDecimalPart (c : Char) : Bool :=
  c.isDigit || c = '_'

/- A digit of the radix sixteen. -/
def isHexDigit (c : Char) : Bool :=
  c.isDigit || ('a' ≤ c && c ≤ 'f') || ('A' ≤ c && c ≤ 'F')

/- A digit of the radix sixteen or an underscore. -/
def isHexPart (c : Char) : Bool :=
  isHexDigit c || c = '_'

/- A digit of the radix two or an underscore. -/
def isBinaryPart (c : Char) : Bool :=
  c = '0' || c = '1' || c = '_'

/- A character that stands for itself in a string. -/
def isContentPart (c : Char) : Bool :=
  c != '\\' && c != '"'

------------------------------------------------------------
-- Lexemes
------------------------------------------------------------

/-
  The first lexeme of a text: its kind, which a gap has not,
  and the number of characters behind its first one.
-/
structure Lexeme where
  kind : Option TokenKind
  more : Nat
deriving DecidableEq

namespace Lexeme

/- A token of one character and `more` others. -/
def token (kind : TokenKind) (more : Nat) : Lexeme :=
  ⟨some kind, more⟩

/- A gap of one character and `more` others. -/
def gap (more : Nat) : Lexeme :=
  ⟨none, more⟩

end Lexeme

/- How many characters of a class the text begins with. -/
def countWhile (p : Char → Bool) (cs : List Char) : Nat :=
  (cs.takeWhile p).length

theorem countWhile_le_length
    (p : Char → Bool)
    (cs : List Char) :
    countWhile p cs ≤ cs.length :=
  (List.takeWhile_sublist p).length_le

------------------------------------------------------------
-- Code
------------------------------------------------------------

/- The tokens of two characters that are no words. -/
def doubleSymbols : List ((Char × Char) × TokenKind) :=
  [ (('-', '>'), .arrow),
    (('=', '='), .equals),
    (('!', '='), .notEquals),
    (('<', '='), .lessEquals),
    (('>', '='), .greaterEquals),
    (('+', '='), .plusEquals),
    (('-', '='), .minusEquals),
    (('*', '='), .starEquals),
    (('/', '='), .slashEquals),
    (('#', '\x7b'), .mapStart),
    (('#', '('), .tupleStart),
    (('?', '.'), .questionDot) ]

/- The tokens of one character that are no words. -/
def singleSymbols : List (Char × TokenKind) :=
  [ ('=', .assignment),
    ('<', .less),
    ('>', .greater),
    ('?', .question),
    ('[', .openBracket),
    (']', .closeBracket),
    ('\x7b', .openCurly),
    ('\x7d', .closeCurly),
    ('(', .openParen),
    (')', .closeParen),
    ('|', .pipe),
    ('&', .ampersand),
    ('.', .dot),
    ('+', .plus),
    ('-', .dash),
    ('*', .star),
    ('/', .slash),
    ('%', .percent),
    (';', .semicolon),
    (':', .colon),
    (',', .comma),
    ('"', .stringStart) ]

/- The symbol that a text begins with, the longer first. -/
def symbol (c : Char) (cs : List Char) : Lexeme :=
  match cs.head?.bind fun d => doubleSymbols.lookup (c, d) with
  | some kind => .token kind 1
  | none =>
      .token
        ((singleSymbols.lookup c).getD .unexpectedCharacter)
        0

theorem more_symbol_le (c : Char) (cs : List Char) :
    (symbol c cs).more ≤ cs.length := by
  unfold symbol
  split
  · cases cs with
    | nil => simp_all
    | cons d ds => simp [Lexeme.token]
  · simp [Lexeme.token]

/- A letter for long integers may end a literal. -/
def longMark : List Char → Nat
  | c :: _ => if c = 'l' || c = 'L' then 1 else 0
  | [] => 0

theorem longMark_le_length (cs : List Char) :
    longMark cs ≤ cs.length := by
  cases cs with
  | nil => simp [longMark]
  | cons c cs =>
      simp only [longMark, List.length_cons]
      split <;> omega

/-
  An integer literal with its long mark, whose first
  `digits + 1` characters are its digits.
-/
def intOfDigits (digits : Nat) (cs : List Char) : Lexeme :=
  .token .intLiteral (digits + longMark (cs.drop digits))

theorem more_intOfDigits_le
    {digits : Nat}
    {cs : List Char}
    (h : digits ≤ cs.length) :
    (intOfDigits digits cs).more ≤ cs.length := by
  have hMark := longMark_le_length (cs.drop digits)
  simp only [List.length_drop] at hMark
  simp only [intOfDigits, Lexeme.token]
  omega

/-
  The integer literal that a text begins with.  Its first
  character is a digit; only a zero may name a radix.
-/
def intLexeme (c : Char) (cs : List Char) : Lexeme :=
  if c = '0' then
    match cs with
    | [] => intOfDigits 0 cs
    | r :: ds =>
        if (r = 'x' || r = 'X') &&
            countWhile isHexPart ds ≠ 0 then
          intOfDigits (countWhile isHexPart ds + 1) cs
        else if (r = 'b' || r = 'B') &&
            countWhile isBinaryPart ds ≠ 0 then
          intOfDigits (countWhile isBinaryPart ds + 1) cs
        else
          intOfDigits 0 cs
  else
    intOfDigits (countWhile isDecimalPart cs) cs

theorem more_intLexeme_le (c : Char) (cs : List Char) :
    (intLexeme c cs).more ≤ cs.length := by
  unfold intLexeme
  split
  · cases cs with
    | nil => exact more_intOfDigits_le (Nat.zero_le _)
    | cons r ds =>
        have hHex := countWhile_le_length isHexPart ds
        have hBin := countWhile_le_length isBinaryPart ds
        dsimp only
        split
        · apply more_intOfDigits_le
          simp only [List.length_cons]
          omega
        · split
          · apply more_intOfDigits_le
            simp only [List.length_cons]
            omega
          · exact more_intOfDigits_le (Nat.zero_le _)
  · exact more_intOfDigits_le (countWhile_le_length _ _)

/- The word that a text begins with. -/
def wordLexeme (c : Char) (cs : List Char) : Lexeme :=
  .token
    (.ofWord (String.ofList (c :: cs.takeWhile isWordPart)))
    (countWhile isWordPart cs)

/- The first lexeme of a text outside of strings. -/
def codeLexeme (c : Char) (cs : List Char) : Lexeme :=
  if isGap c then
    .gap (countWhile isGap cs)
  else if c = '/' && cs.head? = some '/' then
    .gap (countWhile (· != '\n') cs)
  else if isWordStart c then
    wordLexeme c cs
  else if c.isDigit then
    intLexeme c cs
  else if c = '\x60' && countWhile isWordPart cs ≠ 0 then
    .token .escapedIdentifier (countWhile isWordPart cs)
  else
    symbol c cs

theorem more_codeLexeme_le (c : Char) (cs : List Char) :
    (codeLexeme c cs).more ≤ cs.length := by
  unfold codeLexeme
  split
  · exact countWhile_le_length _ _
  split
  · exact countWhile_le_length _ _
  split
  · exact countWhile_le_length _ _
  split
  · exact more_intLexeme_le _ _
  split
  · exact countWhile_le_length _ _
  · exact more_symbol_le _ _

------------------------------------------------------------
-- Strings
------------------------------------------------------------

/-
  The escape of a code point, whose backslash and `u` stand
  before the text: four digits, or a run in braces.
-/
def codePointLexeme (cs : List Char) : Lexeme :=
  if countWhile isHexDigit (cs.take 4) = 4 then
    .token .escapeSequence 5
  else
    match cs with
    | '\x7b' :: ds =>
        if (ds.drop (countWhile isWordPart ds)).head? =
            some '\x7d' then
          .token .escapeSequence (countWhile isWordPart ds + 3)
        else
          .token .unexpectedCharacter 0
    | _ => .token .unexpectedCharacter 0

theorem more_codePointLexeme_le (cs : List Char) :
    (codePointLexeme cs).more ≤ cs.length + 1 := by
  unfold codePointLexeme
  split
  · rename_i h
    have hTake := countWhile_le_length isHexDigit (cs.take 4)
    simp only [List.length_take] at hTake
    simp only [Lexeme.token]
    omega
  · split
    · rename_i ds _
      split
      · rename_i h
        have hRun : countWhile isWordPart ds < ds.length := by
          apply Nat.lt_of_not_le
          intro hLong
          simp [List.drop_eq_nil_of_le hLong] at h
        simp only [Lexeme.token, List.length_cons]
        omega
      · simp [Lexeme.token]
    · simp [Lexeme.token]

/- What a backslash in a string begins. -/
def backslashLexeme : List Char → Lexeme
  | '\x7b' :: _ => .token .stringTemplateStart 1
  | 'u' :: cs => codePointLexeme cs
  | 'n' :: _ => .token .escapeSequence 1
  | 't' :: _ => .token .escapeSequence 1
  | 'r' :: _ => .token .escapeSequence 1
  | '"' :: _ => .token .escapeSequence 1
  | '\\' :: _ => .token .escapeSequence 1
  | _ => .token .unexpectedCharacter 0

theorem more_backslashLexeme_le (cs : List Char) :
    (backslashLexeme cs).more ≤ cs.length := by
  unfold backslashLexeme
  split
  case h_2 => exact more_codePointLexeme_le _
  all_goals simp [Lexeme.token]

/- The first lexeme of a text in a string. -/
def textLexeme (c : Char) (cs : List Char) : Lexeme :=
  if c = '"' then
    .token .stringEnd 0
  else if c = '\\' then
    backslashLexeme cs
  else
    .token .stringContent (countWhile isContentPart cs)

theorem more_textLexeme_le (c : Char) (cs : List Char) :
    (textLexeme c cs).more ≤ cs.length := by
  unfold textLexeme
  split
  · simp [Lexeme.token]
  split
  · exact more_backslashLexeme_le _
  · exact countWhile_le_length _ _

------------------------------------------------------------
-- The first lexeme
------------------------------------------------------------

/-
  The first lexeme of a text, given what is open.  A closing
  brace ends a template unless it closes a brace in it.
-/
def lexeme
    (opened : List Enclosure)
    (c : Char)
    (cs : List Char) :
    Lexeme :=
  match opened with
  | .text :: _ => textLexeme c cs
  | .template 0 :: _ =>
      if c = '\x7d' then
        .token .stringTemplateEnd 0
      else
        codeLexeme c cs
  | _ => codeLexeme c cs

/- A lexeme is no longer than its text. -/
theorem more_lexeme_le
    (opened : List Enclosure)
    (c : Char)
    (cs : List Char) :
    (lexeme opened c cs).more ≤ cs.length := by
  unfold lexeme
  split
  · exact more_textLexeme_le _ _
  · split
    · simp [Lexeme.token]
    · exact more_codeLexeme_le _ _
  · exact more_codeLexeme_le _ _

end SourceCheck
