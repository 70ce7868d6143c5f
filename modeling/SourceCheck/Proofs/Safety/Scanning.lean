import SourceCheck.Proofs.Lexing.Places
import SourceCheck.Proofs.Lexing.Scanner

/-
  Scanning never stops the program.

  The scanner cuts the text at byte offsets, and counts
  lines, columns and open braces.  All offsets that it cuts
  at are those of characters, and in a text that is not too
  long all counts fit into 32 bits.

  Key definitions include:
    * `IsBoundary`
    * `Scanner.Safe`

  The main statement is `Scanner.safe_of_reaches`.
-/

namespace SourceCheck

------------------------------------------------------------
-- Boundaries
------------------------------------------------------------

/- A character starts at the offset, or the text ends. -/
def IsBoundary (source : String) (offset : Nat) : Prop :=
  String.Pos.Raw.IsValid source ⟨offset⟩

/- Texts are cut behind characters. -/
theorem isBoundary_of_append
    {source : String}
    {before after : List Char}
    (hSource : source.toList = before ++ after) :
    IsBoundary source (utf8Length before) := by
  refine String.Pos.Raw.isValid_iff_exists_append.2
    ⟨String.ofList before, String.ofList after, ?_, ?_⟩
  · rw [← String.ofList_append, ← hSource,
      String.ofList_toList]
  · rw [utf8Length_eq_utf8Len, ← String.utf8ByteSize_ofList]
    rfl

------------------------------------------------------------
-- Safe states
------------------------------------------------------------

namespace Scanner

/-
  The rest of the text and the longest match are cut out at
  boundaries.  The place is counted on while the match is
  passed, one character after the other, and a brace may be
  opened.
-/
structure Safe (source : String) (s : Scanner) : Prop where
  start_boundary : IsBoundary source s.position.offset
  remainder_eq :
    slice source s.position.offset source.utf8ByteSize =
      String.ofList s.rest
  exists_match :
    s.rest ≠ [] →
      ∃ n rule,
        longestMatch (rulesFor s.mode) s.rest =
            some (n, rule) ∧
          n ≤ s.rest.length
  stop_boundary :
    ∀ n ≤ s.rest.length,
      IsBoundary source (s.advance n).position.offset
  text_eq :
    ∀ n ≤ s.rest.length,
      slice source s.position.offset
          (s.advance n).position.offset =
        String.ofList (s.rest.take n)
  places_fit :
    ∀ n ≤ s.rest.length, (s.advance n).position.Fits
  braces_lt : ∀ n ∈ s.braces, n.toNat + 1 < 2 ^ 32

/- The scanner stands behind characters of the text. -/
theorem safe_ofLexer
    {source : String}
    {l : Lexer}
    {before : List Char}
    (hSize : source.utf8ByteSize < 2 ^ 32 - 1)
    (hSource : source.toList = before ++ l.rest)
    (hMarks : l.position.Marks before)
    (hBraces :
      ∀ n ∈ l.enclosures.filterMap Enclosure.openBraces?,
        n + l.rest.length ≤ source.toList.length)
    (ts : List Token) :
    (ofLexer l ts).Safe source := by
  -- All that is cut out here stands behind a prefix.
  have hAhead (n : Nat) :
      ((ofLexer l ts).advance n).position.Marks
        (before ++ l.rest.take n) :=
    hMarks.afterAll _
  have hParts (n : Nat) :
      source.toList =
        before ++ l.rest.take n ++ l.rest.drop n := by
    rw [List.append_assoc, List.take_append_drop, hSource]
  constructor
  case start_boundary =>
    change IsBoundary source l.position.offset
    rw [hMarks.offset]
    exact isBoundary_of_append hSource
  case remainder_eq =>
    change slice source l.position.offset _ =
      String.ofList l.rest
    rw [hMarks.offset, utf8ByteSize_eq, hSource]
    exact slice_of_append (by rw [List.append_nil, hSource])
  case exists_match =>
    intro hSome
    rcases List.exists_cons_of_ne_nil hSome with
      ⟨c, cs, hRest⟩
    rcases longestMatch_lexeme l.enclosures c cs with
      ⟨rule, hMatch, -⟩
    rw [← mode_ofLexer l ts, ← hRest] at hMatch
    refine ⟨_, rule, hMatch, ?_⟩
    rw [hRest]
    exact Nat.succ_le_succ (more_lexeme_le _ c cs)
  case stop_boundary =>
    intro n _
    rw [(hAhead n).offset]
    exact isBoundary_of_append (hParts n)
  case text_eq =>
    intro n _
    change slice source l.position.offset _ =
      String.ofList (l.rest.take n)
    rw [(hAhead n).offset, hMarks.offset]
    exact slice_of_append (hParts n)
  case places_fit =>
    exact fun n _ => (hAhead n).fits (hParts n) hSize
  case braces_lt =>
    intro m hMember
    rcases List.mem_map.1 hMember with ⟨n, hCount, rfl⟩
    have hLess := hBraces n hCount
    have hBytes := length_le_utf8Length before
    rw [utf8ByteSize_eq, hSource, utf8Length_append] at hSize
    rw [hSource, List.length_append] at hLess
    have hCount : n + 1 < 2 ^ 32 := by omega
    have hSame : (UInt32.ofNat n).toNat = n :=
      UInt32.toNat_ofNat_of_lt' (Nat.lt_of_succ_lt hCount)
    rw [hSame]
    exact hCount

/-
  All states are safe that the scanner reaches from the start
  of a text of fewer bytes than 32 bits can count.
-/
theorem safe_of_reaches
    {source : String}
    {file? : Option String}
    {s : Scanner}
    (hSize : source.utf8ByteSize < 2 ^ 32 - 1)
    (hReaches : (start source file?).Reaches s) :
    s.Safe source := by
  have hStart :
      start source file? =
        ofLexer (Lexer.start source file?) [] :=
    rfl
  rw [hStart] at hReaches
  rcases hReaches.exists_reads (counted_start source file?)
    with ⟨l, us, rfl, hReads, -⟩
  rcases hReads.exists_rest with ⟨before, hText, hPlace⟩
  refine safe_ofLexer hSize hText ?_ ?_ _
  · rw [hPlace]
    exact (Position.marks_first _).afterAll before
  · intro n hMember
    rw [← Nat.zero_add source.toList.length]
    exact hReads.openBraces_le nofun n hMember

end Scanner

end SourceCheck
