import SourceCheck.Narrow
import SourceCheck.Proofs.Lexing.Division

/-
  Places of 32 bits make no difference to short texts.

  All places of a text are kept as they are if 32 bits can
  count its bytes.  Such a text has the same tokens, and is
  read and checked in the same way.

  The main statement is `compileNarrow_eq`.
-/

namespace SourceCheck

/- Numbers that fit are kept. -/
theorem Position.Fits.narrow_eq
    {p : Position}
    (hFits : p.Fits) :
    p.narrow = p := by
  have hOffset : p.offset < UInt32.size := hFits.offset_lt
  have hLine : p.line < UInt32.size := hFits.line_lt
  have hColumn : p.column < UInt32.size := hFits.column_lt
  unfold Position.narrow
  rw [Nat.mod_eq_of_lt hOffset, Nat.mod_eq_of_lt hLine,
    Nat.mod_eq_of_lt hColumn]

variable {source : String}

/- The tokens of a short text are kept. -/
theorem narrow_of_mem_tokenize
    (hSize : source.utf8ByteSize < 2 ^ 32 - 1)
    {file? : Option String}
    {t : Token}
    (hMember : t ∈ tokenize source file?) :
    t.narrow = t := by
  rcases List.append_of_mem hMember with
    ⟨front, back, hTokens⟩
  rcases exists_standsIn hTokens with
    ⟨before, gap, text, after, hStands⟩
  have hBehind :
      source.toList = before ++ gap ++ (text ++ after) := by
    rw [hStands.source_eq, List.append_assoc]
  have hStart : t.span.start.Fits :=
    hStands.start.fits hBehind hSize
  have hStop : t.span.stop.Fits :=
    hStands.stop.fits hStands.source_eq hSize
  unfold Token.narrow Span.narrow
  rw [hStart.narrow_eq, hStop.narrow_eq]

theorem tokenizeNarrow_eq
    (hSize : source.utf8ByteSize < 2 ^ 32 - 1)
    (file : String) :
    tokenizeNarrow source file =
      tokenize source (some file) := by
  unfold tokenizeNarrow
  conv_rhs => rw [← List.map_id (tokenize source _)]
  exact List.map_congr_left fun _ hMember =>
    narrow_of_mem_tokenize hSize hMember

theorem parseProgramNarrow_eq
    (hSize : source.utf8ByteSize < 2 ^ 32 - 1)
    (file : String) :
    parseProgramNarrow source file =
      parseProgram source file := by
  unfold parseProgramNarrow
  rw [tokenizeNarrow_eq hSize]
  rfl

/- A short text is checked as if there were no limit. -/
theorem compileNarrow_eq
    (hSize : source.utf8ByteSize < 2 ^ 32 - 1)
    (library : Library)
    (file : String) :
    compileNarrow library source file =
      compile library source file := by
  change
    parseProgramNarrow source file >>= _ =
      parseProgram source file >>= _
  exact congrArg (· >>= _) (parseProgramNarrow_eq hSize file)

end SourceCheck
