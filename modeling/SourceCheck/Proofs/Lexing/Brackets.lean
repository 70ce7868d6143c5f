import SourceCheck.Proofs.Lexing.Depth

/-
  Tokens that come in pairs.

  Parentheses, braces, strings and templates are opened by
  one token and closed by another.  A run over tokens keeps
  the brackets that are open, and stops where a token closes
  another one than the innermost, or is refused everywhere.

  Key definitions include:
    * `Bracket`
    * `TokenKind.enclose`
    * `bracketsAfter`
    * `Balanced`

  Key theorems include:
    * `depthAfter_of_bracketsAfter`
    * `balanced_of_bracketsAfter`
-/

namespace SourceCheck

------------------------------------------------------------
-- Brackets
------------------------------------------------------------

/- What is opened by one token and closed by another. -/
inductive Bracket where
  | paren
  | curly
  | string
  | template
deriving DecidableEq

namespace TokenKind

/- The bracket that a token opens. -/
def opens? : TokenKind → Option Bracket
  | openParen => some .paren
  | openCurly => some .curly
  | stringStart => some .string
  | stringTemplateStart => some .template
  | _ => none

/- The bracket that a token closes. -/
def closes? : TokenKind → Option Bracket
  | closeParen => some .paren
  | closeCurly => some .curly
  | stringEnd => some .string
  | stringTemplateEnd => some .template
  | _ => none

/- A token of the kind opens or closes a bracket. -/
def isBracket (kind : TokenKind) : Bool :=
  kind.opens?.isSome || kind.closes?.isSome

/- Kinds of tokens that stand in no accepted text. -/
def refused : List TokenKind :=
  [ unexpectedCharacter, mapStart, tupleStart, question,
    openBracket, closeBracket ]

/- Kinds that neither open nor close, and may stand in it. -/
def isSolid (kind : TokenKind) : Bool :=
  !kind.isBracket && kind ≠ eof && !refused.contains kind

/-
  The brackets that are open behind a token, innermost
  first, if the token may follow.
-/
def enclose
    (kind : TokenKind)
    (opened : List Bracket) :
    Option (List Bracket) :=
  match kind.opens?, kind.closes?, opened with
  | some bracket, _, _ => some (bracket :: opened)
  | none, some bracket, inner :: outer =>
      if bracket = inner then some outer else none
  | none, some _, [] => none
  | none, none, _ =>
      if kind.isSolid then some opened else none

theorem enclose_of_opens
    {kind : TokenKind}
    {bracket : Bracket}
    (hOpens : kind.opens? = some bracket)
    (opened : List Bracket) :
    kind.enclose opened = some (bracket :: opened) := by
  unfold enclose
  rw [hOpens]

theorem enclose_of_closes
    {kind : TokenKind}
    {bracket : Bracket}
    (hCloses : kind.closes? = some bracket)
    (opened : List Bracket) :
    kind.enclose (bracket :: opened) = some opened := by
  cases kind <;> cases hCloses <;> rfl

theorem enclose_of_isSolid
    {kind : TokenKind}
    (hSolid : kind.isSolid)
    (opened : List Bracket) :
    kind.enclose opened = some opened := by
  revert hSolid
  cases kind <;> first | exact fun _ => rfl | exact nofun

/- A token that may follow opens, closes, or is solid. -/
theorem enclose_cases
    {kind : TokenKind}
    {opened later : List Bracket}
    (hFollows : kind.enclose opened = some later) :
    (∃ bracket,
        kind.opens? = some bracket ∧
          later = bracket :: opened) ∨
      (∃ bracket,
        kind.closes? = some bracket ∧
          opened = bracket :: later) ∨
        (kind.isSolid ∧ later = opened) := by
  unfold enclose at hFollows
  split at hFollows
  · rename_i bracket hOpens
    cases hFollows
    exact .inl ⟨bracket, hOpens, rfl⟩
  · rename_i hCloses
    split at hFollows
    · rename_i hSame
      cases hFollows
      exact .inr (.inl ⟨_, hCloses, by rw [hSame]⟩)
    · cases hFollows
  · cases hFollows
  · split at hFollows
    · rename_i hSolid
      cases hFollows
      exact .inr (.inr ⟨hSolid, rfl⟩)
    · cases hFollows

/- None that may follow is refused, or the end of the text. -/
theorem not_refused_of_enclose
    {kind : TokenKind}
    {opened later : List Bracket}
    (hFollows : kind.enclose opened = some later) :
    kind ∉ refused ∧ kind ≠ eof := by
  rcases enclose_cases hFollows with
    ⟨bracket, hOpens, -⟩ | ⟨bracket, hCloses, -⟩ | ⟨hSolid, -⟩
  · cases kind <;> cases hOpens <;> decide
  · cases kind <;> cases hCloses <;> decide
  · revert hSolid
    cases kind <;> decide

end TokenKind

------------------------------------------------------------
-- Runs over tokens
------------------------------------------------------------

/- What is open behind several tokens. -/
def bracketsAfter
    (opened : List Bracket)
    (ts : List Token) :
    Option (List Bracket) :=
  ts.foldlM (fun opened t => t.kind.enclose opened) opened

theorem bracketsAfter_append
    (opened : List Bracket)
    (ts us : List Token) :
    bracketsAfter opened (ts ++ us) =
      (bracketsAfter opened ts).bind (bracketsAfter · us) :=
  List.foldlM_append

/- The first of several tokens may follow. -/
theorem enclose_of_bracketsAfter_cons
    {opened later : List Bracket}
    {t : Token}
    {ts : List Token}
    (hRun : bracketsAfter opened (t :: ts) = some later) :
    ∃ next,
      t.kind.enclose opened = some next ∧
        bracketsAfter next ts = some later := by
  unfold bracketsAfter at hRun
  rw [List.foldlM_cons] at hRun
  exact Option.bind_eq_some_iff.1 hRun

/- All of them may stand in an accepted text. -/
theorem not_refused_of_bracketsAfter
    {opened later : List Bracket}
    {ts : List Token}
    (hRun : bracketsAfter opened ts = some later)
    {t : Token}
    (hMember : t ∈ ts) :
    t.kind ∉ TokenKind.refused ∧ t.kind ≠ .eof := by
  induction ts generalizing opened with
  | nil => cases hMember
  | cons u ts ih =>
      rcases enclose_of_bracketsAfter_cons hRun with
        ⟨next, hFollows, hRest⟩
      rcases List.mem_cons.1 hMember with rfl | hLater
      · exact TokenKind.not_refused_of_enclose hFollows
      · exact ih hRest hLater

------------------------------------------------------------
-- Depths
------------------------------------------------------------

/- How many of the brackets are strings or templates. -/
def Bracket.depth (opened : List Bracket) : Nat :=
  (opened.filter
    fun b => b = .string || b = .template).length

theorem deepen_of_enclose
    {kind : TokenKind}
    {opened later : List Bracket}
    (hFollows : kind.enclose opened = some later) :
    kind.deepen (Bracket.depth opened) =
      some (Bracket.depth later) := by
  rcases TokenKind.enclose_cases hFollows with
    ⟨bracket, hOpens, rfl⟩ | ⟨bracket, hCloses, rfl⟩ |
      ⟨hSolid, rfl⟩
  · cases kind <;> cases hOpens <;> rfl
  · cases kind <;> cases hCloses <;> rfl
  · revert hSolid
    cases kind <;> first | exact fun _ => rfl | exact nofun

/- The depth is known where the brackets are. -/
theorem depthAfter_of_bracketsAfter
    {opened later : List Bracket}
    {ts : List Token}
    (hRun : bracketsAfter opened ts = some later) :
    depthAfter (Bracket.depth opened) ts =
      some (Bracket.depth later) := by
  induction ts generalizing opened with
  | nil =>
      cases hRun
      rfl
  | cons t ts ih =>
      rcases enclose_of_bracketsAfter_cons hRun with
        ⟨next, hFollows, hRest⟩
      rw [depthAfter_cons, deepen_of_enclose hFollows]
      exact ih hRest

------------------------------------------------------------
-- Balanced words
------------------------------------------------------------

/- Each bracket is closed, and all that it holds before. -/
inductive Balanced : List TokenKind → Prop where
  | nil : Balanced []
  | enclosed {first inside last rest bracket}
      (hOpens : TokenKind.opens? first = some bracket)
      (hInside : Balanced inside)
      (hCloses : TokenKind.closes? last = some bracket)
      (hRest : Balanced rest) :
      Balanced (first :: inside ++ last :: rest)

/- A word closes the brackets, and is balanced in between. -/
def Balanced.Closes : List Bracket → List TokenKind → Prop
  | [], kinds => Balanced kinds
  | bracket :: outer, kinds =>
      ∃ inside last rest,
        kinds = inside ++ last :: rest ∧
          Balanced inside ∧
            TokenKind.closes? last = some bracket ∧
              Closes outer rest

/- The brackets of a run close what was open before it. -/
theorem Balanced.closes_of_bracketsAfter
    {opened : List Bracket}
    {ts : List Token}
    (hRun : bracketsAfter opened ts = some []) :
    Closes opened
      ((ts.map (·.kind)).filter TokenKind.isBracket) := by
  induction ts generalizing opened with
  | nil =>
      cases hRun
      exact .nil
  | cons t ts ih =>
      rcases enclose_of_bracketsAfter_cons hRun with
        ⟨next, hFollows, hRest⟩
      have hCloses := ih hRest
      rw [List.map_cons]
      rcases TokenKind.enclose_cases hFollows with
        ⟨bracket, hOpens, rfl⟩ | ⟨bracket, hEnds, rfl⟩ |
          ⟨hSolid, rfl⟩
      · rw [List.filter_cons_of_pos
          (by unfold TokenKind.isBracket; rw [hOpens]; rfl)]
        rcases hCloses with
          ⟨inside, last, rest, hKinds, hInside, hEnds, hOuter⟩
        rw [hKinds]
        -- The new bracket goes to the front of what the next
        -- outer one holds.
        cases opened with
        | nil => exact .enclosed hOpens hInside hEnds hOuter
        | cons inner outer =>
            rcases hOuter with
              ⟨more, stop, others, rfl, hMore, hStop, hAll⟩
            refine ⟨t.kind :: inside ++ last :: more, stop,
              others, ?_, ?_, hStop, hAll⟩
            · simp only [List.cons_append, List.append_assoc]
            · exact .enclosed hOpens hInside hEnds hMore
      · rw [List.filter_cons_of_pos (by
          unfold TokenKind.isBracket
          rw [hEnds]
          exact Bool.or_true _)]
        exact ⟨[], t.kind, _, rfl, .nil, hEnds, hCloses⟩
      · rw [List.filter_cons_of_neg]
        · exact hCloses
        · intro hBracket
          unfold TokenKind.isSolid at hSolid
          rw [hBracket] at hSolid
          cases hSolid

/- The brackets of a run that leaves none open. -/
theorem balanced_of_bracketsAfter
    {ts : List Token}
    (hRun : bracketsAfter [] ts = some []) :
    Balanced
      ((ts.map (·.kind)).filter TokenKind.isBracket) :=
  Balanced.closes_of_bracketsAfter hRun

end SourceCheck
