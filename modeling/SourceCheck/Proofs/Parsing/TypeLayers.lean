import SourceCheck.Grammar.TypeExpr
import SourceCheck.Proofs.Parsing.Run

/-
  Written types in layers.

  The parser of types compares powers while it reads.  It
  does the same as a grammar with a layer for each join,
  where a type is a union of intersections of names.  The
  layers are what the proofs about types go by.

  Key definitions include:
    * `Parser.Passes`
    * `Parser.NeverBack`
    * `Grammar.joined`
    * `Grammar.joinedAbove`
    * `Grammar.layeredType`

  Key theorems include:
    * `Parser.outcome_loop`
    * `Grammar.typeExpr_eq_layeredType`
-/

namespace SourceCheck

namespace Parser

variable {α : Type}

------------------------------------------------------------
-- Loops
------------------------------------------------------------

/- Wherever the step gives something, it passes a token. -/
def Passes (step : α → Parser (Option α)) : Prop :=
  ∀ a s b t,
    (step a).outcome s = (.ok (some b), t) → t.left < s.left

/- The parser never gives tokens back. -/
def NeverBack (p : Parser α) : Prop :=
  ∀ s a t, p.outcome s = (.ok a, t) → t.left ≤ s.left

/- Do a step, and go on with what it gives. -/
def stepAnd
    (step : α → Parser (Option α))
    (rest : α → Parser α)
    (a : α) :
    Parser α := do
  match ← step a with
  | none => return a
  | some b => rest b

section Budgets

variable {step : α → Parser (Option α)}
variable {budget other : List Token}
variable {s : ParserState}

/- A budget that is large enough is not used up by a step. -/
theorem outcome_loopWithin
    (hPasses : Passes step)
    (hBudget : s.left ≤ budget.length)
    (a : α) :
    (loopWithin step budget a).outcome s =
      (stepAnd step (loopWithin step budget.tail)
        a).outcome s := by
  unfold stepAnd
  cases budget with
  | cons token budget => rw [loopWithin]; rfl
  | nil =>
      rw [loopWithin, outcome_bind, outcome_bind]
      rcases hStep : (step a).outcome s with
        ⟨_ | _ | b, t⟩
      · rfl
      · rfl
      · have hLess := hPasses a s b t hStep
        exact absurd (Nat.lt_of_lt_of_le hLess hBudget)
          (Nat.not_lt_zero t.left)

/- All budgets that are large enough lead to the same. -/
theorem outcome_loopWithin_congr
    (hPasses : Passes step)
    (hBudget : s.left ≤ budget.length)
    (hOther : s.left ≤ other.length)
    (a : α) :
    (loopWithin step budget a).outcome s =
      (loopWithin step other a).outcome s := by
  induction hLeft : s.left using Nat.strongRecOn
    generalizing a s budget other with
  | ind left ih =>
      rw [outcome_loopWithin hPasses hBudget,
        outcome_loopWithin hPasses hOther]
      unfold stepAnd
      rw [outcome_bind, outcome_bind]
      rcases hStep : (step a).outcome s with
        ⟨_ | _ | b, t⟩
      · rfl
      · rfl
      · have hLess := hPasses a s b t hStep
        have hSmall (ts : List Token) :
            s.left ≤ ts.length →
              t.left ≤ ts.tail.length := by
          rw [List.length_tail]
          omega
        exact ih t.left (hLeft ▸ hLess) (hSmall _ hBudget)
          (hSmall _ hOther) b rfl

/- A loop goes on after a step with whatever is left. -/
theorem outcome_loop
    (hPasses : Passes step)
    (a : α)
    (s : ParserState) :
    (loop step a).outcome s =
      (stepAnd step (loop step) a).outcome s := by
  have hLoop (b : α) (t : ParserState) :
      (loop step b).outcome t =
        (loopWithin step t.stream.ahead b).outcome t :=
    rfl
  rw [hLoop, outcome_loopWithin hPasses (Nat.le_refl _)]
  unfold stepAnd
  rw [outcome_bind, outcome_bind]
  rcases hStep : (step a).outcome s with ⟨_ | _ | b, t⟩
  · rfl
  · rfl
  · have hLess := hPasses a s b t hStep
    dsimp only
    rw [hLoop]
    refine outcome_loopWithin_congr hPasses ?_
      (Nat.le_refl _) b
    rw [List.length_tail]
    exact Nat.le_sub_one_of_lt hLess

end Budgets

end Parser

namespace Grammar

open SourceCheck.Parser

variable {α : Type}

------------------------------------------------------------
-- Layers
------------------------------------------------------------

/- Join one more operand to the type on the left. -/
def joinNext
    (join : TypeJoin)
    (operand : Parser TypeExpr)
    (left : TypeExpr) :
    Parser (Option TypeExpr) := do
  if ← accept join.token then
    return some (join.combine left (← operand))
  else
    return none

/- One operand or more, joined to the left. -/
def joined
    (join : TypeJoin)
    (operand : Parser TypeExpr) :
    Parser TypeExpr := do
  loop (joinNext join operand) (← operand)

/- Operands, joined if the join binds more tightly. -/
def joinedAbove
    (power : Power)
    (join : TypeJoin)
    (operand : Parser TypeExpr) :
    Parser TypeExpr :=
  if power < join.power then
    joined join operand
  else
    operand

------------------------------------------------------------
-- Steps
------------------------------------------------------------

/- The operand, joined to the type on the left. -/
def operandOf
    (join : TypeJoin)
    (operand : Parser TypeExpr)
    (left : TypeExpr) :
    Parser (Option TypeExpr) := do
  return some (join.combine left (← operand))

section Steps

variable {join : TypeJoin}
variable {operand : Parser TypeExpr}
variable {power : Power}
variable {left : TypeExpr}
variable {s t : ParserState}
variable
  {right :
    (join : TypeJoin) → power < join.power → Parser TypeExpr}

theorem TypeJoin.typeJoin?_token (join : TypeJoin) :
    join.token.typeJoin? = some join := by
  cases join <;> rfl

/- Each join has a token of its own. -/
theorem token_of_typeJoin?
    {kind : TokenKind}
    (hJoin : kind.typeJoin? = some join) :
    kind = join.token := by
  unfold TokenKind.typeJoin? at hJoin
  split at hJoin
  · cases hJoin
    rfl
  · cases hJoin
    rfl
  · cases hJoin

theorem outcome_joinNext_of_token
    (hToken : s.token.kind = join.token) :
    (joinNext join operand left).outcome s =
      (operandOf join operand left).outcome s.next := by
  unfold joinNext
  rw [outcome_bind, outcome_accept, if_pos hToken]
  rfl

theorem outcome_joinNext_of_ne
    (hToken : s.token.kind ≠ join.token) :
    (joinNext join operand left).outcome s =
      (.ok none, s) := by
  unfold joinNext
  rw [outcome_bind, outcome_accept, if_neg hToken]
  rfl

theorem outcome_joinAbove_of_token
    (hToken : s.token.kind = join.token)
    (hAbove : power < join.power) :
    (joinAbove power right left).outcome s =
      (operandOf join (right join hAbove) left).outcome
        s.next := by
  unfold joinAbove
  rw [outcome_bind, outcome_current]
  dsimp only
  rw [hToken, TypeJoin.typeJoin?_token]
  dsimp only
  rw [dif_pos hAbove]
  rfl

theorem outcome_joinAbove_of_not
    (hNone :
      ∀ join,
        s.token.kind.typeJoin? = some join →
          ¬ power < join.power) :
    (joinAbove power right left).outcome s =
      (.ok none, s) := by
  unfold joinAbove
  rw [outcome_bind, outcome_current]
  dsimp only
  split
  · rfl
  · rename_i join hJoin
    rw [dif_neg (hNone join hJoin)]
    rfl

theorem neverBack_namedType : NeverBack namedType := by
  intro s x t hRun
  unfold namedType at hRun
  rw [outcome_bind, outcome_checkName] at hRun
  dsimp only at hRun
  split at hRun
  · rw [outcome_bind, outcome_consume] at hRun
    cases hRun
    exact s.left_next_le
  · cases hRun

/- An operand behind a token ends further on. -/
theorem left_lt_of_operandOf
    (hOperand : NeverBack operand)
    (hMore : s.token.kind ≠ .eof)
    {r : Option TypeExpr}
    (hRun :
      (operandOf join operand left).outcome s.next =
        (.ok r, t)) :
    t.left < s.left := by
  rcases exists_of_outcome_bind hRun with
    ⟨x, u, hFirst, hRest⟩
  cases hRest
  exact Nat.lt_of_le_of_lt (hOperand s.next x t hFirst)
    (ParserState.left_next hMore)

theorem token_ne_eof (join : TypeJoin) :
    join.token ≠ .eof := by
  cases join <;> decide

theorem passes_joinNext
    (join : TypeJoin)
    (hOperand : NeverBack operand) :
    Passes (joinNext join operand) := by
  intro left s x t hRun
  by_cases hToken : s.token.kind = join.token
  · rw [outcome_joinNext_of_token hToken] at hRun
    exact left_lt_of_operandOf hOperand
      (hToken ▸ token_ne_eof join) hRun
  · rw [outcome_joinNext_of_ne hToken] at hRun
    cases hRun

theorem passes_joinAbove
    (hRight : ∀ join hAbove, NeverBack (right join hAbove)) :
    Passes (joinAbove power right) := by
  intro left s x t hRun
  by_cases hJoins :
      ∃ join,
        s.token.kind.typeJoin? = some join ∧
          power < join.power
  · rcases hJoins with ⟨join, hJoin, hAbove⟩
    have hToken := token_of_typeJoin? hJoin
    rw [outcome_joinAbove_of_token hToken hAbove] at hRun
    exact left_lt_of_operandOf (hRight join hAbove)
      (hToken ▸ token_ne_eof join) hRun
  · rw [outcome_joinAbove_of_not fun join hJoin hAbove =>
      hJoins ⟨join, hJoin, hAbove⟩] at hRun
    cases hRun

end Steps

------------------------------------------------------------
-- Layers of types
------------------------------------------------------------

/- Nothing is joined where the token asks for nothing. -/
theorem of_joinNext_none
    {join : TypeJoin}
    {operand : Parser TypeExpr}
    {left : TypeExpr}
    {s t : ParserState}
    (hRun :
      (joinNext join operand left).outcome s =
        (.ok none, t)) :
    t = s ∧ s.token.kind ≠ join.token := by
  by_cases hToken : s.token.kind = join.token
  · rw [outcome_joinNext_of_token hToken] at hRun
    rcases exists_of_outcome_bind hRun with ⟨x, u, -, hSome⟩
    cases hSome
  · rw [outcome_joinNext_of_ne hToken] at hRun
    cases hRun
    exact ⟨rfl, hToken⟩

/- Behind joined operands there is no such join. -/
theorem ends_loop_joinNext
    {join : TypeJoin}
    {operand : Parser TypeExpr}
    {left x : TypeExpr}
    {s t : ParserState}
    (hOperand : NeverBack operand)
    (hRun :
      (loop (joinNext join operand) left).outcome s =
        (.ok x, t)) :
    t.left ≤ s.left ∧ t.token.kind ≠ join.token := by
  induction hLeft : s.left using Nat.strongRecOn
    generalizing left s with
  | ind n ih =>
      have hPasses := passes_joinNext join hOperand
      rw [outcome_loop hPasses] at hRun
      rcases exists_of_outcome_bind hRun with
        ⟨r, u, hStep, hRest⟩
      cases r with
      | some y =>
          have hLess := hPasses left s y u hStep
          have hEnds := ih u.left (hLeft ▸ hLess) hRest rfl
          exact ⟨by omega, hEnds.2⟩
      | none =>
          cases hRest
          rcases of_joinNext_none hStep with ⟨rfl, hToken⟩
          exact ⟨Nat.le_of_eq hLeft, hToken⟩

theorem neverBack_joined
    {join : TypeJoin}
    {operand : Parser TypeExpr}
    (hOperand : NeverBack operand) :
    NeverBack (joined join operand) := by
  intro s x t hRun
  rcases exists_of_outcome_bind hRun with
    ⟨left, u, hFirst, hRest⟩
  exact Nat.le_trans
    (ends_loop_joinNext hOperand hRest).1
    (hOperand s left u hFirst)

/- So there is none behind an operand of another join. -/
theorem ends_operandOf_joined
    {join other : TypeJoin}
    {operand : Parser TypeExpr}
    {left : TypeExpr}
    {r : Option TypeExpr}
    {s t : ParserState}
    (hOperand : NeverBack operand)
    (hRun :
      (operandOf other (joined join operand)
        left).outcome s = (.ok r, t)) :
    t.token.kind ≠ join.token := by
  rcases exists_of_outcome_bind hRun with
    ⟨x, u, hJoined, hRest⟩
  cases hRest
  rcases exists_of_outcome_bind hJoined with
    ⟨y, v, -, hLoop⟩
  exact (ends_loop_joinNext hOperand hLoop).2

/- The layers of the joins above the power. -/
def layeredType (power : Power) : Parser TypeExpr :=
  joinedAbove power .union
    (joinedAbove power .intersection namedType)

/- The step of a type, whose operands are types too. -/
def typeStep (power : Power) :
    TypeExpr → Parser (Option TypeExpr) :=
  joinAbove power fun join _ => typeExpr join.power

theorem outcome_typeExpr
    (power : Power)
    (s : ParserState) :
    (typeExpr power).outcome s =
      (namedType >>= loop (typeStep power)).outcome s := by
  rw [typeExpr]
  rfl

section Powers

variable {power : Power}

/- Above intersections there is nothing but names. -/
theorem typeExpr_eq_namedType
    (hTight : ¬ power < .logicalAnd) :
    typeExpr power = namedType := by
  have hNone (s : ParserState) (left : TypeExpr) :
      (typeStep power left).outcome s = (.ok none, s) := by
    refine outcome_joinAbove_of_not fun join _ hAbove =>
      hTight (Nat.lt_of_lt_of_le hAbove ?_)
    cases join <;> decide
  funext s
  refine (outcome_typeExpr power s).trans ?_
  rw [outcome_bind]
  change _ = namedType.outcome s
  rcases namedType.outcome s with ⟨_ | x, t⟩
  · rfl
  · exact outcome_loopWithin_none (hNone t x) _

/- Above unions there are intersections. -/
theorem typeExpr_eq_joined
    (hAbove : power < .logicalAnd)
    (hTight : ¬ power < .logicalOr) :
    typeExpr power = joined .intersection namedType := by
  have hName : typeExpr .logicalAnd = namedType :=
    typeExpr_eq_namedType (by decide)
  have hStep :
      typeStep power = joinNext .intersection namedType := by
    funext left s
    change
      (typeStep power left).outcome s =
        (joinNext .intersection namedType left).outcome s
    by_cases hToken : s.token.kind = .ampersand
    · have hJoin :
          (typeStep power left).outcome s =
            (operandOf .intersection (typeExpr .logicalAnd)
              left).outcome s.next :=
        outcome_joinAbove_of_token hToken hAbove
      rw [outcome_joinNext_of_token hToken, hJoin, hName]
    · rw [outcome_joinNext_of_ne hToken]
      refine outcome_joinAbove_of_not fun join hJoin => ?_
      cases join with
      | union => exact hTight
      | intersection =>
          exact absurd (token_of_typeJoin? hJoin) hToken
  funext s
  refine (outcome_typeExpr power s).trans ?_
  rw [hStep]
  rfl

/- What may be joined to a type never gives tokens back. -/
theorem neverBack_typeExpr (join : TypeJoin) :
    NeverBack (typeExpr join.power) := by
  cases join with
  | union =>
      rw [typeExpr_eq_joined (by decide) (by decide)]
      exact neverBack_joined neverBack_namedType
  | intersection =>
      rw [typeExpr_eq_namedType (by decide)]
      exact neverBack_namedType

theorem passes_typeStep (power : Power) :
    Passes (typeStep power) :=
  passes_joinAbove fun join _ => neverBack_typeExpr join

/- A step of a type joins what its token asks for. -/
theorem outcome_typeStep
    (hBelow : power < .logicalOr)
    (left : TypeExpr)
    (s : ParserState) :
    (typeStep power left).outcome s =
      if s.token.kind = .pipe then
        (joinNext .union (joined .intersection namedType)
          left).outcome s
      else
        (joinNext .intersection namedType left).outcome
          s := by
  have hName : typeExpr .logicalAnd = namedType :=
    typeExpr_eq_namedType (by decide)
  have hOperand :
      typeExpr .logicalOr = joined .intersection namedType :=
    typeExpr_eq_joined (by decide) (by decide)
  have hStep
      (join : TypeJoin)
      (hToken : s.token.kind = join.token)
      (hAbove : power < join.power) :
      (typeStep power left).outcome s =
        (joinNext join (typeExpr join.power) left).outcome
          s := by
    rw [outcome_joinNext_of_token hToken]
    exact outcome_joinAbove_of_token hToken hAbove
  split
  · rename_i hPipe
    rw [← hOperand]
    exact hStep .union hPipe hBelow
  · rename_i hPipe
    rw [← hName]
    by_cases hToken : s.token.kind = .ampersand
    · exact hStep .intersection hToken
        (Nat.lt_trans hBelow (by decide))
    · rw [outcome_joinNext_of_ne hToken]
      refine outcome_joinAbove_of_not fun join hJoin => ?_
      cases join with
      | union => exact absurd (token_of_typeJoin? hJoin) hPipe
      | intersection =>
          exact absurd (token_of_typeJoin? hJoin) hToken

/- A loop stops at once where its step gives nothing. -/
theorem outcome_loop_joinNext_of_ne
    {join : TypeJoin}
    {operand : Parser TypeExpr}
    {left : TypeExpr}
    {s : ParserState}
    (hToken : s.token.kind ≠ join.token) :
    (loop (joinNext join operand) left).outcome s =
      (.ok left, s) :=
  outcome_loopWithin_none (outcome_joinNext_of_ne hToken) _

/-
  Below unions a type is a union of intersections.  Both
  joins are read in one loop; the operand of a union takes
  all the intersections in it, so that behind a union there
  is never an intersection to go on with.
-/
theorem outcome_loop_typeStep
    (hBelow : power < .logicalOr)
    (left : TypeExpr)
    (s : ParserState) :
    (loop (typeStep power) left).outcome s =
      (loop (joinNext .intersection namedType) left >>=
        loop
          (joinNext .union
            (joined .intersection namedType))).outcome s := by
  have hPasses := passes_typeStep power
  have hInner :=
    passes_joinNext .intersection neverBack_namedType
  have hBack : NeverBack (joined .intersection namedType) :=
    neverBack_joined neverBack_namedType
  have hOuter := passes_joinNext .union hBack
  induction hLeft : s.left using Nat.strongRecOn
    generalizing left s with
  | ind n ih =>
      rw [outcome_bind, outcome_loop hPasses]
      unfold stepAnd
      rw [outcome_bind, outcome_typeStep hBelow]
      by_cases hPipe : s.token.kind = .pipe
      case pos =>
        have hOther :
            s.token.kind ≠ TypeJoin.intersection.token := by
          rw [hPipe]
          decide
        rw [if_pos hPipe, outcome_loop_joinNext_of_ne hOther]
        dsimp only
        rw [outcome_loop hOuter]
        unfold stepAnd
        rw [outcome_bind]
        rcases hStep :
            (joinNext .union (joined .intersection namedType)
              left).outcome s with
          ⟨_ | _ | x, t⟩
        · rfl
        · rfl
        · have hLess := hOuter left s x t hStep
          have hEnds : t.token.kind ≠ .ampersand := by
            rw [outcome_joinNext_of_token hPipe] at hStep
            exact ends_operandOf_joined neverBack_namedType
              hStep
          dsimp only
          rw [ih t.left (hLeft ▸ hLess) x t rfl, outcome_bind,
            outcome_loop_joinNext_of_ne hEnds]
      case neg =>
        rw [if_neg hPipe, outcome_loop hInner]
        unfold stepAnd
        rw [outcome_bind]
        rcases hStep :
            (joinNext .intersection namedType left).outcome
              s with
          ⟨_ | _ | x, t⟩
        · rfl
        · rcases of_joinNext_none hStep with ⟨rfl, -⟩
          exact (outcome_loop_joinNext_of_ne hPipe).symm
        · have hLess := hInner left s x t hStep
          dsimp only
          rw [ih t.left (hLeft ▸ hLess) x t rfl, outcome_bind]

end Powers

/- Comparing powers reads types in layers. -/
theorem typeExpr_eq_layeredType (power : Power) :
    typeExpr power = layeredType power := by
  unfold layeredType joinedAbove
  by_cases hBelow : power < TypeJoin.union.power
  case pos =>
    have hAbove : power < TypeJoin.intersection.power :=
      Nat.lt_trans hBelow (by decide)
    rw [if_pos hBelow, if_pos hAbove]
    funext s
    refine (outcome_typeExpr power s).trans ?_
    change
      _ =
        ((namedType >>=
              loop (joinNext .intersection namedType)) >>=
            loop _).outcome s
    rw [bind_assoc, outcome_bind, outcome_bind]
    rcases namedType.outcome s with ⟨_ | x, t⟩
    · rfl
    · exact outcome_loop_typeStep hBelow x t
  case neg =>
    rw [if_neg hBelow]
    by_cases hAbove : power < TypeJoin.intersection.power
    · rw [if_pos hAbove]
      exact typeExpr_eq_joined hAbove hBelow
    · rw [if_neg hAbove]
      exact typeExpr_eq_namedType hAbove

end Grammar

end SourceCheck
