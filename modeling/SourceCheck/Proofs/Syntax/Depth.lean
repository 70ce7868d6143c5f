import SourceCheck.Proofs.Syntax.Ties

/-
  The depth of nesting is no limit.

  Parsers for what is nested within a depth are made from
  parsers for what is nested more deeply.  These are never
  run where the depth is greater than twice the number of
  tokens that are left: whatever they do, even if they would
  never end, runs are the same.

  Key definitions include:
    * `Grammar.nestedFrom`
    * `ParserRelation.sameOutcome`

  The main statement is `outcome_program_nestedFrom`.
-/

namespace SourceCheck

open SourceCheck.Parser
open SourceCheck.Grammar

------------------------------------------------------------
-- Depths
------------------------------------------------------------

/-
  Parsers of expressions and blocks that are nested within a
  depth, and those for all that is nested more deeply.
-/
def Grammar.nestedFrom (deepest : Nested) : Nat → Nested
  | 0 => deepest
  | depth + 1 =>
      { expression := fun power =>
          expression (nestedFrom deepest depth) power
        block := fun start =>
          block (nestedFrom deepest depth) start }

/- Depths add up. -/
theorem nestedFrom_add
    (deepest : Nested)
    (m n : Nat) :
    nestedFrom deepest (m + n) =
      nestedFrom (nestedFrom deepest m) n := by
  induction n with
  | zero => rfl
  | succ n ih =>
      rw [← Nat.add_assoc]
      unfold nestedFrom
      rw [ih]

/- Two runs end alike and leave the same state. -/
def ParserRelation.sameOutcome : ParserRelation where
  holds s p q := p.outcome s = q.outcome s
  ofPure _ _ := rfl
  ofThrow _ _ := rfl
  ofBind := by
    intro α β s p q f g hFirst hRest
    rw [outcome_bind, outcome_bind, ← hFirst]
    rcases hRun : p.outcome s with ⟨d | a, t⟩
    · rfl
    · exact hRest hRun
  ofLook _ _ := rfl
  ofMove _ _ _ := rfl
  ofDeclare _ _ _ _ _ _ _ _ := rfl
  ofNewScope := by
    intro α s body body' hBody
    rw [outcome_inNewScope, outcome_inNewScope, hBody]
  ofRecovering := by
    intro α s p q stop hBody
    rw [outcome_recovering, outcome_recovering, hBody]

/-
  Within the depth the parsers are the same as those with a
  bottom that only fails.
-/
theorem nestedTies_nestedFrom (deepest : Nested) :
    ∀ depth,
      ParserRelation.sameOutcome.NestedTies depth
        (nestedWithin depth) (nestedFrom deepest depth)
  | 0 =>
      { expression := fun _ _ _ _ hFew =>
          absurd hFew (Nat.not_lt_zero _)
        block := fun _ _ _ _ hFew =>
          absurd hFew (Nat.not_lt_zero _) }
  | depth + 1 =>
      have hNested := nestedTies_nestedFrom deepest depth
      { expression := fun _ =>
          ParserRelation.tiesStep_expression hNested
        block := fun _ => ParserRelation.ties_block hNested }

------------------------------------------------------------
-- Programs
------------------------------------------------------------

theorem outcome_program_eq
    {nested nested' : Nested}
    {n : Nat}
    {scopes : List ScopeId}
    {s : ParserState}
    (hNested :
      ParserRelation.sameOutcome.NestedTies n nested nested')
    (hReady : s.Ready scopes)
    (hFew : 2 * s.left < n) :
    (program nested').outcome s =
      (program nested).outcome s := by
  have hImports :=
    ParserRelation.ties_collect
      (ParserRelation.tiesStep_nextImport hNested).ties
      s.opened hReady.opened hFew
  unfold program
  rw [outcome_inNewScope, outcome_inNewScope, outcome_bind,
    outcome_bind, ← show _ = _ from hImports.holds]
  rcases hRun : (collect (nextImport nested)).outcome s.opened
    with ⟨d | imports, t⟩
  · rfl
  · have hKept := hImports.kept
    rw [hRun] at hKept
    have hLeft : t.left ≤ s.left := hKept.left_le
    have hDeclarations :=
      ParserRelation.ties_collect
        (ParserRelation.tiesStep_nextDeclaration hNested).ties
        t hKept.ready (by omega)
    dsimp only
    rw [outcome_bind, outcome_bind,
      ← show _ = _ from hDeclarations.holds]

/-
  A text is read in the same way whatever is done about what
  is nested more deeply than it can be.
-/
theorem outcome_program_nestedFrom
    (source file : String)
    (deepest : Nested)
    {depth : Nat}
    (hDeep :
      2 * (ParserState.initial source file).left + 2 ≤
        depth) :
    (program (nestedFrom deepest depth)).outcome
        (.initial source file) =
      (closed program).outcome (.initial source file) := by
  rcases Nat.exists_eq_add_of_le' hDeep with ⟨more, rfl⟩
  rw [nestedFrom_add]
  unfold closed
  rw [outcome_bind, outcome_get]
  refine outcome_program_eq (nestedTies_nestedFrom _ _)
    (ready_initial source file) ?_
  unfold ParserState.left
  omega

end SourceCheck
