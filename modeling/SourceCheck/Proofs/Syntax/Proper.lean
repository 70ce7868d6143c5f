import SourceCheck.Proofs.Scoping.Sound
import SourceCheck.Proofs.Syntax.Program

/-
  Proper states of the parser.

  The symbols are sound, and the open scopes are among them.
  All actions of the parser lead from proper states to proper
  states, whether or not a name was declared before and
  whether or not they fail.

  Key definitions include:
    * `ParserState.Proper`

  Key theorems include:
    * `ParserState.Proper.declared`
    * `Derives.proper`
    * `DerivesDeclarations.proper`
    * `proper_initial`
-/

namespace SourceCheck

open SourceCheck.Parser
open SourceCheck.ParserState

variable {s t : ParserState}

------------------------------------------------------------
-- Proper states
------------------------------------------------------------

/- The symbols are sound, and the open scopes are in them. -/
structure ParserState.Proper (s : ParserState) : Prop
    extends s.symbols.Sound where
  open_lt :
    ∀ scope ∈ s.scopes, scope < s.symbols.scopes.size

namespace ParserState.Proper

/- Other tokens and diagnostics do not matter. -/
theorem same
    (hProper : s.Proper)
    (hSymbols : t.symbols = s.symbols)
    (hScopes : t.scopes = s.scopes) :
    t.Proper := by
  constructor
  · rw [hSymbols]
    exact hProper.toSound
  · rw [hSymbols, hScopes]
    exact hProper.open_lt

theorem next (hProper : s.Proper) : s.next.Proper :=
  hProper.same rfl rfl

theorem closed (hProper : s.Proper) : s.closed.Proper where
  toSound := hProper.toSound
  open_lt scope hMember :=
    hProper.open_lt scope (List.mem_of_mem_tail hMember)

theorem opened (hProper : s.Proper) : s.opened.Proper where
  toSound :=
    hProper.toSound.openScope fun outer hOuter =>
      hProper.open_lt outer (List.mem_of_mem_head? hOuter)
  open_lt scope hMember := by
    have hSize :
        s.opened.symbols.scopes.size =
          s.symbols.scopes.size + 1 :=
      Array.size_push _
    rw [hSize]
    rcases List.mem_cons.1 hMember with rfl | hMember
    · exact Nat.lt_succ_self _
    · exact Nat.lt_succ_of_lt (hProper.open_lt scope hMember)

/- A new definition is bound in a scope. -/
theorem bound
    (hProper : s.Proper)
    (scope : ScopeId)
    (d : Definition) :
    (s.bound scope d).Proper where
  toSound :=
    (hProper.toSound.addDefinition d).insert
      (by
        change _ < (s.symbols.definitions.push d).size
        rw [Array.size_push]
        exact Nat.lt_succ_self _)
      scope d.name
  open_lt other hMember := by
    have hLess := hProper.open_lt other hMember
    unfold ParserState.bound withSymbols
    dsimp only
    rw [Array.size_modify]
    exact hLess

theorem declares
    {d : Definition}
    {id : DefinitionId}
    (hProper : s.Proper)
    (hDeclares : s.Declares d id t) :
    t.Proper := by
  rcases hDeclares with ⟨rfl, scope, -, -, rfl⟩
  exact hProper.bound scope d

/- The definition may be one that is not bound. -/
theorem declared
    (hProper : s.Proper)
    (scope : ScopeId)
    (d : Definition)
    (p : Position) :
    (s.declared scope d p).Proper := by
  unfold ParserState.declared
  split
  · exact ⟨hProper.toSound.addDefinition d, hProper.open_lt⟩
  · exact hProper.bound scope d

/- What failed leaves a proper state too. -/
theorem resumed
    (hProper : t.Proper)
    (stop : TokenStream → Bool)
    (s : ParserState)
    (d : Diagnostic) :
    (s.resumed stop t d).Proper := by
  unfold ParserState.resumed
  dsimp only
  split
  · exact hProper.same rfl rfl
  · exact hProper.same rfl rfl

end ParserState.Proper

theorem proper_initial (source file : String) :
    (ParserState.initial source file).Proper :=
  ⟨Symbols.sound_empty, nofun⟩

------------------------------------------------------------
-- Phrases
------------------------------------------------------------

theorem DerivesType.proper
    {phrase : TypePhrase}
    {y : TypeExpr}
    (hDerives : DerivesType phrase s y t) :
    s.Proper → t.Proper := by
  induction hDerives with
  | name _ => exact Proper.next
  | joined _ _ ihFirst ihMore =>
      exact fun hProper => ihMore (ihFirst hProper)
  | stop _ => exact id
  | more _ _ _ ihRight ihMore =>
      exact fun hProper => ihMore (ihRight hProper.next)
  | present _ _ ih => exact fun hProper => ih hProper.next
  | absent _ => exact id

/- Phrases lead from proper states to proper states. -/
theorem Derives.proper
    {phrase : Phrase}
    {r : phrase.Result}
    (hDerives : Derives phrase s r t) :
    s.Proper → t.Proper := by
  have hType := @DerivesType.proper
  have hDeclared := @Proper.declares
  have hNext := @Proper.next
  have hOpened := @Proper.opened
  have hClosed := @Proper.closed
  induction hDerives with
  | _ => grind

theorem DerivesImports.proper
    {imports : List Import}
    (hDerives : DerivesImports s imports t) :
    s.Proper → t.Proper := by
  induction hDerives with
  | stop _ => exact id
  | more hImport _ ih =>
      intro hProper
      cases hImport with
      | intro _ _ hPath _ hEntries _ _ =>
          have hBehind := hPath.proper hProper.next.next
          exact ih (hEntries.proper hBehind.next).next

theorem DerivesDeclarations.proper
    {ds : List Declaration}
    (hDerives : DerivesDeclarations s ds t) :
    s.Proper → t.Proper := by
  induction hDerives with
  | stop _ => exact id
  | more hDeclaration _ ih =>
      intro hProper
      cases hDeclaration with
      | function hFunction =>
          exact ih (hFunction.proper hProper)
      | property _ hVariable =>
          exact ih (hVariable.proper hProper)

end SourceCheck
