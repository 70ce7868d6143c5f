import SourceCheck.Grammar.Program
import SourceCheck.Resolution.Program

/-
  Checking a source text from its characters to its types.

  Key definitions include:
    * `compile`
-/

namespace SourceCheck

------------------------------------------------------------
-- The whole check
------------------------------------------------------------

/-
  The program of a source text with all types resolved, or
  the diagnostics of the stage that failed.
-/
def compile
    (library : Library)
    (source file : String) :
    Except (List Diagnostic) Program := do
  let program ← parseProgram source file
  match resolveProgram library program with
  | (resolved, []) => .ok resolved
  | (_, diagnostics) => .error diagnostics

end SourceCheck
