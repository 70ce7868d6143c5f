import SourceCheck.Check
import SourceCheck.CommandLine.Arguments
import SourceCheck.Diagnostic.Rendering

/-
  What the command prints, and how it exits.

  Key definitions include:
    * `fileName`
    * `Report`
    * `Stop.report`
    * `Arguments.report`
    * `commandReport`
-/

namespace SourceCheck

------------------------------------------------------------
-- File names
------------------------------------------------------------

/- The parts of a path that name something. -/
def pathParts (path : String) : List String :=
  ((path.splitOn "/").filter (· ≠ "")).filter (· ≠ ".")

/-
  The last part of a path.  A path that ends with its parent
  directory, or names nothing, is taken whole.
-/
def fileName (path : String) : String :=
  match (pathParts path).getLast? with
  | none => path
  | some ".." => path
  | some name => name

------------------------------------------------------------
-- Reports
------------------------------------------------------------

/- What the command prints, and how it exits. -/
structure Report where
  output : String
  exitCode : UInt32
deriving DecidableEq

/- The report on a program without errors. -/
def successReport (file : String) (p : Program) : Report where
  output :=
    file ++ ": " ++ toString p.imports.length ++
      " imports, " ++ toString p.declarations.length ++
      " declarations, no errors\n"
  exitCode := 0

/- The report on a program with errors. -/
def failureReport
    (file source : String)
    (ds : List Diagnostic) :
    Report where
  output :=
    String.join (ds.map (·.rendered source)) ++ file ++
      ": " ++ toString ds.length ++ " errors\n"
  exitCode := 1

/- The report on a file that cannot be read. -/
def unreadableReport : Report where
  output := ""
  exitCode := 1

------------------------------------------------------------
-- Words that ask for no check
------------------------------------------------------------

/- How the command is used. -/
def helpText : String :=
  printed
    [ "Parses and type-checks a source file",
      "",
      "Usage: frontend [OPTIONS] <FILE>",
      "",
      "Arguments:",
      "  <FILE>  Source file to check",
      "",
      "Options:",
      "  -v, --verbose     Log every compilation stage",
      "      --import-std  Make the bundled standard " ++
        "library importable",
      "  -h, --help        Print help",
      "  -V, --version     Print version" ]

/- The name of the command, and its version. -/
def versionText : String :=
  printed ["frontend 0.1.0"]

/- The report where no file is checked. -/
def Stop.report : Stop → Report
  | refused => ⟨"", 2⟩
  | help => ⟨helpText, 0⟩
  | version => ⟨versionText, 0⟩

------------------------------------------------------------
-- Checks
------------------------------------------------------------

namespace Arguments

/- The library that the arguments ask for. -/
def library (a : Arguments) : Library :=
  if a.importStd then .standard else .empty

/- The report on the source text of the file. -/
def sourceReport (a : Arguments) (source : String) : Report :=
  let file := fileName a.file
  match compile a.library source file with
  | .ok program => successReport file program
  | .error ds => failureReport file source ds

/- The report on the file, whose text may be missing. -/
def report
    (a : Arguments)
    (source? : Option String) :
    Report :=
  match source? with
  | none => unreadableReport
  | some source => a.sourceReport source

end Arguments

/-
  The report of the command on its words, where the files
  have the given texts.
-/
def commandReport
    (words : List String)
    (textOf? : String → Option String) :
    Report :=
  match Arguments.ofWords words with
  | .error stop => stop.report
  | .ok a => a.report (textOf? a.file)

end SourceCheck
