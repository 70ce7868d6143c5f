import SourceCheck.CommandLine.Report

/-
  The command: it reads the source file that its words name,
  checks it and prints the report.
-/

namespace SourceCheck

/- Log what is done, if the arguments ask for it. -/
def log (a : Arguments) (text : String) : IO Unit :=
  if a.verbose then
    IO.eprintln text
  else
    pure ()

/- The text of the file, unless it cannot be read. -/
def readSource (a : Arguments) : IO (Option String) := do
  try
    log a ("reading " ++ a.file)
    return some (← IO.FS.readFile a.file)
  catch e =>
    IO.eprintln ("failed to read " ++ a.file ++ ": " ++
      toString e)
    return none

/- The report of the command on its words. -/
def reportOn (words : List String) : IO Report := do
  match Arguments.ofWords words with
  | .error stop =>
      if stop = .refused then
        IO.eprint helpText
      return stop.report
  | .ok a => return a.report (← readSource a)

/- Run the command on its words. -/
def run (words : List String) : IO UInt32 := do
  let r ← reportOn words
  IO.print r.output
  return r.exitCode

end SourceCheck

/- The entry of the program. -/
def main (words : List String) : IO UInt32 :=
  SourceCheck.run words
