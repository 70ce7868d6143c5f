/-
  The words of the command line.

  A word that starts with dashes gives flags: two dashes and
  a name give one, one dash gives one for each letter behind
  it.  A single dash is a plain word, and two dashes end the
  flags.  The first plain word is the file; each flag may be
  given once, and so may the file.

  Key definitions include:
    * `Arguments`
    * `Flag`
    * `Word`
    * `Stop`
    * `Arguments.ofWords`
-/

namespace SourceCheck

------------------------------------------------------------
-- Arguments
------------------------------------------------------------

/-
  The file to check, whether the standard library may be
  imported, and whether to log what is done.
-/
structure Arguments where
  file : String
  importStd : Bool
  verbose : Bool
deriving DecidableEq

/- Why the words ask for no check of a file. -/
inductive Stop where
  | refused
  | help
  | version
deriving DecidableEq

------------------------------------------------------------
-- Words
------------------------------------------------------------

/- What may be asked for besides a file. -/
inductive Flag where
  | importStd
  | verbose
  | help
  | version
deriving DecidableEq

namespace Flag

/- The flag of a name. -/
def ofName? : String → Option Flag
  | "import-std" => some importStd
  | "verbose" => some verbose
  | "help" => some help
  | "version" => some version
  | _ => none

/- The flag of a letter. -/
def ofLetter? : Char → Option Flag
  | 'v' => some verbose
  | 'h' => some help
  | 'V' => some version
  | _ => none

end Flag

/-
  A word: flags, some of which may be unknown, the end of
  the flags, or a plain word.
-/
inductive Word where
  | flags (fs : List (Option Flag))
  | flagsEnd
  | plain
deriving DecidableEq

/- What kind of word a text is. -/
def Word.ofChars : List Char → Word
  | ['-', '-'] => .flagsEnd
  | '-' :: '-' :: name =>
      .flags [Flag.ofName? (String.ofList name)]
  | ['-'] => .plain
  | '-' :: letters => .flags (letters.map Flag.ofLetter?)
  | _ => .plain

------------------------------------------------------------
-- Reading
------------------------------------------------------------

/-
  What was read so far; behind the end of the flags, every
  word is plain.
-/
structure PartialArguments where
  file? : Option String
  importStd : Bool
  verbose : Bool
  flagsEnded : Bool
deriving DecidableEq

namespace PartialArguments

/- Nothing was read yet. -/
def unread : PartialArguments :=
  ⟨none, false, false, false⟩

/- Read one flag, which must be known. -/
def readFlag
    (a : PartialArguments) :
    Option Flag → Except Stop PartialArguments
  | none => .error .refused
  | some .help => .error .help
  | some .version => .error .version
  | some .importStd =>
      if a.importStd then
        .error .refused
      else
        .ok { a with importStd := true }
  | some .verbose =>
      if a.verbose then
        .error .refused
      else
        .ok { a with verbose := true }

/- Read the file, which must have a name. -/
def readFile
    (a : PartialArguments)
    (file : String) :
    Except Stop PartialArguments :=
  if file = "" || a.file?.isSome then
    .error .refused
  else
    .ok { a with file? := some file }

/- Read one word. -/
def readWord
    (a : PartialArguments)
    (word : String) :
    Except Stop PartialArguments :=
  if a.flagsEnded then
    a.readFile word
  else
    match Word.ofChars word.toList with
    | .flags fs => fs.foldlM readFlag a
    | .flagsEnd => .ok { a with flagsEnded := true }
    | .plain => a.readFile word

end PartialArguments

/- The arguments that the words stand for. -/
def Arguments.ofWords
    (words : List String) :
    Except Stop Arguments := do
  let a ← words.foldlM PartialArguments.readWord .unread
  match a.file? with
  | none => .error .refused
  | some file => .ok ⟨file, a.importStd, a.verbose⟩

end SourceCheck
