import SourceCheck.Resolution.Expression

/-
  Resolving whole programs.

  Imports come first and give names to types and members of
  a library; then the declarations are walked in the order
  of the text.

  Key definitions include:
    * `Resolver.importEntry`
    * `resolveImport`
    * `resolveDeclaration`
    * `resolveProgram`
-/

namespace SourceCheck

------------------------------------------------------------
-- Imports
------------------------------------------------------------

namespace Resolver

/- Give a name to a type, unless the name has one. -/
def importType
    (entry : ImportEntry)
    (type : Ty) :
    Resolver PUnit := do
  let s ← get
  match s.types.define? entry.localName type with
  | some types => set { s with types := types }
  | none =>
      report (.importRedefinition entry.localName)
        entry.span.start

/- Give a name to members, besides those that it has. -/
def importMembers
    (entry : ImportEntry)
    (members : List Member) :
    Resolver PUnit :=
  modify fun s =>
    { s with
      members :=
        members.foldl
          (fun known m => known.define entry.localName m)
          s.members }

/- Import a type, or else members, of a name. -/
def importEntry
    (library : Library)
    (path : String)
    (entry : ImportEntry) :
    Resolver PUnit := do
  match library.type? path entry.name with
  | some type => importType entry type
  | none =>
      match library.members path entry.name with
      | [] =>
          report (.importNotFound path entry.name)
            entry.span.start
      | members => importMembers entry members

end Resolver

/- Import all names of an import that is not marked yet. -/
def resolveImport
    (library : Library)
    (i : Import) :
    Resolver Import := do
  if i.isResolved then
    return i
  else
    i.entries.forM (Resolver.importEntry library i.path)
    return { i with isResolved := true }

------------------------------------------------------------
-- Declarations
------------------------------------------------------------

/- A declaration with its slots filled. -/
def resolveDeclaration
    (around : Surroundings) :
    Declaration → Resolver Declaration
  | .function f => do
      return .function (← resolveFunction around f)
  | .property v => do
      return .property (← resolveVariable around v)

------------------------------------------------------------
-- Programs
------------------------------------------------------------

/- A program with its slots filled, but for its symbols. -/
def resolveParts
    (library : Library)
    (program : Program) :
    Resolver Program := do
  let around := Surroundings.nowhere.within program.scope
  let imports ← program.imports.mapM (resolveImport library)
  let declarations ←
    program.declarations.mapM (resolveDeclaration around)
  return { program with
    imports := imports
    declarations := declarations }

/- A program with its slots filled, and what was reported. -/
def resolveProgram
    (library : Library)
    (program : Program) :
    Program × List Diagnostic :=
  let (resolved, s) :=
    (resolveParts library program).run
      (.start program.symbols)
  ({ resolved with symbols := s.symbols }, s.diagnostics)

end SourceCheck
