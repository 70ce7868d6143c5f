import SourceCheck.Ty.Basic

/-
  What programs may import: types and members by the path
  and the name that they are known by.

  Key definitions include:
    * `Library`
    * `Library.registerType`
    * `Library.registerMember`
    * `Library.standard`
    * `builtinTypes`
-/

namespace SourceCheck

------------------------------------------------------------
-- Built-in names
------------------------------------------------------------

/- The names of types that every program knows. -/
def builtinTypes : List (String × Ty) :=
  Builtin.all.map fun b => (b.name, .builtin b)

------------------------------------------------------------
-- Libraries
------------------------------------------------------------

/-
  What is behind the paths of imports: the type of a path and
  a name, if there is one, and the members of a path and a
  name, in order.  Nothing else is asked of a library.
-/
structure Library where
  type? : String → String → Option Ty
  members : String → String → List Member

namespace Library

/- There is nothing to import. -/
def empty : Library where
  type? _ _ := none
  members _ _ := []

/- Put a type under a path and a name; the latest one counts. -/
def registerType
    (l : Library)
    (path name : String)
    (type : Ty) :
    Library :=
  { l with
    type? := fun p n =>
      if p = path && n = name then some type
      else l.type? p n }

/- Put a member under a path and its own name, behind others. -/
def registerMember
    (l : Library)
    (path : String)
    (member : Member) :
    Library :=
  { l with
    members := fun p n =>
      if p = path && n = member.name then
        l.members p n ++ [member]
      else
        l.members p n }

------------------------------------------------------------
-- The standard library
------------------------------------------------------------

/- A function that everyone may use. -/
def publicFunction
    (name : String)
    (parameters : List Ty)
    (result : Ty) :
    Member :=
  .function name parameters result .everyone

/- The object for reading and writing lines. -/
def console : Ty :=
  .container "Console" true
    [ publicFunction "print" [.string] .unit,
      publicFunction "println" [.string] .unit,
      publicFunction "readLine" [] .string,
      .property "buffer" .string .owner ]

/- What programs may import by default. -/
def standard : Library :=
  empty
    |>.registerType "std/io" "Console" console
    |>.registerMember "std/io"
      (publicFunction "print" [.string] .unit)
    |>.registerMember "std/io"
      (publicFunction "print" [.int] .unit)
    |>.registerMember "std/io"
      (publicFunction "int_input" [] .int)
    |>.registerMember "std/io"
      (publicFunction "string_input" [.int] .string)
    |>.registerMember "std/string"
      (publicFunction "strcmp" [.string, .string] .int)
    |>.registerMember "std/system"
      (.property "newline" .string .everyone)

end Library

end SourceCheck
