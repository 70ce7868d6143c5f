import SourceCheck.Ty.Basic

/-
  The names of types and members that a program knows.

  The type of a written type is remembered by its text, so
  that it is found, and reported if it is unknown, only
  once.

  Key definitions include:
    * `TypeNames`
    * `TypeNames.define?`
    * `TypeNames.remember`
    * `MemberNames`
    * `MemberNames.properties`
    * `MemberNames.functions`
-/

namespace SourceCheck

------------------------------------------------------------
-- Types
------------------------------------------------------------

/- Types by their names, and by the texts of written types. -/
structure TypeNames where
  named : List (String × Ty)
  written : List (String × Ty)

namespace TypeNames

/- No names are known. -/
def empty : TypeNames :=
  ⟨[], []⟩

/- The type of a name. -/
def find? (t : TypeNames) (name : String) : Option Ty :=
  t.named.lookup name

/- The name is known. -/
def contains (t : TypeNames) (name : String) : Bool :=
  (t.find? name).isSome

/- Add a name that is not known yet. -/
def define?
    (t : TypeNames)
    (name : String)
    (type : Ty) :
    Option TypeNames :=
  if t.contains name then
    none
  else
    some { t with named := (name, type) :: t.named }

/- A new name is known by its type, and no other changes. -/
theorem find?_of_define?
    {t u : TypeNames}
    {name : String}
    {type : Ty}
    (h : t.define? name type = some u)
    (other : String) :
    u.find? other =
      if other = name then some type else t.find? other := by
  unfold define? at h
  split at h
  · cases h
  · cases h
    by_cases ho : other = name
    · simp [find?, ho]
    · have hb : (other == name) = false :=
        beq_eq_false_iff_ne.2 ho
      simp [find?, List.lookup_cons, hb, ho]

/- The type that was remembered for a text. -/
def findWritten?
    (t : TypeNames)
    (text : String) :
    Option Ty :=
  t.written.lookup text

/- Remember the type of a text. -/
def remember
    (t : TypeNames)
    (text : String)
    (type : Ty) :
    TypeNames :=
  { t with written := (text, type) :: t.written }

/- The latest type of a text is the one that is found. -/
theorem findWritten?_remember
    (t : TypeNames)
    (text other : String)
    (type : Ty) :
    (t.remember text type).findWritten? other =
      if other = text then
        some type
      else
        t.findWritten? other := by
  by_cases h : other = text
  · simp [findWritten?, remember, h]
  · have hb : (other == text) = false :=
      beq_eq_false_iff_ne.2 h
    simp [findWritten?, remember, List.lookup_cons, hb, h]

end TypeNames

------------------------------------------------------------
-- Members
------------------------------------------------------------

/-
  Members by the names that a program knows them by, in the
  order of their definition.  One name may have many.
-/
structure MemberNames where
  entries : List (String × Member)

namespace MemberNames

/- No names are known. -/
def empty : MemberNames :=
  ⟨[]⟩

/- Add a member under a name. -/
def define
    (m : MemberNames)
    (name : String)
    (member : Member) :
    MemberNames :=
  ⟨m.entries ++ [(name, member)]⟩

/- The members of a name. -/
def find (m : MemberNames) (name : String) : List Member :=
  (m.entries.filter (·.1 = name)).map (·.2)

/- A member is the last one of its name. -/
theorem find_define
    (m : MemberNames)
    (name other : String)
    (member : Member) :
    (m.define name member).find other =
      if other = name then
        m.find other ++ [member]
      else
        m.find other := by
  by_cases h : other = name
  · simp [find, define, h]
  · simp [find, define, h, Ne.symm h]

/- The properties of a name. -/
def properties
    (m : MemberNames)
    (name : String) :
    List Member :=
  (m.find name).filter (·.isProperty)

/- The functions of a name with exactly these parameters. -/
def functions
    (m : MemberNames)
    (name : String)
    (arguments : List Ty) :
    List Member :=
  (m.find name).filter (·.takes arguments)

end MemberNames

end SourceCheck
