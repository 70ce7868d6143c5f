/-
  Types of values, and the members of containers.

  Key definitions include:
    * `Builtin`
    * `Visibility`
    * `Ty`
    * `Member`
    * `Ty.text`
    * `Container`
    * `Container.function?`
    * `Container.property?`
-/

namespace SourceCheck

------------------------------------------------------------
-- Built-in types
------------------------------------------------------------

/- The types that every program knows. -/
inductive Builtin where
  | any
  | nothing
  | unit
  | string
  | boolean
  | char
  | byte
  | short
  | int
  | long
  | float
  | double
deriving DecidableEq, Inhabited

namespace Builtin

/- Every built-in type. -/
def all : List Builtin :=
  [ any, nothing, unit, string, boolean, char, byte, short,
    int, long, float, double ]

theorem mem_all (b : Builtin) : b ∈ all := by
  cases b <;> decide

/- The name of a built-in type in programs. -/
def name : Builtin → String
  | any => "any"
  | nothing => "nothing"
  | unit => "unit"
  | string => "string"
  | boolean => "boolean"
  | char => "char"
  | byte => "byte"
  | short => "short"
  | int => "int"
  | long => "long"
  | float => "float"
  | double => "double"

/- How wide a numeric type is. -/
def rank? : Builtin → Option Nat
  | byte => some 0
  | short => some 1
  | int => some 2
  | long => some 3
  | float => some 4
  | double => some 5
  | _ => none

end Builtin

/- Who may use a member. -/
inductive Visibility where
  | everyone
  | owner
deriving DecidableEq, Inhabited

------------------------------------------------------------
-- Types
------------------------------------------------------------

mutual

/-
  A type.  The error type stands for a type that could not
  be found, and says why.
-/
inductive Ty where
  | builtin (b : Builtin)
  | container
      (name : String)
      (isObject : Bool)
      (members : List Member)
  | function (parameters : List Ty) (result : Ty)
  | union (left right : Ty)
  | intersection (left right : Ty)
  | error (description : String)

/- A function or a property that a name stands for. -/
inductive Member where
  | function
      (name : String)
      (parameters : List Ty)
      (result : Ty)
      (visibility : Visibility)
  | property
      (name : String)
      (type : Ty)
      (visibility : Visibility)

end

instance : Inhabited Ty :=
  ⟨.builtin .any⟩

instance : Inhabited Member :=
  ⟨.property "" default .everyone⟩

namespace Ty

/- The type of expressions that have no value of interest. -/
def unit : Ty := .builtin .unit

/- The type of texts. -/
def string : Ty := .builtin .string

/- The type of truth values. -/
def boolean : Ty := .builtin .boolean

/- The type of integers. -/
def int : Ty := .builtin .int

/- The type of long integers. -/
def long : Ty := .builtin .long

/- The type of expressions that give no value. -/
def nothing : Ty := .builtin .nothing

/- The type stands for a type that could not be found. -/
def isError : Ty → Bool
  | .error _ => true
  | _ => false

/- How wide a type is, if it is numeric. -/
def rank? : Ty → Option Nat
  | .builtin b => b.rank?
  | _ => none

/- The wider one of two numeric types, or the first. -/
def wider? (s t : Ty) : Option Ty :=
  match s.rank?, t.rank? with
  | some m, some n => some (if n ≤ m then s else t)
  | _, _ => none

end Ty

------------------------------------------------------------
-- Equality
------------------------------------------------------------

mutual

/- Whether two types are the same. -/
def Ty.same : Ty → Ty → Bool
  | .builtin a, .builtin b => a = b
  | .container m o as, .container n p bs =>
      m = n && o = p && sameMembers as bs
  | .function as r, .function bs s =>
      sameTypes as bs && r.same s
  | .union a b, .union c d => a.same c && b.same d
  | .intersection a b, .intersection c d =>
      a.same c && b.same d
  | .error a, .error b => a = b
  | _, _ => false

/- Whether two members are the same. -/
def Member.same : Member → Member → Bool
  | .function m as r v, .function n bs s w =>
      m = n && sameTypes as bs && r.same s && v = w
  | .property m a v, .property n b w =>
      m = n && a.same b && v = w
  | _, _ => false

/- Whether two lists of types are the same. -/
def sameTypes : List Ty → List Ty → Bool
  | [], [] => true
  | a :: as, b :: bs => a.same b && sameTypes as bs
  | _, _ => false

/- Whether two lists of members are the same. -/
def sameMembers : List Member → List Member → Bool
  | [], [] => true
  | a :: as, b :: bs => a.same b && sameMembers as bs
  | _, _ => false

end

mutual

theorem Ty.same_iff : ∀ a b : Ty, a.same b ↔ a = b
  | .builtin a, b => by
      cases b <;> simp [Ty.same]
  | .container m o as, b => by
      cases b <;>
        simp [Ty.same, sameMembers_iff as, and_assoc]
  | .function as r, b => by
      cases b <;>
        simp [Ty.same, sameTypes_iff as, Ty.same_iff r]
  | .union a b, c => by
      cases c <;>
        simp [Ty.same, Ty.same_iff a, Ty.same_iff b]
  | .intersection a b, c => by
      cases c <;>
        simp [Ty.same, Ty.same_iff a, Ty.same_iff b]
  | .error a, b => by
      cases b <;> simp [Ty.same]

theorem Member.same_iff : ∀ a b : Member, a.same b ↔ a = b
  | .function m as r v, b => by
      cases b <;>
        simp [Member.same, sameTypes_iff as, Ty.same_iff r,
          and_assoc]
  | .property m a v, b => by
      cases b <;>
        simp [Member.same, Ty.same_iff a, and_assoc]

theorem sameTypes_iff :
    ∀ as bs : List Ty, sameTypes as bs ↔ as = bs
  | [], bs => by
      cases bs <;> simp [sameTypes]
  | a :: as, bs => by
      cases bs <;>
        simp [sameTypes, Ty.same_iff a, sameTypes_iff as]

theorem sameMembers_iff :
    ∀ as bs : List Member, sameMembers as bs ↔ as = bs
  | [], bs => by
      cases bs <;> simp [sameMembers]
  | a :: as, bs => by
      cases bs <;>
        simp [sameMembers, Member.same_iff a,
          sameMembers_iff as]

end

instance : DecidableEq Ty :=
  fun a b => decidable_of_iff _ (Ty.same_iff a b)

instance : DecidableEq Member :=
  fun a b => decidable_of_iff _ (Member.same_iff a b)

------------------------------------------------------------
-- Texts
------------------------------------------------------------

mutual

/-
  A type as it is written in messages.  Nested types stand
  in no brackets.
-/
def Ty.text : Ty → String
  | .builtin b => b.name
  | .container name _ _ => name
  | .function parameters result =>
      "(" ++ ", ".intercalate (typeTexts parameters) ++
        ") -> " ++ result.text
  | .union left right => left.text ++ " | " ++ right.text
  | .intersection left right =>
      left.text ++ " & " ++ right.text
  | .error description => "<error: " ++ description ++ ">"

/- The texts of a list of types. -/
def typeTexts : List Ty → List String
  | [] => []
  | t :: ts => t.text :: typeTexts ts

end

------------------------------------------------------------
-- Members
------------------------------------------------------------

namespace Member

/- The name of a member. -/
def name : Member → String
  | .function name _ _ _ => name
  | .property name _ _ => name

/- Who may use a member. -/
def visibility : Member → Visibility
  | .function _ _ _ v => v
  | .property _ _ v => v

/- Everyone may use the member. -/
def isPublic (m : Member) : Bool :=
  m.visibility = .everyone

/- The member is a property. -/
def isProperty : Member → Bool
  | .function _ _ _ _ => false
  | .property _ _ _ => true

/- The type of the member as a value. -/
def valueType : Member → Ty
  | .function _ parameters result _ =>
      .function parameters result
  | .property _ type _ => type

/- The type of what a use of the member gives. -/
def resultType : Member → Ty
  | .function _ _ result _ => result
  | .property _ type _ => type

/- The member is a function of exactly these parameters. -/
def takes (m : Member) (arguments : List Ty) : Bool :=
  match m with
  | .function _ parameters _ _ => parameters = arguments
  | .property _ _ _ => false

/- The member is a function of this name and parameters. -/
def hasSignature
    (m : Member)
    (name : String)
    (arguments : List Ty) :
    Bool :=
  m.name = name && m.takes arguments

end Member

------------------------------------------------------------
-- Containers
------------------------------------------------------------

/- A named type with members. -/
structure Container where
  name : String
  isObject : Bool
  members : List Member
deriving DecidableEq

/- The container that a type is. -/
def Ty.container? : Ty → Option Container
  | .container name isObject members =>
      some ⟨name, isObject, members⟩
  | _ => none

namespace Container

/- The type of the container. -/
def type (c : Container) : Ty :=
  .container c.name c.isObject c.members

/- The first function of this name and parameters. -/
def function?
    (c : Container)
    (name : String)
    (arguments : List Ty) :
    Option Member :=
  c.members.find? (·.hasSignature name arguments)

/- The first property of this name. -/
def property? (c : Container) (name : String) : Option Member :=
  c.members.find? fun m => m.isProperty && m.name = name

end Container

end SourceCheck
