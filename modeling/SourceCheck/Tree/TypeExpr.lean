import SourceCheck.Source.Position
import SourceCheck.Ty.Basic

/-
  Types as they are written in programs.

  Key definitions include:
    * `TypeForm`
    * `TypeExpr`
    * `TypeExpr.text`
    * `TypeExpr.equivalent`
-/

namespace SourceCheck

------------------------------------------------------------
-- Written types
------------------------------------------------------------

mutual

/- The forms of a written type, which may be left out. -/
inductive TypeForm where
  | absent
  | named (name : String)
  | union (left right : TypeExpr)
  | intersection (left right : TypeExpr)

/-
  A written type and its place.  The type that it stands for
  is not known at first.
-/
structure TypeExpr where
  form : TypeForm
  span : Span
  type : Option Ty

end

instance : Inhabited TypeForm :=
  ⟨.absent⟩

instance : Inhabited TypeExpr :=
  ⟨⟨.absent, default, none⟩⟩

namespace TypeExpr

/- A written type that stands for no type yet. -/
def new (form : TypeForm) (span : Span) : TypeExpr :=
  ⟨form, span, none⟩

/- The type was left out. -/
def isAbsent (t : TypeExpr) : Bool :=
  match t.form with
  | .absent => true
  | _ => false

end TypeExpr

------------------------------------------------------------
-- Texts
------------------------------------------------------------

mutual

/- A written type in its plainest spelling. -/
def TypeForm.text : TypeForm → String
  | .absent => "?"
  | .named name => name
  | .union left right => left.text ++ " | " ++ right.text
  | .intersection left right =>
      left.text ++ " & " ++ right.text

/- A written type in its plainest spelling. -/
def TypeExpr.text : TypeExpr → String
  | ⟨form, _, _⟩ => form.text

end

------------------------------------------------------------
-- Equivalence
------------------------------------------------------------

mutual

/- Two forms say the same. -/
def TypeForm.equivalent : TypeForm → TypeForm → Bool
  | .absent, .absent => true
  | .named a, .named b => a = b
  | .union a b, .union c d =>
      a.equivalent c && b.equivalent d
  | .intersection a b, .intersection c d =>
      a.equivalent c && b.equivalent d
  | _, _ => false

/- Two written types say the same, wherever they stand. -/
def TypeExpr.equivalent : TypeExpr → TypeExpr → Bool
  | ⟨a, _, _⟩, ⟨b, _, _⟩ => a.equivalent b

end

end SourceCheck
