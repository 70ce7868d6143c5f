import SourceCheck.Ty.Basic

/-
  Whether a value of one type may stand where another type
  is expected.

  An error type fits everywhere, so that one mistake is
  reported once.  Otherwise every type fits `any`, `nothing`
  fits every type, a union takes what one of its sides
  takes, an intersection fits where one of its sides fits, a
  union fits where both of its sides fit, and a numeric type
  takes the narrower ones.

  Key definitions include:
    * `Ty.accepts`
-/

namespace SourceCheck

namespace Ty

------------------------------------------------------------
-- Numeric types
------------------------------------------------------------

/- Both types are numeric, and the source is no wider. -/
def widens (target source : Ty) : Bool :=
  match target.rank?, source.rank? with
  | some m, some n => n ≤ m
  | _, _ => false

------------------------------------------------------------
-- Assignability
------------------------------------------------------------

/- The types fit whatever they are made of. -/
def fitsAtOnce (target source : Ty) : Bool :=
  target.isError || source.isError || target = source ||
    target = .builtin .any || source = .builtin .nothing

/- A value of the source may stand for one of the target. -/
def accepts (target source : Ty) : Bool :=
  fitsAtOnce target source ||
    (match target with
      | .union a b => accepts a source || accepts b source
      | _ => false) ||
    (match source with
      | .intersection c d =>
          accepts target c || accepts target d
      | .union c d => accepts target c && accepts target d
      | _ => widens target source)
termination_by sizeOf target + sizeOf source

end Ty

end SourceCheck
