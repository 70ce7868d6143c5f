/-
  Sets of characters given by ranges of code points.

  Key definitions include:
    * `CharRange`
    * `CharRange.anyHas`
-/

namespace SourceCheck

------------------------------------------------------------
-- Ranges
------------------------------------------------------------

/- All code points from the first to the last. -/
structure CharRange where
  first : Nat
  last : Nat
deriving DecidableEq

namespace CharRange

/- The character lies in the range. -/
def has (r : CharRange) (c : Char) : Bool :=
  r.first ≤ c.toNat && c.toNat ≤ r.last

/- The character lies in one of the ranges. -/
def anyHas (rs : List CharRange) (c : Char) : Bool :=
  rs.any (·.has c)

end CharRange

end SourceCheck
