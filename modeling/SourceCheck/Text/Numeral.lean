/-
  Numerals in a radix.

  A numeral is a non-empty run of digits, the more
  significant ones first.  The letters, in either case, are
  the digits from ten on.

  Key definitions include:
    * `digit?`
    * `numeral?`
    * `unsigned?`
    * `signed?`
-/

namespace SourceCheck

------------------------------------------------------------
-- Digits
------------------------------------------------------------

/- The value of a digit or a letter. -/
def digitValue? (c : Char) : Option Nat :=
  if '0' ≤ c && c ≤ '9' then
    some (c.toNat - '0'.toNat)
  else if 'a' ≤ c && c ≤ 'z' then
    some (c.toNat - 'a'.toNat + 10)
  else if 'A' ≤ c && c ≤ 'Z' then
    some (c.toNat - 'A'.toNat + 10)
  else
    none

/- The value of a digit of the radix. -/
def digit? (radix : Nat) (c : Char) : Option Nat :=
  (digitValue? c).filter (· < radix)

------------------------------------------------------------
-- Numerals
------------------------------------------------------------

/- The value of a run of digit values. -/
def digitsValue (radix : Nat) (ds : List Nat) : Nat :=
  ds.foldl (fun n d => n * radix + d) 0

/- The value of a non-empty run of digits. -/
def numeral? (radix : Nat) (cs : List Char) : Option Nat :=
  if cs.isEmpty then
    none
  else
    (cs.mapM (digit? radix)).map (digitsValue radix)

/-
  The value of a numeral, which may follow a plus sign and
  must lie below the limit.
-/
def unsigned?
    (radix limit : Nat)
    (cs : List Char) :
    Option Nat :=
  let digits :=
    match cs with
    | '+' :: ds => ds
    | _ => cs
  (numeral? radix digits).filter (· < limit)

/-
  The value of a numeral, which may follow a sign.  The
  negative values reach down to the limit, the others stay
  below it.
-/
def signed?
    (radix limit : Nat)
    (cs : List Char) :
    Option Int :=
  match cs with
  | '-' :: ds =>
      ((numeral? radix ds).filter (· ≤ limit)).map
        fun n => -(n : Int)
  | _ =>
      (unsigned? radix limit cs).map Int.ofNat

end SourceCheck
