import ChipSupport.Decimal.Nearest
import ChipSupport.Decimal.Shortest
import ChipSupport.Fault

/-!
# How whole numbers are written

A whole number can be written by its digits, or with a point or an exponent.  A number with a point
is a double precision number: it is shown as one, and it has no bits.

## Main definitions

* `Writing` — the ways to write a whole number.
* `Writing.text` — the text of a number that is written in a way.
* `Writing.rounded` — a whole number as a double precision number.
-/

namespace ChipSupport

/-- A way to write a whole number. -/
inductive Writing where
  /-- By its digits. -/
  | digits
  /-- With a point or an exponent. -/
  | point
  /-- With a point or an exponent, for zero with a sign. -/
  | minusZero
  deriving DecidableEq, Repr, Inhabited

namespace Writing

/-- The way in which a double precision number is written. -/
def ofFloat (x : Float) : Writing :=
  match Decimal.Parts.ofFloat x with
  | .finite true 0 _ => minusZero
  | _ => point

/-- A whole number as the double precision number next to it, if that is finite. -/
def rounded (n : Int) : Except Fault Float :=
  let x := Decimal.nearest n.natAbs 0
  if x.isInf then .error .fractionTooLarge else .ok (if n < 0 then -x else x)

/-- The double precision number that a number with a point is. -/
def float? (w : Writing) (n : Int) : Option Float :=
  match w with
  | digits => none
  | point => (rounded n).toOption
  | minusZero => some (-0.0)

/-- The text of a number. -/
def text (w : Writing) (n : Int) : String :=
  match w.float? n with
  | some x => Decimal.render x
  | none => Numeral.decimal n

/-- The fault of writing a number with too many digits. -/
def checkLength (w : Writing) (n : Int) : Except Fault Unit :=
  if w = digits ∧ Numeral.tooLong n then .error .numberTooLong else .ok ()

/-- The fault of taking the bits of a number with a point. -/
def checkBits (w : Writing) : Except Fault Unit :=
  if w = digits then .ok () else .error .valueUnsuitable

/-- The fault of writing a number with a point in base sixteen. -/
def checkHex (w : Writing) : Except Fault Unit :=
  if w = digits then .ok () else .error .fractionInHex

end Writing

end ChipSupport
