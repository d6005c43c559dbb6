import ChipSupport.Text.Numeral

/-!
# The binary fraction nearest to a decimal

Reading of decimals as double precision numbers.  Powers of ten that are far outside of the range of
double precision are cut short, so that the work is bounded by the length of the text.

## Main definitions

* `Decimal.nearest` — the number nearest to a decimal.
-/

namespace ChipSupport.Decimal

/-- A power of ten beyond which every decimal with that leading place is infinite or zero. -/
def range : Int := 400

/-- The number nearest to `n * 10 ^ e`. -/
def nearest (n : Nat) (e : Int) : Float :=
  let leading := e + ((Numeral.digits 10 n).length : Int)
  if n = 0 ∨ leading < -range then 0
  else if range < leading then 1 / 0
  else Float.ofScientific n (decide (e < 0)) e.natAbs

end ChipSupport.Decimal
