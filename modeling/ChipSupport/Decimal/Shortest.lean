import ChipSupport.Text.Numeral

/-!
# Shortest decimal text of a binary fraction

A double precision number is shown with the fewest decimal digits that read back as the same
number, and of those with the digits nearest to it.

## Main definitions

* `Parts.ofFloat` — sign, mantissa and exponent of a number.
* `shortest` — the digits and the place of the decimal point.
* `render` — the text, positional for exponents from `-4` to `15`.
-/

namespace ChipSupport.Decimal

/-- The finite number `± mantissa * 2 ^ exponent`, or one that is not finite. -/
inductive Parts where
  /-- Not a number. -/
  | nan
  /-- An infinity, negative or not. -/
  | infinite (negative : Bool)
  /-- A finite number. -/
  | finite (negative : Bool) (mantissa : Nat) (exponent : Int)
  deriving DecidableEq, Repr

/-- The parts of a double precision number. -/
def Parts.ofFloat (x : Float) : Parts :=
  let bits := x.toBits.toNat
  let negative := decide (Nat.pow 2 63 ≤ bits)
  let biased : Nat := bits / Nat.pow 2 52 % Nat.pow 2 11
  let low : Nat := bits % Nat.pow 2 52
  if biased = 2047 then if low = 0 then .infinite negative else .nan
  else if biased = 0 then .finite negative low (-1074)
  else .finite negative (Nat.pow 2 52 + low) ((biased : Int) - 1075)

/-- The numbers that round to a given one, over the denominator `den`: from `low` to `high`, ends
included or not, with the number itself at `mid`. -/
structure Interval where
  /-- The lower end. -/
  low : Nat
  /-- The number. -/
  mid : Nat
  /-- The upper end. -/
  high : Nat
  /-- The common denominator. -/
  den : Nat
  /-- Whether the ends round to the number as well. -/
  closed : Bool

/-- The numbers nearest to `m * 2 ^ e`.  Below a power of two neighbours are half as far apart. -/
def Interval.around (m : Nat) (e : Int) : Interval :=
  let narrow := m = Nat.pow 2 52 ∧ -1074 < e
  let scale := Nat.pow 2 e.toNat
  { low := (4 * m - if narrow then 1 else 2) * scale
    mid := 4 * m * scale
    high := (4 * m + 2) * scale
    den := 4 * Nat.pow 2 (-e).toNat
    closed := m % 2 == 0 }

/-- Whether `n / d` rounds to the number. -/
def Interval.holds (i : Interval) (n d : Nat) : Bool :=
  let a := i.low * d
  let b := n * i.den
  let c := i.high * d
  if i.closed then decide (a ≤ b ∧ b ≤ c) else decide (a < b ∧ b < c)

/-- The best multiple of `10 ^ e` that rounds to the number: its digits, if there is one. -/
def Interval.onGrid (i : Interval) (e : Int) : Option Nat :=
  let up := Nat.pow 10 e.toNat
  let down := Nat.pow 10 (-e).toNat
  let k := i.mid * down / (i.den * up)
  let gap (n : Nat) : Int := ((n * up * i.den : Nat) : Int) - ((i.mid * down : Nat) : Int)
  match i.holds (k * up) down, i.holds ((k + 1) * up) down with
  | true, true =>
    if (gap k).natAbs < (gap (k + 1)).natAbs then some k
    else if (gap (k + 1)).natAbs < (gap k).natAbs then some (k + 1)
    else if k % 2 = 0 then some k else some (k + 1)
  | true, false => some k
  | false, true => some (k + 1)
  | false, false => none

/-- The exponent of the highest decimal digit of `mid / den`. -/
def Interval.magnitude (i : Interval) : Int :=
  let guess : Int := ((Numeral.digits 10 i.mid).length : Int) - (Numeral.digits 10 i.den).length
  if i.mid * Nat.pow 10 (-guess).toNat < i.den * Nat.pow 10 guess.toNat then guess - 1 else guess

/-- Digits without zeros at the end. -/
def dropZeros (ds : List Nat) : List Nat := (ds.reverse.dropWhile (· == 0)).reverse

/-- The shortest digits of `m * 2 ^ e` and the number of them before the decimal point. -/
def shortest (m : Nat) (e : Int) : List Nat × Int :=
  let i := Interval.around m e
  let top := i.magnitude
  let hit := (List.range 17).findSome? fun n =>
    (i.onGrid (top - (n : Nat))).map fun k => (Numeral.digits 10 k, top - (n : Nat))
  match hit with
  | some (ds, e) => (dropZeros ds, e + ds.length)
  | none => ([0], 1)

/-- The characters of digits. -/
def digitText (ds : List Nat) : String := String.ofList (ds.map Numeral.digitChar)

/-- Zeros. -/
def zeroDigits (n : Int) : List Nat := List.replicate n.toNat 0

/-- The text of a positive number from its digits and the place of the point. -/
def place (ds : List Nat) (point : Int) : String :=
  if -4 < point ∧ point ≤ 16 then
    if point ≤ 0 then "0." ++ digitText (zeroDigits (-point) ++ ds)
    else if ds.length ≤ point then digitText (ds ++ zeroDigits (point - ds.length)) ++ ".0"
    else digitText (ds.take point.toNat) ++ "." ++ digitText (ds.drop point.toNat)
  else
    let e := point - 1
    let mantissa := match ds with
      | [] => "0"
      | [d] => digitText [d]
      | d :: rest => digitText [d] ++ "." ++ digitText rest
    let size := Numeral.natural e.natAbs
    mantissa ++ "e" ++ (if e < 0 then "-" else "+") ++ Numeral.fill '0' size.length 2 ++ size

/-- The shortest text that reads back as the number. -/
def render (x : Float) : String :=
  match Parts.ofFloat x with
  | .nan => "nan"
  | .infinite negative => if negative then "-inf" else "inf"
  | .finite negative m e =>
    (if negative then "-" else "")
      ++ if m = 0 then "0.0" else let (ds, point) := shortest m e; place ds point

/-- The integer that a number is, if it is finite and has no fraction. -/
def integral? (x : Float) : Option Int :=
  match Parts.ofFloat x with
  | .finite negative m e =>
    let size : Option Nat :=
      if 0 ≤ e then some (m * Nat.pow 2 e.toNat)
      else if m % Nat.pow 2 (-e).toNat = 0 then some (m / Nat.pow 2 (-e).toNat) else none
    size.map fun n => if negative then -(n : Int) else n
  | _ => none

/-- The integer part of a finite number, cut toward zero. -/
def truncated? (x : Float) : Option Int :=
  match Parts.ofFloat x with
  | .finite negative m e =>
    let n := if 0 ≤ e then m * Nat.pow 2 e.toNat else m / Nat.pow 2 (-e).toNat
    some (if negative then -(n : Int) else n)
  | _ => none

end ChipSupport.Decimal
