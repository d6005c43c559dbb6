import ChipSupport.Decimal.Nearest

/-!
# Reading numbers with a fraction

A number with a fraction has digits before or after a point, and possibly an exponent.  Infinities
and what is no number have names.

## Main definitions

* `Decimal.read?` — the number that a text spells.
-/

namespace ChipSupport.Decimal

/-- What is no number. -/
def notANumber : Float := 0 / 0

/-- The largest number of all. -/
def infinity : Float := 1 / 0

/-- A text whose decimal digits are those of the basic alphabet. -/
def plainDigits (s : List Char) : List Char :=
  s.map fun c => match Text.decimalValue c with
    | some d => Numeral.digitChar d
    | none => c

/-- The natural number that decimal digits spell. -/
def natural (s : List Char) : Nat := Numeral.value 10 (s.map fun c => c.toNat - 48)

/-- A sign and what follows it. -/
def splitSign : List Char → Bool × List Char
  | '-' :: rest => (true, rest)
  | '+' :: rest => (false, rest)
  | s => (false, s)

/-- The exponent after the digits of a number. -/
def exponent? : List Char → Option Int
  | [] => some 0
  | mark :: rest =>
    let (negative, digits) := splitSign rest
    if (mark == 'e' || mark == 'E') && !digits.isEmpty && digits.all Char.isDigit then
      some (if negative then -(natural digits : Int) else natural digits)
    else none

/-- The names of numbers that have no digits. -/
def names : List (String × Float) :=
  [("inf", infinity), ("infinity", infinity), ("nan", notANumber)]

/-- The number without a sign that a text spells. -/
def unsigned? (s : List Char) : Option Float :=
  let whole := s.takeWhile Char.isDigit
  let rest := s.drop whole.length
  let fraction := if rest.head? == some '.' then (rest.drop 1).takeWhile Char.isDigit else []
  let after := if rest.head? == some '.' then rest.drop (fraction.length + 1) else rest
  match names.lookup (String.ofList (s.map Char.toLower)) with
  | some x => some x
  | none =>
    if whole.isEmpty && fraction.isEmpty then none
    else (exponent? after).map fun e =>
      nearest (natural (whole ++ fraction)) (e - (fraction.length : Int))

/-- The number that a text spells, with white space around it. -/
def read? (s : List Char) : Option Float :=
  let (negative, body) := splitSign (Numeral.dropMargins (plainDigits s))
  (unsigned? body).map fun x => if negative then -x else x

end ChipSupport.Decimal
