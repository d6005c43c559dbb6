import ChipSupport.Fault

/-!
# Numerals of limited length

Decimal numerals are read up to a number of digits only.  Bases that are powers of two have no such
limit.

## Main definitions

* `Numeral.parse` — the integer that a text spells in a base, or what is wrong with it.
-/

namespace ChipSupport.Numeral

/-- A text without the sign in front. -/
def dropSign : List Char → List Char
  | '-' :: rest => rest
  | '+' :: rest => rest
  | s => s

/-- The digits and underscores at the beginning of a numeral in base ten. -/
def digitRun (s : List Char) : List Char :=
  (dropSign (dropMargins s)).takeWhile fun c => c = '_' || (digitBelow 10 c).isSome

/-- The number of digits at the beginning of a decimal numeral, if it is too large. -/
def excess? (s : List Char) : Option Nat :=
  let run := digitRun s
  let count := (run.filter (· != '_')).length
  if longest < count ∧ (readDigits 10 run).isSome then some count else none

/-- The integer that a text spells in a base, or what is wrong with it. -/
def parse (base : Nat) (s : List Char) : Except Fault Int :=
  match if base = 10 then excess? s else none, read base s with
  | some count, _ => .error (.numeralTooLong count)
  | none, some n => .ok n
  | none, none => .error (.numeralMalformed base (String.ofList s))

end ChipSupport.Numeral
