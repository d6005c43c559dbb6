import ChipSupport.Text.Numeral

/-!
# Bytes in base sixty-four

Four characters stand for three bytes.  Characters outside of the alphabet are passed over, and the
text is over where a group of four is filled up with equals signs.

## Main definitions

* `Base64.decode?` — the bytes that a text stands for.
-/

namespace ChipSupport.Base64

/-- The value of a character of the alphabet. -/
def value? (c : Char) : Option Nat :=
  if 'A' ≤ c ∧ c ≤ 'Z' then some (c.toNat - 65)
  else if 'a' ≤ c ∧ c ≤ 'z' then some (c.toNat - 71)
  else if '0' ≤ c ∧ c ≤ '9' then some (c.toNat + 4)
  else if c = '+' then some 62
  else if c = '/' then some 63
  else none

/-- The bytes of a text of which `group` are the values since the last complete group, the first one
first, and `pads` the equals signs since the last value. -/
def decodeOn (group : List Nat) (pads : Nat) : List Char → Option (List Nat)
  | [] => if group.isEmpty then some [] else none
  | c :: rest =>
    if c = '=' then
      if 2 ≤ group.length ∧ 4 ≤ group.length + pads + 1 then some []
      else decodeOn group (if 2 ≤ group.length then pads + 1 else pads) rest
    else match value? c, group with
      | none, _ => decodeOn group pads rest
      | some v, [a] => (decodeOn [a, v] 0 rest).map ((a * 4 + v / 16) :: ·)
      | some v, [a, b] => (decodeOn [a, b, v] 0 rest).map ((b % 16 * 16 + v / 4) :: ·)
      | some v, [_, _, b] => (decodeOn [] 0 rest).map ((b % 4 * 64 + v) :: ·)
      | some v, _ => decodeOn [v] 0 rest

/-- The bytes that a text stands for. -/
def decode? (s : String) : Option (List Nat) := decodeOn [] 0 s.toList

end ChipSupport.Base64
