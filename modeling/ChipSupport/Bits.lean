/-!
# Bit patterns of integers

An integer is read as an infinite two's complement word: bits `0, 1, 2, …` from the least
significant one on, and all but finitely many bits equal to the sign.  Masks, addresses and
register values are such integers, so that no operation here depends on a word size.

## Main definitions

* `Bits.conj`, `Bits.disj`, `Bits.compl` — and, or and complement.
* `Bits.bit`, `Bits.shiftLeft`, `Bits.ones` — single bits, shifting and blocks of ones.
* `Bits.bitLength`, `Bits.lowest`, `Bits.highest`, `Bits.population` — the shape of a mask.
-/

namespace ChipSupport.Bits

/-- The bits set in both integers. -/
def conj : Int → Int → Int
  | .ofNat a, .ofNat b => Int.ofNat (a &&& b)
  | .ofNat a, .negSucc b => Int.ofNat (a ^^^ (a &&& b))
  | .negSucc a, .ofNat b => Int.ofNat (b ^^^ (a &&& b))
  | .negSucc a, .negSucc b => Int.negSucc (a ||| b)

/-- The bits set in either integer. -/
def disj : Int → Int → Int
  | .ofNat a, .ofNat b => Int.ofNat (a ||| b)
  | .ofNat a, .negSucc b => Int.negSucc (b ^^^ (a &&& b))
  | .negSucc a, .ofNat b => Int.negSucc (a ^^^ (a &&& b))
  | .negSucc a, .negSucc b => Int.negSucc (a &&& b)

/-- The bits not set in an integer. -/
def compl (a : Int) : Int := -a - 1

/-- The integer whose only bit is bit `k`. -/
def bit (k : Nat) : Int := (Nat.pow 2 k : Nat)

/-- All bits moved up by `k` places. -/
def shiftLeft (a : Int) (k : Nat) : Int := a * bit k

/-- The integer whose `k` lowest bits are set. -/
def ones (k : Nat) : Int := bit k - 1

/-- The number of digits of the magnitude in base two. -/
def bitLength (a : Int) : Nat := if a = 0 then 0 else a.natAbs.log2 + 1

/-- The bits of the magnitude that are set, lowest first. -/
def positions (a : Int) : List Nat := (List.range (bitLength a)).filter a.natAbs.testBit

/-- The number of bits of the magnitude that are set. -/
def population (a : Int) : Nat := (positions a).length

/-- The lowest set bit of a mask.  The empty mask counts as lying above every register, at bit
64. -/
def lowest (a : Int) : Int := if a = 0 then 64 else (bitLength (conj a (-a)) : Int) - 1

/-- The highest set bit of the magnitude of a mask, with bit 64 for the empty mask. -/
def highest (a : Int) : Int := if a = 0 then 64 else (bitLength a : Int) - 1

/-- The union of a list of masks. -/
def union (masks : List Int) : Int := masks.foldl disj 0

@[simp] theorem union_nil : union [] = 0 := rfl

end ChipSupport.Bits
