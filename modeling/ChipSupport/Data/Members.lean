import ChipSupport.Data

/-!
# The order of the members of a set

A set shows its members in an order of its own.  Whole numbers stand in slots, each in the one of
its remainder or, if that is taken, in one that further steps lead to.  Sets with other members keep
the order in which the members came.

## Main definitions

* `Data.slotOrder` — whole numbers in the order of their slots.
* `Data.arranged` — members as a set shows them.
-/

namespace ChipSupport.Data

/-- The number of slots for some members: a power of two. -/
def slotCount (size members : Nat) : Nat → Nat
  | 0 => size
  | fuel + 1 => if members < size then size else slotCount (2 * size) members fuel

/-- The free slot to which steps lead from a slot, beginning with a run of neighbours.  The bits of
`rest` vary the steps. -/
def freeSlot (taken : List (Nat × Int)) (size : Nat) (slot rest : Nat) : Nat → Nat
  | 0 => slot
  | fuel + 1 =>
    let neighbours := if slot + 9 < size then 10 else 1
    match (List.range neighbours).find? fun k => (taken.lookup (slot + k)).isNone with
    | some k => slot + k
    | none =>
      let rest := rest / 32
      freeSlot taken size ((slot * 5 + 1 + rest) % size) rest fuel

/-- Whole numbers in the order of their slots. -/
def slotOrder (numbers : List Int) : List Int :=
  let size := if numbers.length * 5 < 21 then 8 else slotCount 8 (2 * numbers.length) numbers.length
  let place (taken : List (Nat × Int)) (n : Int) : List (Nat × Int) :=
    let code := if n = -1 then -2 else Int.tmod n (2305843009213693951 : Int)
    let slot := (code % (size : Int)).toNat
    let rest := (code % ((Nat.pow 2 64 : Nat) : Int)).toNat
    (freeSlot taken size slot rest (size + 64), n) :: taken
  let taken := numbers.foldl place []
  (taken.mergeSort fun a b => decide (a.1 ≤ b.1)).map Prod.snd

/-- Members as a set shows them. -/
def arranged (members : List Data) : List Data :=
  let number? : Data → Option Int
    | .int n => some n
    | _ => none
  match members.mapM number? with
  | some numbers => (slotOrder numbers).map .int
  | none => members

end ChipSupport.Data
