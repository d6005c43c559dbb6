import ChipSupport.Decimal.Writing

/-!
# Interrupts

The interrupt vectors of a device.  Vector numbers may be negative, for the exceptions of the
processor core, may leave numbers out and may repeat.

## Main definitions

* `Interrupt`, `InterruptList` — the vectors and the sources of requests.
* `VectorSlot`, `vectorSlots` — the vector table, with a slot for every missing number.
-/

namespace ChipSupport

/-- An interrupt vector. -/
structure Interrupt where
  /-- The number. -/
  number : Int
  /-- The name. -/
  name : String
  /-- What it is. -/
  caption : String := ""
  /-- The peripheral that raises it. -/
  owner : String := ""
  /-- How the number is written. -/
  writing : Writing := .digits
  deriving DecidableEq, Repr, Inhabited

/-- The interrupts of a device. -/
structure InterruptList where
  /-- The vectors. -/
  vectors : List Interrupt := []
  /-- The sources of requests, where they differ from the vectors. -/
  requests : List Interrupt := []
  /-- The address of the vector table after a reset, or zero. -/
  defaultBaseAddress : Int := 0
  /-- The number of register sets for interrupt handlers. -/
  shadowSets : Int := 1
  /-- Whether each vector can be placed on its own. -/
  variableOffsets : Bool := false
  /-- How the address of the vector table is written. -/
  baseWriting : Writing := .digits
  /-- How the number of register sets is written. -/
  shadowWriting : Writing := .digits
  deriving DecidableEq, Repr, Inhabited

namespace InterruptList

/-- Interrupts in the order of their numbers. -/
def sorted (is : List Interrupt) : List Interrupt :=
  is.mergeSort fun i j => decide (i.number ≤ j.number)

/-- The largest vector number, or zero if there is none above it. -/
def lastVectorNumber (l : InterruptList) : Int := (l.vectors.map Interrupt.number).foldl max 0

/-- How the largest vector number is written: as the first vector writes it that has the number. -/
def lastVectorWriting (l : InterruptList) : Writing :=
  if l.lastVectorNumber = 0 then .digits
  else
    ((l.vectors.find? fun v => v.number == l.lastVectorNumber).map Interrupt.writing).getD .digits

/-- The vectors in the order of their numbers. -/
def sortedVectors (l : InterruptList) : List Interrupt := sorted l.vectors

end InterruptList

/-- A slot of the vector table. -/
inductive VectorSlot where
  /-- A number without a vector. -/
  | reserved (number : Int)
  /-- A vector. -/
  | handler (vector : Interrupt)
  deriving DecidableEq, Repr

namespace VectorSlot

/-- The number of a slot. -/
def number : VectorSlot → Int
  | reserved n => n
  | handler v => v.number

/-- The name of a slot as a member of the vector table. -/
def memberName : VectorSlot → String
  | reserved n =>
    if n < 0 then "pvReservedM" ++ Numeral.decimal (-n) else "pvReserved" ++ Numeral.decimal n
  | handler v => "pfn" ++ v.name ++ "_Handler"

/-- The vector of a slot. -/
def vector? : VectorSlot → Option Interrupt
  | reserved _ => none
  | handler v => some v

end VectorSlot

/-- The numbers from one up to but not including another. -/
def numbersBetween (first last : Int) : List Int :=
  (List.range (last - first).toNat).map fun (k : Nat) => first + k

/-- The slots of vectors from a number on, with reserved slots for the numbers left out. -/
def vectorSlotsFrom (next : Int) : List Interrupt → List VectorSlot
  | [] => []
  | v :: rest =>
    (numbersBetween next v.number).map VectorSlot.reserved
      ++ .handler v :: vectorSlotsFrom (v.number + 1) rest

/-- The slots of a vector table, from the first vector on. -/
def vectorSlots : List Interrupt → List VectorSlot
  | [] => []
  | v :: rest => .handler v :: vectorSlotsFrom (v.number + 1) rest

end ChipSupport
