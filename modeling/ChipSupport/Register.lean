import ChipSupport.Register.Field
import ChipSupport.Text.LetterCase

/-!
# Registers

A register of a peripheral with its bitfields.  A register that is an alias stands for a nested
group of registers.

## Main definitions

* `Register` — a register as described.
* `Register.modeTable` — the bitfields of every mode.
* `Register.sameAs` — equality up to the group mode that a register is listed under.
-/

namespace ChipSupport

/-- A register, or an alias for a nested group. -/
structure Register where
  /-- The name. -/
  name : String
  /-- The peripheral that the register belongs to. -/
  owner : String
  /-- The distance from the start of the group, in bytes. -/
  offset : Int := 0
  /-- The size of one element, in bytes. -/
  size : Int := 1
  /-- The access, by the letters `R` and `W`. -/
  rw : String := "R"
  /-- What it is. -/
  caption : String := ""
  /-- The value after a reset. -/
  initval : Int := 0
  /-- The number of elements. -/
  count : Int := 1
  /-- Whether a nested group stands here. -/
  isAlias : Bool := false
  /-- The group mode that the register is listed under. -/
  mode : String := Mode.default_
  /-- The bitfields. -/
  bitfields : List Bitfield := []
  deriving DecidableEq, Repr, Inhabited

namespace Register

/-- The bits of all bitfields. -/
def mask (r : Register) : Int := Bitfield.maskOf r.bitfields

/-- Whether the register can be read. -/
def readable (r : Register) : Bool := (Text.upper r.rw).toList.contains 'R'

/-- Whether the register can be written. -/
def writable (r : Register) : Bool := (Text.upper r.rw).toList.contains 'W'

/-- The number of bits. -/
def bitWidth (r : Register) : Int := r.size * 8

/-- The modes that bitfields list, each once, in the order of first use. -/
def modeNames (fs : List Bitfield) : List String := (fs.flatMap Bitfield.modes).eraseDups

/-- The bitfields that exist in a mode, lowest bit first. -/
def fieldsIn (fs : List Bitfield) (mode : String) : List Bitfield :=
  Bitfield.sorted (fs.filter fun f => f.modes.contains mode)

/-- The modes with their bitfields.  A register whose bitfields list no mode has the default mode
alone, without fields.  Coalescing merges the modes with the same fields. -/
def modeTable (r : Register) (coalesce : Bool) : List (String × List Bitfield) :=
  match modeNames r.bitfields with
  | [] => [(Mode.default_, [])]
  | names =>
    let table := names.map fun m => (m, fieldsIn r.bitfields m)
    if coalesce then Mode.coalesce Bitfield.sameFields table else table

/-- The bitfields of a mode; none if the table has no such mode. -/
def bitfieldsByMode (r : Register) (mode : String) (coalesce : Bool) : List Bitfield :=
  ((r.modeTable coalesce).lookup mode).getD []

/-- The bits of the bitfields of a mode. -/
def maskByMode (r : Register) (mode : String) (coalesce : Bool) : Int :=
  Bitfield.maskOf (r.bitfieldsByMode mode coalesce)

/-- Whether two registers are equal apart from captions, values and the mode they are listed
under. -/
def sameAs (r s : Register) : Bool :=
  r.name == s.name && r.offset == s.offset && r.size == s.size && r.count == s.count
    && r.rw == s.rw && r.isAlias == s.isAlias && Bitfield.sameFields r.bitfields s.bitfields

/-- Whether two lists have the same registers in the same order. -/
def sameRegisters : List Register → List Register → Bool
  | [], [] => true
  | r :: rs, s :: ss => r.sameAs s && sameRegisters rs ss
  | _, _ => false

/-- Registers in the order of their offsets. -/
def sorted (rs : List Register) : List Register :=
  rs.mergeSort fun r s => decide (r.offset ≤ s.offset)

end Register

end ChipSupport
