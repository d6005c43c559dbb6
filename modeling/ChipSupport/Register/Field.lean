import ChipSupport.Bits
import ChipSupport.Mode
import ChipSupport.Fault

/-!
# Fields of a register

A bitfield is described by its mask.  In the struct of a register it is a named member, and bits
that no field covers are gaps.

## Main definitions

* `NamedValue` — a value with a name, such as an option of a bitfield.
* `Bitfield` — a bitfield as described.
* `NamedField`, `Field` — members of a struct of bits.
-/

namespace ChipSupport

/-- A value with a name: an option of a bitfield, or a parameter of a device or instance. -/
structure NamedValue where
  /-- The name. -/
  name : String
  /-- The value, as written. -/
  value : String := ""
  /-- What it is. -/
  caption : String := ""
  deriving DecidableEq, Repr, Inhabited

/-- A bitfield of a register. -/
structure Bitfield where
  /-- The name. -/
  name : String
  /-- The bits of the register that belong to the field. -/
  mask : Int
  /-- What it is. -/
  caption : String := ""
  /-- The modes in which the field exists. -/
  modes : List String := [Mode.default_]
  /-- The options, if the field has some. -/
  values : List NamedValue := []
  /-- The register that the field was described under. -/
  register : String := ""
  deriving DecidableEq, Repr, Inhabited

/-- A field of a struct: a bitfield or several merged into one. -/
structure NamedField where
  /-- The name. -/
  name : String
  /-- The bits that belong to the field. -/
  mask : Int
  /-- What it is. -/
  caption : String := ""
  deriving DecidableEq, Repr, Inhabited

/-- A member of a struct of bits. -/
inductive Field where
  /-- A field with a name. -/
  | named (field : NamedField)
  /-- Unnamed bits, from a bit on. -/
  | gap (lsb width : Int)
  deriving DecidableEq, Repr, Inhabited

namespace Bitfield

/-- The lowest bit. -/
def lsb (f : Bitfield) : Int := Bits.lowest f.mask

/-- The highest bit. -/
def msb (f : Bitfield) : Int := Bits.highest f.mask

/-- The number of bits. -/
def width (f : Bitfield) : Nat := Bits.population f.mask

/-- Whether two bitfields have the same name and bits. -/
def sameAs (f g : Bitfield) : Bool := f.name == g.name && f.mask == g.mask

/-- Whether two lists have the same bitfields in the same order. -/
def sameFields : List Bitfield → List Bitfield → Bool
  | [], [] => true
  | f :: fs, g :: gs => f.sameAs g && sameFields fs gs
  | _, _ => false

/-- The bitfield as a member of a struct. -/
def toNamed (f : Bitfield) : NamedField := ⟨f.name, f.mask, f.caption⟩

/-- Bitfields in the order of their lowest bits. -/
def sorted (fs : List Bitfield) : List Bitfield := fs.mergeSort fun f g => decide (f.lsb ≤ g.lsb)

/-- The bits of all fields of a list. -/
def maskOf (fs : List Bitfield) : Int := Bits.union (fs.map Bitfield.mask)

end Bitfield

namespace NamedField

/-- The lowest bit. -/
def lsb (f : NamedField) : Int := Bits.lowest f.mask

/-- The highest bit. -/
def msb (f : NamedField) : Int := Bits.highest f.mask

/-- The number of bits. -/
def width (f : NamedField) : Nat := Bits.population f.mask

end NamedField

namespace Field

/-- The name, which a gap has not. -/
def name : Field → String
  | .named f => f.name
  | .gap _ _ => ""

/-- The lowest bit. -/
def lsb : Field → Int
  | .named f => f.lsb
  | .gap lsb _ => lsb

/-- The highest bit. -/
def msb : Field → Int
  | .named f => f.msb
  | .gap lsb width => lsb + width - 1

/-- The number of bits. -/
def width : Field → Int
  | .named f => f.width
  | .gap _ width => width

/-- The bits. -/
def mask : Field → Int
  | .named f => f.mask
  | .gap lsb width => Bits.shiftLeft (Bits.ones width.toNat) lsb.toNat

/-- The bits, which a gap of negative width or position has not. -/
def mask? : Field → Except Fault Int
  | .named f => .ok f.mask
  | .gap lsb width =>
    if width < 0 ∨ lsb < 0 then .error .shiftNegative else .ok (Field.gap lsb width).mask

/-- The fields with a name among members. -/
def namedOnly (fields : List Field) : List NamedField :=
  fields.filterMap fun
    | .named f => some f
    | .gap _ _ => none

end Field

end ChipSupport
