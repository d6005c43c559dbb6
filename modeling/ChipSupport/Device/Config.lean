import ChipSupport.Bits
import ChipSupport.Decimal.Writing
import ChipSupport.Mode

/-!
# Configuration registers

Words in the memory of a device that set it up before a program runs, and the special function
registers of devices that describe theirs in the same form.

## Main definitions

* `ConfigOption`, `ConfigField`, `ConfigMode`, `ConfigRegister` — the registers and their parts.
* `ConfigField.mask` — the bits of a field.
-/

namespace ChipSupport

/-- A named setting of a field. -/
structure ConfigOption where
  /-- The name. -/
  name : String
  /-- The value of the field. -/
  value : Int
  /-- What it does. -/
  desc : String := ""
  /-- How the value is written. -/
  valueWriting : Writing := .digits
  deriving DecidableEq, Repr, Inhabited

/-- A field of a configuration register. -/
structure ConfigField where
  /-- The name. -/
  name : String
  /-- The lowest bit. -/
  position : Int
  /-- The number of bits. -/
  width : Int
  /-- What it does. -/
  desc : String := ""
  /-- Whether the field is left out of the register's struct. -/
  hidden : Bool := false
  /-- The named settings. -/
  options : List ConfigOption := []
  /-- How the lowest bit is written. -/
  positionWriting : Writing := .digits
  /-- How the number of bits is written. -/
  widthWriting : Writing := .digits
  deriving DecidableEq, Repr, Inhabited

/-- The bits of a field, in the place they have in the register. -/
def ConfigField.mask (f : ConfigField) : Int :=
  Bits.shiftLeft (Bits.ones f.width.toNat) f.position.toNat

/-- The fields of a register in one of its modes. -/
structure ConfigMode where
  /-- The name. -/
  name : String
  /-- The fields. -/
  fields : List ConfigField := []
  deriving DecidableEq, Repr, Inhabited

/-- The fields of a mode that are not hidden. -/
def ConfigMode.visibleFields (m : ConfigMode) : List ConfigField :=
  m.fields.filter fun f => !f.hidden

/-- A configuration register or special function register. -/
structure ConfigRegister where
  /-- The name. -/
  name : String
  /-- The physical address. -/
  address : Int
  /-- The value before it is configured. -/
  default_ : Int := 0xFFFFFFFF
  /-- The bits that the device implements. -/
  impl : Int := 0xFFFFFFFF
  /-- The names of the registers behind it that clear, set and invert its bits. -/
  portals : List String := []
  /-- The modes. -/
  modes : List ConfigMode := []
  /-- The peripherals whose registers begin here. -/
  baseOf : List String := []
  /-- How the address is written. -/
  addressWriting : Writing := .digits
  /-- How the value before it is configured is written. -/
  defaultWriting : Writing := .digits
  /-- How the bits that the device implements are written. -/
  implWriting : Writing := .digits
  deriving DecidableEq, Repr, Inhabited

namespace ConfigRegister

/-- The fields of all modes, hidden ones included. -/
def fields (r : ConfigRegister) : List ConfigField := r.modes.flatMap ConfigMode.fields

/-- The name of the memory section of the register. -/
def sectionName (r : ConfigRegister) : String := "config_" ++ r.name

end ConfigRegister

end ChipSupport
