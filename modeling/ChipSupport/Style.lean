import ChipSupport.Layouts
import ChipSupport.Naming
import ChipSupport.Register.Vector

/-!
# Styles

The choices that set the flavours of headers apart.  A style is one of three presets, possibly with
some choices replaced.

## Main definitions

* `Style` — the choices.
* `Style.legacy`, `Style.atmel`, `Style.microchip`, `Style.preset?` — the presets.
* `Style.qualifier` — the access qualifier of a register in a struct.
-/

namespace ChipSupport

/-- What is defined for a field of a single bit, apart from its position. -/
inductive SingleBit where
  /-- Its mask twice, under its own name and with an ending. -/
  | mask
  /-- Its mask under its own name only. -/
  | plain
  /-- Its mask and its value in place, as for wider fields. -/
  | value
  deriving DecidableEq, Repr, Inhabited

/-- How the addresses of registers are defined. -/
inductive AddressForm where
  /-- By access macros, which are defined first. -/
  | wrapped
  /-- Once for assemblers and once for compilers. -/
  | split
  /-- By access macros that are defined elsewhere. -/
  | bare
  deriving DecidableEq, Repr, Inhabited

/-- How the base addresses of instances are defined. -/
inductive BaseForm where
  /-- As pointers to the struct of the peripheral, with lists of the instances. -/
  | pointers
  /-- As pointers to registers, and as plain numbers. -/
  | regs
  deriving DecidableEq, Repr, Inhabited

namespace SingleBit

/-- The name of a choice. -/
def name : SingleBit → String
  | mask => "mask"
  | plain => "plain"
  | value => "value"

/-- The choice of a name. -/
def ofName (s : String) : SingleBit :=
  if s = "plain" then plain else if s = "value" then value else mask

end SingleBit

namespace AddressForm

/-- The name of a choice. -/
def name : AddressForm → String
  | wrapped => "wrapped"
  | split => "split"
  | bare => "bare"

/-- The choice of a name. -/
def ofName (s : String) : AddressForm :=
  if s = "wrapped" then wrapped else if s = "split" then split else bare

end AddressForm

namespace BaseForm

/-- The name of a choice. -/
def name : BaseForm → String
  | pointers => "pointers"
  | regs => "regs"

/-- The choice of a name. -/
def ofName (s : String) : BaseForm := if s = "pointers" then pointers else regs

end BaseForm

/-- The choices of a style. -/
structure Style where
  /-- The name. -/
  name : String
  /-- The convention for names. -/
  convention : Convention := .pascal true
  /-- The vendor terms in the licence block. -/
  license : String := "apache"
  /-- Whether a header for port pins is written. -/
  pio : Bool := true
  /-- Whether the numbers of events are defined. -/
  events : Bool := false
  /-- Whether configuration registers are defined. -/
  configRegs : Bool := true
  /-- What becomes of a vector field whose name returns. -/
  vectorDuplicates : Duplicates := .gap
  /-- Whether registers have union types. -/
  registerUnions : Bool := true
  /-- Whether bitfield modes with the same fields are merged. -/
  coalesceModes : Bool := true
  /-- The ending of an offset's name. -/
  offsetMacro : String := "_OFFSET"
  /-- The endings of a register mask's names. -/
  maskMacros : List String := ["_MASK", "_Msk"]
  /-- Whether names of fields and options carry the mode, and masks are defined per mode. -/
  modeAware : Bool := true
  /-- What is defined for single bits. -/
  singleBit : SingleBit := .mask
  /-- The symbol that decides on the declarations of the system clock. -/
  cmsisInitMacro : String := "DONT_USE_CMSIS_INIT"
  /-- Whether the largest interrupt number is defined. -/
  periphMaxIrq : Bool := false
  /-- Whether the largest instance number is defined. -/
  periphMaxId : Bool := false
  /-- How base addresses are defined. -/
  baseAddresses : BaseForm := .pointers
  /-- How the addresses of registers are defined. -/
  instanceMacros : AddressForm := .wrapped
  /-- The access qualifiers: for reading only, for writing only, for both, and for nested groups. -/
  qualifiers : List String := ["__IM ", "__OM ", "__IOM", "     "]
  /-- The column of remarks in a group's struct. -/
  remarkColumn : Int := 56
  /-- The directory of component headers. -/
  componentDir : String := "component"
  /-- The directory of instance headers. -/
  instancesDir : String := "instances"
  /-- The directory of port pin headers. -/
  pioDir : String := "pio"
  /-- The layouts that are replaced. -/
  layouts : Layouts := []
  deriving Repr, Inhabited

namespace Style

/-- Register unions, a header for port pins, and configuration registers. -/
def legacy : Style := { name := "legacy" }

/-- Register unions in an older layout, and events. -/
def atmel : Style :=
  { name := "atmel"
    convention := .pascal false
    license := "microchip"
    pio := false
    events := true
    configRegs := false
    vectorDuplicates := .drop
    coalesceModes := false
    maskMacros := ["_MASK"]
    modeAware := false
    singleBit := .plain
    cmsisInitMacro := "USE_CMSIS_INIT"
    periphMaxIrq := true
    periphMaxId := true
    baseAddresses := .regs
    instanceMacros := .split
    qualifiers := ["__I ", "__O ", "__IO", "    "]
    remarkColumn := 48
    layouts := .ofTexts [("reserved", "       RoReg8")] }

/-- Registers without unions. -/
def microchip : Style :=
  { name := "microchip"
    convention := .snake
    license := "microchip"
    pio := false
    events := true
    vectorDuplicates := .drop
    registerUnions := false
    coalesceModes := false
    offsetMacro := "_REG_OFST"
    maskMacros := ["_Msk"]
    singleBit := .value
    cmsisInitMacro := "USE_CMSIS_INIT"
    periphMaxIrq := true
    periphMaxId := true
    baseAddresses := .regs
    layouts := .ofTexts [("modeMember", "    $type")] }

/-- The presets. -/
def presets : List Style := [legacy, atmel, microchip]

/-- The preset of a name. -/
def preset? (name : String) : Option Style := presets.find? fun s => s.name == name

/-- The access qualifier of a register in a struct. -/
def qualifier (s : Style) (r : Register) : Except Fault String :=
  match s.qualifiers with
  | [readOnly, writeOnly, readWrite, alias_] =>
    if r.isAlias then .ok alias_
    else if r.readable && !r.writable then .ok readOnly
    else if r.writable && !r.readable then .ok writeOnly
    else .ok readWrite
  | qualifiers => .error (.qualifierCount qualifiers.length)

end Style

end ChipSupport
