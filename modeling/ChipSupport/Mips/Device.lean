import ChipSupport.Device.Config
import ChipSupport.Device.Interrupt
import ChipSupport.Text.LetterCase

/-!
# MIPS devices

A device as its description gives it: memory regions, interrupts, registers and the features of its
processor core.

## Main definitions

* `RegionKind`, `MemoryRegion` — regions of physical memory.
* `MipsDevice` — a device.
* `MipsDevice.baseName`, `MipsDevice.series` — parts of its name.
-/

namespace ChipSupport

/-- What a region of memory is for. -/
inductive RegionKind where
  /-- The program that starts the device. -/
  | boot
  /-- Programs. -/
  | code
  /-- Data. -/
  | sram
  /-- The external bus. -/
  | ebi
  /-- The serial quad interface. -/
  | sqi
  /-- External dynamic memory. -/
  | sdram
  /-- Configuration words. -/
  | fuse
  /-- Registers of peripherals. -/
  | peripheral
  /-- Anything else. -/
  | unspecified
  deriving DecidableEq, Repr, Inhabited

namespace RegionKind

/-- All kinds. -/
def all : List RegionKind := [boot, code, sram, ebi, sqi, sdram, fuse, peripheral, unspecified]

/-- The name of a kind. -/
def name : RegionKind → String
  | boot => "BOOT"
  | code => "CODE"
  | sram => "SRAM"
  | ebi => "EBI"
  | sqi => "SQI"
  | sdram => "SDRAM"
  | fuse => "FUSE"
  | peripheral => "PERIPHERAL"
  | unspecified => "UNSPECIFIED"

/-- The kind of a name. -/
def ofName? (s : String) : Option RegionKind := all.find? fun k => k.name == s

end RegionKind

/-- A region of physical memory. -/
structure MemoryRegion where
  /-- The name. -/
  name : String
  /-- What it is for. -/
  kind : RegionKind
  /-- The first address. -/
  first : Int
  /-- The address after the last one. -/
  stop : Int
  /-- How the first address is written. -/
  firstWriting : Writing := .digits
  /-- How the address after the last one is written. -/
  stopWriting : Writing := .digits
  deriving DecidableEq, Repr, Inhabited

namespace MemoryRegion

/-- The number of bytes of a region. -/
def length (r : MemoryRegion) : Int := r.stop - r.first

/-- The number of bytes of a region as a double precision number, if one of its addresses is written
with a point. -/
def roundedLength? (r : MemoryRegion) : Except Fault (Option Float) := do
  if r.firstWriting = .digits ∧ r.stopWriting = .digits then return none
  return some ((← Writing.rounded r.stop) - (← Writing.rounded r.first))

/-- The fault of a region whose addresses have no bits. -/
def check (r : MemoryRegion) : Except Fault Unit := do
  r.firstWriting.checkBits
  r.stopWriting.checkBits

end MemoryRegion

/-- A device with a MIPS core. -/
structure MipsDevice where
  /-- The name. -/
  name : String
  /-- The instruction set. -/
  arch : String := "mips32r2"
  /-- The subfamily. -/
  subfamily : String := ""
  /-- Whether it has a floating point unit. -/
  fpu : Bool := false
  /-- Whether it has a first level cache. -/
  l1cache : Bool := false
  /-- Whether it executes the 32 bit instructions. -/
  mips32 : Bool := true
  /-- Whether it executes the microMIPS instructions. -/
  micromips : Bool := false
  /-- Whether it executes the MIPS16 instructions. -/
  mips16 : Bool := false
  /-- Whether it has the signal processing extension. -/
  dspr2 : Bool := false
  /-- Whether it has the microcontroller extension. -/
  mcuase : Bool := false
  /-- The memory regions. -/
  regions : List MemoryRegion := []
  /-- The interrupts. -/
  interrupts : InterruptList := {}
  /-- The special function registers. -/
  sfrs : List ConfigRegister := []
  /-- The configuration registers. -/
  dcrs : List ConfigRegister := []
  deriving DecidableEq, Repr, Inhabited

namespace MipsDevice

/-- A text without its first characters. -/
def dropStart (s : String) (n : Nat) : String := String.ofList (s.toList.drop n)

/-- The first characters of a text. -/
def takeStart (s : String) (n : Nat) : String := String.ofList (s.toList.take n)

/-- The name without the letters `PIC` in front. -/
def baseName (d : MipsDevice) : String :=
  if "PIC".toList.isPrefixOf (Text.upper d.name).toList then dropStart d.name 3 else d.name

/-- The series, from the first letters of the name. -/
def series (d : MipsDevice) : String :=
  if "M".toList.isPrefixOf d.name.toList then takeStart d.name 3
  else if "USB".toList.isPrefixOf d.name.toList then takeStart d.name 5
  else takeStart d.name 7

/-- Whether the device executes microMIPS instructions and no others. -/
def microMipsOnly (d : MipsDevice) : Bool := d.micromips && !d.mips32

end MipsDevice

end ChipSupport
