import ChipSupport.Mips.Device
import ChipSupport.Note
import ChipSupport.Script.Region

/-!
# Memory plan of a MIPS device

The regions that a linker script declares for the memory regions of a device, for its exception
vectors and for its configuration registers.

## Main definitions

* `bootRegions` — the layout of boot flash by its size.
* `planRegion` — the regions for one region of the device.
* `MipsDevice.exceptionRegion`, `MipsDevice.configRegion` — vectors and configuration registers.
* `MipsDevice.memoryPlan` — all regions, by address.
* `MipsDevice.checkPlan` — the faults of numbers that cannot be addresses.
-/

namespace ChipSupport

/-- The physical address at which the processor starts. -/
def resetAddress : Int := 0x1FC00000

/-- Where the exception vectors lie unless the device says otherwise. -/
def defaultExceptionBase : Int := 0x9D000000

/-- An address seen through the segment that is not cached. -/
def uncachedAddress (address : Int) : Int := kernelAddress address 1

/-- The layout of boot flash.  What the debugger reserves depends on the size. -/
def bootRegions (size : Int) : List Region :=
  if size ≤ 3 * 1024 then
    [.span "debug_exec_mem" 0x9FC00490 0x9FC00BF0,
      .span "kseg0_boot_mem" 0x9FC00490 0x9FC00490,
      .span "kseg1_boot_mem" 0xBFC00000 0xBFC00490]
  else if size ≤ 12 * 1024 then
    [.span "kseg0_boot_mem" 0x9FC00490 0x9FC00E00,
      .span "kseg1_boot_mem" 0xBFC00000 0xBFC00490,
      .span "debug_exec_mem" 0xBFC02000 0xBFC02FF0]
  else if size ≤ 20 * 1024 then
    [.span "kseg0_boot_mem" 0x9FC004B0 0x9FC004B0,
      .span "debug_exec_mem" 0x9FC20490 0x9FC23FB0,
      .span "kseg1_boot_mem" 0xBFC00000 0xBFC00490,
      .span "kseg1_boot_mem_4B0" 0xBFC004B0 0xBFC03FB0]
  else
    [.span "kseg0_boot_mem" 0x9FC004B0 0x9FC004B0,
      .span "kseg1_boot_mem" 0xBFC00000 0xBFC00490,
      .span "kseg1_boot_mem_4B0" 0xBFC004B0 0xBFC0FF00]

/-- The name that data memory has in a kernel segment. -/
def dataMemoryName (segment : Nat) : String := "kseg" ++ Numeral.natural segment ++ "_data_mem"

/-- The regions for one region of the device, possibly none. -/
def planRegion (m : MemoryRegion) : List Region :=
  let r := Region.span m.name m.first m.stop
  match m.kind with
  | .boot => if m.first = resetAddress then bootRegions r.length else [r.inSegment 1]
  | .code =>
    if Text.lower m.name = "code" then
      [{ r with name := "kseg0_program_mem", access := Access.execute + Access.read }.inSegment 0]
    else []
  | .sram =>
    match [0, 1].find? fun k => Text.lower m.name == dataMemoryName k with
    | some k => [{ r with access := Access.noExecute + Access.write }.inSegment k]
    | none => []
  | .ebi | .sqi =>
    [2, 3].map fun (k : Nat) =>
      { r with name := "kseg" ++ Numeral.natural k ++ "_" ++ m.name }.inSegment k
  | .sdram => [r.inSegment 0]
  | .fuse | .peripheral => [r.inSegment 1]
  | .unspecified => []

/-- The note on a region that has no place in a script. -/
def planNote? (m : MemoryRegion) : Option Note :=
  match m.kind with
  | .unspecified =>
    some ⟨.detail, .mipsScripts, "region " ++ m.name ++ " of type " ++ m.kind.name
      ++ " is not used by the linker script"⟩
  | _ => none

namespace MipsDevice

/-- Where the exception vectors lie. -/
def exceptionBase (d : MipsDevice) : Int :=
  if d.interrupts.defaultBaseAddress = 0 then defaultExceptionBase
  else d.interrupts.defaultBaseAddress

/-- The size of a vector of the table: eight bytes for microMIPS instructions. -/
def vectorSize (d : MipsDevice) : Int := if d.microMipsOnly then 8 else 32

/-- The region from the first exception vector up to the end of the vector table, which begins 512
bytes later. -/
def exceptionRegion (d : MipsDevice) : Region :=
  .span "exception_mem" d.exceptionBase
    (d.exceptionBase + 0x200 + d.vectorSize * (d.interrupts.lastVectorNumber + 1))

/-- How the place of the exception vectors is written. -/
def exceptionWriting (d : MipsDevice) : Writing :=
  if d.interrupts.defaultBaseAddress = 0 then .digits else d.interrupts.baseWriting

/-- The fault of an exception region whose addresses have no bits.  If one part of the last address
is written with a point, the other part is rounded before the sum is taken. -/
def checkExceptions (d : MipsDevice) : Except Fault Unit :=
  match d.exceptionWriting, d.interrupts.lastVectorWriting with
  | .digits, .digits => .ok ()
  | .digits, _ => do
    let _ ← Writing.rounded (d.exceptionBase + 0x200)
    throw .valueUnsuitable
  | _, .digits => do
    let _ ← Writing.rounded (d.vectorSize * (d.interrupts.lastVectorNumber + 1))
    throw .valueUnsuitable
  | _, _ => .error .valueUnsuitable

/-- The faults of the plan with given configuration registers, in the order of its regions. -/
def checkPlan (d : MipsDevice) (rs : List ConfigRegister) : Except Fault Unit := do
  d.regions.forM MemoryRegion.check
  unless d.interrupts.variableOffsets do d.checkExceptions
  rs.forM fun r => r.addressWriting.checkBits

/-- The region of a configuration register. -/
def configRegion (r : ConfigRegister) : Region :=
  (Region.span r.sectionName r.address (r.address + 4)).inSegment 1

/-- The regions of the device, without those of configuration registers. -/
def baseRegions (d : MipsDevice) : List Region :=
  d.regions.flatMap planRegion
    ++ if d.interrupts.variableOffsets then [] else [d.exceptionRegion]

/-- The regions of the device with those of the given configuration registers, by address. -/
def memoryPlan (d : MipsDevice) (rs : List ConfigRegister) : List Region :=
  Region.sorted (d.baseRegions ++ rs.map configRegion)

/-- The notes on regions without a place in the plan. -/
def planNotes (d : MipsDevice) : List Note := d.regions.filterMap planNote?

end MipsDevice

end ChipSupport
