import ChipSupport.License
import ChipSupport.Mips.Memory
import ChipSupport.Mips.ScriptText
import ChipSupport.Script.Text

/-!
# Linker script of a MIPS device

The script declares the memory regions of the plan, places configuration registers in regions of
their own, and places vectors, programs and data in the layout that the startup code expects.

## Main definitions

* `MipsScript.exceptionPlace`, `MipsScript.dataPlace` — the regions that depend on the device.
* `MipsScript.trampolines` — the jumps to the vectors of devices with a fixed vector table.
* `MipsScript.lines` — the script.
-/

namespace ChipSupport.MipsScript

open Script

/-- The region of exception handlers: the exception region, if there is one. -/
def exceptionPlace (plan : List Region) : String :=
  if (plan.map Region.name).contains "exception_mem" then "exception_mem" else "kseg0_program_mem"

/-- The region of data: cached data memory, if there is some. -/
def dataPlace (plan : List Region) : String :=
  if (plan.map Region.name).contains "kseg0_data_mem" then "kseg0_data_mem" else "kseg1_data_mem"

/-- The sections of configuration registers, each in a region of its name. -/
def configSections (rs : List ConfigRegister) : List Line :=
  fixed (["SECTIONS", "\x7b"] ++ rs.flatMap (fun r =>
      ["  ." ++ r.sectionName ++ " : \x7b", "    KEEP(*(." ++ r.sectionName ++ "))",
        "  \x7d > " ++ r.sectionName, ""])
    ++ ["\x7d", ""])

/-- The data memory that debuggers use. -/
def debugData (d : MipsDevice) (region : String) : List Line :=
  fixed (["  .dbg_data (NOLOAD) :", "  \x7b", "    . += (DEFINED (_DEBUGGER) ? 0x200 : 0x0);"]
    ++ (if d.dspr2 then
        ["    /* Additional data memory required for DSPr2 registers */",
          "    . += (DEFINED (_DEBUGGER) ? 0x80 : 0x0);"]
      else [])
    ++ (if d.fpu then
        ["    /* Additional data memory required for FPU64 registers */",
          "    . += (DEFINED (_DEBUGGER) ? 0x100 : 0x0);"]
      else [])
    ++ ["  \x7d >" ++ region, ""])

/-- The numbers of the vector table, from zero to the largest vector number. -/
def vectorNumbers (l : InterruptList) : List Nat := List.range (l.lastVectorNumber + 1).toNat

/-- What the vectors that can be placed on their own begin with. -/
def variableNote : String :=
  "Symbol __vector_offset_n points to .vector_n if it exists, otherwise it points to the " ++
  "default handler. The startup code uses these value to set up the OFFxxx registers in " ++
  "the interrupt controller."

/-- What limits the place of vectors. -/
def offsetNote : String :=
  "The offset registers hold a 17-bit offset, allowing a max value less than 256*1024, " ++
  "so check for that here.  If you see this error, then one of your vectors is too large."

/-- The section of vectors that can be placed on their own. -/
def variableVectors (l : InterruptList) : List Line :=
  fixed ["  .vectors _ebase_address + 0x200 :", "  \x7b"] ++ Comment.block variableNote 4
    ++ fixed ((vectorNumbers l).flatMap fun n => variableVector (Numeral.natural n))
    ++ fixed ["    /* Default interrupt handler */", "    . = ALIGN(4) ;",
      "    __vector_offset_default = . - _ebase_address;", "    KEEP(*(.vector_default))", ""]
    ++ Comment.block offsetNote 4
    ++ fixed ["    ASSERT(__vector_offset_default < 256K, \"Error: Vector offset too large.\")",
      "  \x7d > kseg0_program_mem", ""]

/-- The jump from a slot of the vector table to its vector. -/
def trampoline (microMipsOnly : Bool) (n : Nat) : List String :=
  if microMipsOnly then shortTrampoline (Numeral.natural n) else longTrampoline (Numeral.natural n)

/-- The jumps from the slots of the vector table to the vectors. -/
def trampolines (d : MipsDevice) : List Line :=
  fixed ((if d.microMipsOnly then ["  /* j (.vector_n >> 1)", "   * ssnop", "   */"]
    else ["  /* lui k0, %hi(.vector_n)", "   * ori k0, k0, %lo(.vector_n)", "   * jr k0",
      "   * ssnop", "   */"])
    ++ (vectorNumbers d.interrupts).flatMap (trampoline d.microMipsOnly) ++ [""])

/-- The sections of programs and data. -/
def sections (d : MipsDevice) (plan : List Region) : List Line :=
  let exceptions := exceptionPlace plan
  let data := dataPlace plan
  fixed ["SECTIONS", "\x7b"] ++ fixed bootSections ++ [Line.blank]
    ++ (if d.l1cache then fixed (cacheSections exceptions) ++ [Line.blank] else [])
    ++ fixed (exceptionSection exceptions) ++ [Line.blank]
    ++ (if d.interrupts.variableOffsets then variableVectors d.interrupts else [])
    ++ fixed codeSections ++ [Line.blank] ++ debugData d data
    ++ fixed (dataSections data) ++ [Line.blank] ++ fixed debugSections ++ [Line.blank]
    ++ (if d.interrupts.variableOffsets then [] else trampolines d) ++ fixed ["\x7d"]

/-- The lines of the script. -/
def lines (d : MipsDevice) (reserve : Reserve) (license : License) : Except Fault (List Line) := do
  d.checkPlan d.dcrs
  let block ← license.block "bsd"
  d.exceptionWriting.checkHex
  if d.interrupts.variableOffsets then d.interrupts.lastVectorWriting.checkBits
  let plan := d.memoryPlan d.dcrs
  let base := "0x" ++ Numeral.hex d.exceptionBase 8
  return block ++ inserted (preamble reserve.stack reserve.heap base) ++ Region.memoryLines plan
    ++ configSections d.dcrs ++ sections d plan

/-- The path of the script's file, by directory and name. -/
def filePath (d : MipsDevice) : List String := [d.baseName, "p" ++ d.baseName ++ ".ld"]

/-- The note that a script is generated. -/
def note (d : MipsDevice) : Note :=
  ⟨.info, .mipsScripts, d.name ++ ": generating linker script with "
    ++ Numeral.natural (d.memoryPlan d.dcrs).length ++ " memory regions"⟩

end ChipSupport.MipsScript
