import ChipSupport.Arm.Memory
import ChipSupport.Arm.ScriptText
import ChipSupport.License
import ChipSupport.Script.Text

/-!
# Linker script of an Arm device

The script declares the memory regions of the plan and places vectors, programs, data, heap and
stack.  On devices with a cache, data that must not be cached and data that persists are kept apart
by cache lines.

## Main definitions

* `Device.hasCache` — whether a device has a first level cache.
* `ArmScript.scriptName` — the name of a script.
* `ArmScript.lines` — the script.
-/

namespace ChipSupport

/-- Whether the device has a first level cache. -/
def Device.hasCache (d : Device) : Bool := Text.lower d.architecture == "cortex-m7"

namespace ArmScript

open Script

/-- The name of the script of a device, which for devices of the SAM family begins with `AT`. -/
def scriptName (device : String) : String :=
  let name := Text.upper device
  if "SAM".toList.isPrefixOf name.toList then "AT" ++ name else name

/-- The sections of data. -/
def dataSections (cached : Bool) : List Line :=
  fixed dataStart ++ (if cached then fixed uncachedData else []) ++ fixed dataRest
    ++ (if cached then fixed cacheLineAlign else [])
    ++ fixed (persistRest (if cached then "32" else "4"))

/-- The lines of the script with the regions of a plan. -/
def linesFor (d : Device) (plan : List Region) (reserve : Reserve) (license : License) :
    Except Fault (List Line) := do
  let block ← license.block "bsd"
  return block ++ inserted (preamble reserve.stack reserve.heap) ++ Region.memoryLines plan
    ++ fixed memoryEnds ++ [Line.blank] ++ fixed ["SECTIONS", "\x7b"] ++ fixed codeSections
    ++ [Line.blank] ++ dataSections d.hasCache ++ [Line.blank] ++ fixed runtimeSections
    ++ fixed ["\x7d"]

/-- The lines of the script. -/
def lines (d : Device) (reserve : Reserve) (license : License) : Except Fault (List Line) := do
  let plan ← d.memoryPlan
  linesFor d plan reserve license

/-- The path of the script's file, by directory and name. -/
def filePath (d : Device) : List String := [scriptName d.name, scriptName d.name ++ ".ld"]

/-- The note that a script is generated. -/
def note (d : Device) (plan : List Region) : Note :=
  ⟨.info, .armScripts, d.name ++ ": generating linker script with "
    ++ Numeral.natural plan.length ++ " memory regions"⟩

end ArmScript

end ChipSupport
