import ChipSupport.Generation
import ChipSupport.Mips.Header
import ChipSupport.Mips.Script

/-!
# Generating the files of a MIPS device
-/

namespace ChipSupport

/-- Writes the header of a device, and returns its path. -/
def MipsHeader.generate (output : Path) (d : MipsDevice) (license : License) : Run Path := do
  Run.leave (note d :: d.planNotes)
  let lines ← Run.ofExcept (lines d license)
  let path := output.child (fileName d)
  Run.write path lines
  return path

/-- Writes the linker script of a device, and returns its path. -/
def MipsScript.generate (output : Path) (d : MipsDevice) (reserve : Script.Reserve)
    (license : License) : Run Path := do
  Run.leave (d.planNotes ++ [note d])
  let lines ← Run.ofExcept (lines d reserve license)
  let path := (filePath d).foldl Path.child output
  Run.write path lines
  return path

end ChipSupport
