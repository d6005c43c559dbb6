import ChipSupport.Arm.Header
import ChipSupport.Arm.Script
import ChipSupport.Generation

/-!
# Generating the files of an Arm device

The component headers are written first, each one once in a run, then the headers of instances and
port pins, and the main header at last.

## Main definitions

* `Document.readPeripherals` — the peripherals, with the notes on reading them.
* `ArmHeader.generate` — the headers of the device of a document.
* `ArmScript.generate` — the linker script.
-/

namespace ChipSupport

/-- Reads the peripherals of a document, and leaves the notes on reading them. -/
def Document.readPeripherals (doc : Document) : Run (List Peripheral) := do
  let (found, _, notes) := Document.Cache.peripherals doc []
  Run.leave notes
  Run.ofExcept found

namespace ArmHeader

/-- Where headers go, in which style, and under which licence. -/
structure Setting where
  /-- The output directory. -/
  output : Path
  /-- The style. -/
  style : Style
  /-- The licence block. -/
  license : License
  deriving Repr, Inhabited

/-- The note that headers are generated. -/
def note (d : Device) (style : Style) : Note :=
  ⟨.info, .armHeaders, d.name ++ ": generating " ++ style.name ++ " headers"⟩

/-- The note on a component header that was written before. -/
def knownNote (path : String) : Note := ⟨.detail, .armHeaders, path ++ " already written"⟩

/-- Writes the component header of a peripheral, unless the run has written it. -/
def writeComponent (s : Setting) (p : Peripheral) : Run Unit := do
  let path := p.headerPath s.style
  if (← get).components.contains path then Run.leave [knownNote path]
  else
    let lines ← Run.ofExcept (ComponentHeader.lines p s.style s.license)
    Run.write (s.output.child path) lines
    modify fun g => { g with components := g.components ++ [path] }

/-- Writes the component headers of peripherals and returns their paths. -/
def writeComponents (s : Setting) : List Peripheral → Run (List String)
  | [] => return []
  | p :: ps => do
    writeComponent s p
    let paths ← writeComponents s ps
    return p.headerPath s.style :: paths

/-- Writes the header of the instances and returns its path. -/
def writeInstances (s : Setting) (d : Device) (ps : List Peripheral) : Run String := do
  let path := d.headerPathIn s.style.instancesDir
  let lines ← Run.ofExcept (InstanceHeader.lines d ps s.style s.license)
  Run.write (s.output.child path) lines
  return path

/-- Writes the header of the port pins and returns its path. -/
def writePins (s : Setting) (doc : Document) (d : Device) (ps : List Peripheral) : Run String := do
  let path := d.headerPathIn s.style.pioDir
  let pads ← Run.ofExcept doc.portPinNames
  let lines ← Run.ofExcept (PinHeader.lines d pads ps s.license)
  Run.leave (Pins.notes ps)
  Run.write (s.output.child path) lines
  return path

/-- Writes the headers of the device of a document, and returns the path of the main header. -/
def generate (s : Setting) (doc : Document) (dcrs : List ConfigRegister) : Run Path := do
  let d ← Run.ofExcept doc.device
  let ps ← doc.readPeripherals
  Run.leave [note d s.style]
  let opening ← Run.ofExcept (MainHeader.opening d doc.interrupts s.style s.license)
  let components ← writeComponents s (Instances.external ps)
  let instances ← writeInstances s d ps
  let pins ← if s.style.pio then do
      let path ← writePins s doc d ps
      pure (MainHeader.includeLines "Device-specific Port IO Definitions" [path])
    else pure []
  let rest ← Run.ofExcept (MainHeader.rest doc d dcrs s.style)
  let path := s.output.child (d.headerName ++ ".h")
  Run.write path (opening
    ++ MainHeader.includeLines "Device-specific Peripheral Definitions" components
    ++ MainHeader.includeLines "Device-specific Peripheral Instance Definitions" [instances]
    ++ Instances.idLines ps s.style ++ Instances.baseLines ps s.style ++ pins ++ rest)
  return path

end ArmHeader

namespace ArmScript

/-- Writes the linker script of a device, and returns its path. -/
def generate (output : Path) (d : Device) (reserve : Script.Reserve) (license : License) :
    Run Path := do
  Run.leave d.planNotes
  let plan ← Run.ofExcept d.memoryPlan
  Run.leave [note d plan]
  let lines ← Run.ofExcept (linesFor d plan reserve license)
  let path := (filePath d).foldl Path.child output
  Run.write path lines
  return path

end ArmScript

end ChipSupport
