import ChipSupport.Arm.Generate
import ChipSupport.CommandLine
import ChipSupport.Markup
import ChipSupport.Mips.Description
import ChipSupport.Mips.Generate
import ChipSupport.Note.Log
import ChipSupport.Style.Settings
import ChipSupport.Yaml

/-!
# The program

The program finds the documents and descriptions of the devices that a command line names, and
generates their files one device after the other.

## Main definitions

* `Program.findDocument` — the document of a device.
* `Program.loadStyle`, `Program.loadDevice` — reading style files and descriptions.
* `Program.run` — what a request does.
* `Program.finish` — how the program ends.
-/

namespace ChipSupport.Program

/-- The documents in and below a directory, by the name of the device that they are named after. -/
def documents (fs : Files) (packs : Path) : List (String × Path) :=
  let place := packs.location
  (fs.below place).filterMap fun q =>
    let steps := q.drop place.length
    let (stem, ending) := Path.splitEnding (steps.getLast?.getD "")
    if Text.lower ending == ".atdf" then
      some (Text.upper stem, { packs with parts := packs.parts ++ steps })
    else none

/-- The names under which the document of a device may be filed: its name, and for devices of the
SAM family also the name with `AT` in front. -/
def filedNames (device : String) : List String :=
  let name := Text.upper device
  if "SAM".toList.isPrefixOf name.toList then [name, "AT" ++ name] else [name]

/-- The document of a device. -/
def findDocument (fs : Files) (packs : Path) (device : String) : Except Fault Path := do
  let found := if ← fs.holdsDirectory packs then documents fs packs else []
  match (filedNames device).findSome? fun name => found.lookup name with
  | some p => return p
  | none => throw (.documentNotFound device packs.render)

/-- Reads a document. -/
def loadDocument (p : Path) : Run Document := do
  let text ← Run.read p
  Run.ofExcept ((Markup.read text).bind fun d => Document.ofData d p.render)

/-- Reads a style with the settings of a file. -/
def loadStyle (name : String) (file : Option Path) : Run Style := do
  let style ← Run.ofExcept (StyleSettings.preset name)
  match file with
  | none => return style
  | some p =>
    let text ← Run.read p
    Run.ofExcept ((Yaml.read text).bind fun d => StyleSettings.apply style d p.render)

/-- Reads a description. -/
def loadDevice (p : Path) : Run MipsDevice := do
  let text ← Run.read p
  let d ← Run.ofExcept (Yaml.read text)
  if d matches .null then throw (.descriptionEmpty p.render)
  let device ← Run.ofExcept (Description.device d p.render)
  Run.leave [Description.note device p.render]
  return device

/-- The note on a device without a description. -/
def undescribedNote (device : String) (directory : Path) : Note :=
  ⟨.info, .descriptions, device ++ ": no device description in " ++ directory.render
    ++ ", omitting configuration registers"⟩

/-- Reads the configuration registers of a device from its description, if there is one. -/
def loadConfigRegisters (directory : Option Path) (device : String) :
    Run (List ConfigRegister) := do
  match directory with
  | none => return []
  | some directory =>
    let p := directory.child (device ++ ".yaml")
    if ← Run.ofExcept ((← get).files.holds p) then
      return (← loadDevice p).dcrs
    else
      Run.leave [undescribedNote device directory]
      return []

/-- What a run for Arm devices needs to know. -/
structure ArmJob where
  /-- The setting of headers. -/
  setting : ArmHeader.Setting
  /-- The directory of documents. -/
  packs : Path
  /-- The directory of descriptions. -/
  deviceDb : Option Path
  /-- Whether to write scripts. -/
  linker : Bool

/-- Generates the files of an Arm device. -/
def runArmDevice (job : ArmJob) (name : String) : Run Unit := do
  let p ← Run.ofExcept (findDocument (← get).files job.packs name)
  let doc ← loadDocument p
  let device ← Run.ofExcept doc.device
  let dcrs ← loadConfigRegisters job.deviceDb device.name
  let header ← ArmHeader.generate job.setting doc dcrs
  if job.linker then
    let script ← ArmScript.generate job.setting.output device {} job.setting.license
    Run.say (device.name ++ ": " ++ header.render ++ ", " ++ script.render)
  else Run.say (device.name ++ ": " ++ header.render)

/-- Generates the files of a MIPS device. -/
def runMipsDevice (output : Path) (license : License) (p : Path) : Run Unit := do
  let device ← loadDevice p
  let header ← MipsHeader.generate output device license
  let script ← MipsScript.generate output device {} license
  Run.say (device.name ++ ": " ++ header.render ++ ", " ++ script.render)

/-- What a request does. -/
def run (r : Request) (today : Date) : Run Unit := do
  let license : License := { today }
  match r.command with
  | .arm devices packs style styleFile deviceDb linker =>
    let style ← loadStyle style styleFile
    let job : ArmJob :=
      { setting := { output := r.output, style, license }, packs, deviceDb, linker }
    devices.forM (runArmDevice job)
  | .mips descriptions => descriptions.forM (runMipsDevice r.output license)

/-- How the program ends. -/
structure Outcome where
  /-- Zero if everything was generated, and one after a fault that is reported. -/
  exit : Nat
  /-- What is written to the output. -/
  output : String
  /-- What is written to the log, with the report of a fault at the end. -/
  log : String
  deriving DecidableEq, Repr, Inhabited

/-- How a run ends.  A fault that is not reported is no regular end. -/
def finish (r : Request) (result : Except Fault Unit) (g : Generation) : Except Fault Outcome :=
  let output := String.join (g.printed.map (· ++ "\n"))
  let log := (Log.setUp r.verbose r.quiet).render g.notes
  match result with
  | .ok _ => .ok ⟨0, output, log⟩
  | .error f =>
    if f.isReported then .ok ⟨1, output, log ++ "Error: " ++ f.message ++ "\n"⟩ else .error f

end ChipSupport.Program
