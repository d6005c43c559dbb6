import ChipSupport.CommandLine.Switch
import ChipSupport.Files.Path
import ChipSupport.Style

/-!
# The command line

There are two commands: one writes the headers of Arm devices, and one writes the header and the
script of MIPS devices.  What holds for both comes before the command.

## Main definitions

* `Request`, `Command` — what a command line asks for.
* `Request.ofWords` — reading a command line.
-/

namespace ChipSupport

open CommandLine

/-- What is to be generated. -/
inductive Command where
  /-- Headers of devices that have a document, and possibly their scripts. -/
  | arm (devices : List String) (packs : Path) (style : String) (styleFile deviceDb : Option Path)
      (linker : Bool)
  /-- Headers and scripts of devices that have a description. -/
  | mips (descriptions : List Path)
  deriving Repr, Inhabited

/-- What a command line asks for. -/
structure Request where
  /-- The output directory. -/
  output : Path
  /-- Whether to say more. -/
  verbose : Bool
  /-- Whether to say less. -/
  quiet : Bool
  /-- What is to be generated. -/
  command : Command
  deriving Repr, Inhabited

namespace Request

/-- The switch that asks for the usage. -/
def helpSwitch : Switch := { key := .help, spellings := ["-h", "--help"] }

/-- The switches before the command. -/
def mainSwitches : List Switch :=
  [helpSwitch,
    { key := .output, spellings := ["-o", "--output"], takesValue := true },
    { key := .verbose, spellings := ["-v", "--verbose"] },
    { key := .quiet, spellings := ["-q", "--quiet"] }]

/-- The switches of the command for Arm devices. -/
def armSwitches : List Switch :=
  [helpSwitch,
    { key := .packs, spellings := ["--packs"], takesValue := true },
    { key := .style, spellings := ["--style"], takesValue := true,
      choices := Style.presets.map Style.name },
    { key := .styleFile, spellings := ["--style-file"], takesValue := true },
    { key := .deviceDb, spellings := ["--device-db"], takesValue := true },
    { key := .linker, spellings := ["--linker"] }]

/-- What the words after a command ask for, and whether some of them do not belong to anything. -/
def commandOf (name : String) (words : List String) : Except Ending (Command × Bool) :=
  if name = "arm" then do
    let scan ← Scan.ofWords armSwitches .oneRun words
    match scan.operands, scan.value? .packs with
    | some _, some packs =>
      let command := Command.arm scan.plainOperands (.ofString packs)
        ((scan.value? .style).getD "legacy") ((scan.value? .styleFile).map .ofString)
        ((scan.value? .deviceDb).map .ofString) (scan.has .linker)
      return (command, scan.surplus)
    | _, _ => throw .misuse
  else if name = "mips" then do
    let scan ← Scan.ofWords [helpSwitch] .oneRun words
    match scan.operands with
    | some _ => return (.mips (scan.plainOperands.map .ofString), scan.surplus)
    | none => throw .misuse
  else .error .misuse

/-- What a command line asks for. -/
def ofWords (words : List String) : Except Ending Request := do
  let scan ← Scan.ofWords mainSwitches .everything words
  match scan.operands with
  | some (name :: rest) =>
    let (command, surplus) ← commandOf name rest
    if scan.surplus || surplus then throw .misuse
    return {
      output := .ofString ((scan.value? .output).getD ".")
      verbose := scan.has .verbose
      quiet := scan.has .quiet
      command }
  | _ => throw .misuse

end Request

end ChipSupport
