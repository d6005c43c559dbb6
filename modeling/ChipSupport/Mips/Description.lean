import ChipSupport.Data.Schema
import ChipSupport.Mips.Device
import ChipSupport.Note

/-!
# Device descriptions

A description gives a device as data of a fixed shape.  Data that break a rule for descriptions
describe no device.

## Main definitions

* `Description.schema` — the rules.
* `Description.device` — the device that data describe, or what is wrong with them.
-/

namespace ChipSupport.Description

/-- A number that is not negative. -/
def amount : Schema := .whole 0 none

/-- A text of any length. -/
def anyText : Schema := .text 0

/-- The rules for an option of a field. -/
def optionSchema : Schema :=
  .record ["name", "value"] [("name", .identifier), ("value", amount), ("desc", anyText)]

/-- The rules for a field. -/
def fieldSchema : Schema :=
  .record ["name", "position", "width"]
    [("name", .identifier), ("position", .whole 0 (some 31)), ("width", .whole 1 (some 32)),
      ("desc", anyText), ("hidden", .flag), ("options", .list optionSchema)]

/-- The rules for a mode of a register. -/
def modeSchema : Schema :=
  .record ["fields"] [("name", anyText), ("fields", .list fieldSchema)]

/-- The rules for a register. -/
def registerSchema : Schema :=
  .record ["name", "address"]
    [("name", .identifier), ("address", amount), ("default", amount), ("impl", amount),
      ("portals", .list (.choice ["CLR", "SET", "INV"])), ("baseOf", .list .identifier),
      ("modes", .list modeSchema), ("fields", .list fieldSchema)]

/-- The rules for an interrupt. -/
def interruptSchema : Schema :=
  .record ["number", "name"]
    [("number", amount), ("name", .identifier), ("caption", anyText), ("owner", anyText)]

/-- The features that a processor core may have. -/
def featureNames : List String :=
  ["fpu", "l1cache", "mips32", "micromips", "mips16", "dspr2", "mcuase"]

/-- The rules for a memory region. -/
def regionSchema : Schema :=
  .record ["name", "type", "begin", "end"]
    [("name", .identifier), ("type", .choice (RegionKind.all.map RegionKind.name)),
      ("begin", amount), ("end", amount)]

/-- The rules for the interrupts of a device. -/
def interruptsSchema : Schema :=
  .record []
    [("defaultBase", amount), ("shadowSets", amount), ("variableOffsets", .flag),
      ("vectors", .list interruptSchema), ("requests", .list interruptSchema)]

/-- The rules for a description. -/
def schema : Schema :=
  .record ["name"]
    [("name", .text 4), ("arch", .choice ["mips32r2", "mips32r5"]), ("subfamily", anyText),
      ("features", .record [] (featureNames.map fun n => (n, .flag))),
      ("regions", .list regionSchema), ("interrupts", interruptsSchema),
      ("sfrs", .list registerSchema), ("dcrs", .list registerSchema)]

/-- The text under a name. -/
def textOf (d : Data) (name : String) (absent : String := "") : String :=
  match d.get? name with
  | some (.text s) => s
  | _ => absent

/-- The whole number under a name. -/
def numberOf (d : Data) (name : String) (absent : Int := 0) : Int :=
  match d.get? name with
  | some (.int n) => n
  | some (.real x) => (Decimal.truncated? x).getD absent
  | _ => absent

/-- How the number under a name is written. -/
def writingOf (d : Data) (name : String) : Writing :=
  match d.get? name with
  | some (.real x) => Writing.ofFloat x
  | _ => .digits

/-- The truth value under a name. -/
def flagOf (d : Data) (name : String) (absent : Bool := false) : Bool :=
  match d.get? name with
  | some (.bool b) => b
  | _ => absent

/-- The list under a name; without one, no items. -/
def itemsOf (d : Data) (name : String) : List Data :=
  match d.get? name with
  | some (.list items) => items
  | _ => []

/-- The texts in the list under a name. -/
def textsOf (d : Data) (name : String) : List String :=
  (itemsOf d name).filterMap fun item =>
    match item with
    | .text s => some s
    | _ => none

/-- An option of a field. -/
def option (d : Data) : ConfigOption :=
  { name := textOf d "name"
    value := numberOf d "value"
    desc := textOf d "desc"
    valueWriting := writingOf d "value" }

/-- A field of a register. -/
def field (d : Data) : ConfigField :=
  { name := textOf d "name"
    position := numberOf d "position"
    width := numberOf d "width"
    desc := textOf d "desc"
    hidden := flagOf d "hidden"
    options := (itemsOf d "options").map option
    positionWriting := writingOf d "position"
    widthWriting := writingOf d "width" }

/-- A mode of a register. -/
def mode (d : Data) : ConfigMode :=
  { name := textOf d "name" Mode.default_, fields := (itemsOf d "fields").map field }

/-- A register.  Fields that are listed without a mode make up a first one. -/
def register (d : Data) : ConfigRegister :=
  let modes := (itemsOf d "modes").map mode
  { name := textOf d "name"
    address := numberOf d "address"
    default_ := numberOf d "default" 0xFFFFFFFF
    impl := numberOf d "impl" 0xFFFFFFFF
    portals := textsOf d "portals"
    modes := if (d.get? "fields").isSome then
        mode (.table [(.text "fields", .list (itemsOf d "fields"))]) :: modes
      else modes
    baseOf := textsOf d "baseOf"
    addressWriting := writingOf d "address"
    defaultWriting := writingOf d "default"
    implWriting := writingOf d "impl" }

/-- An interrupt. -/
def interrupt (d : Data) : Interrupt :=
  { number := numberOf d "number"
    name := textOf d "name"
    caption := textOf d "caption"
    owner := textOf d "owner"
    writing := writingOf d "number" }

/-- The interrupts of a device. -/
def interrupts (d : Data) : InterruptList :=
  { vectors := (itemsOf d "vectors").map interrupt
    requests := (itemsOf d "requests").map interrupt
    defaultBaseAddress := numberOf d "defaultBase"
    shadowSets := numberOf d "shadowSets" 1
    variableOffsets := flagOf d "variableOffsets"
    baseWriting := writingOf d "defaultBase"
    shadowWriting := writingOf d "shadowSets" }

/-- A memory region. -/
def region (d : Data) : MemoryRegion :=
  { name := textOf d "name"
    kind := (RegionKind.ofName? (textOf d "type")).getD .unspecified
    first := numberOf d "begin"
    stop := numberOf d "end"
    firstWriting := writingOf d "begin"
    stopWriting := writingOf d "end" }

/-- The device of data that follow the rules. -/
def deviceOf (d : Data) : MipsDevice :=
  let name := textOf d "name"
  let features := (d.get? "features").getD .null
  { name
    arch := textOf d "arch" "mips32r2"
    subfamily := textOf d "subfamily" (Text.upper (MipsDevice.takeStart name 7))
    fpu := flagOf features "fpu"
    l1cache := flagOf features "l1cache"
    mips32 := flagOf features "mips32" true
    micromips := flagOf features "micromips"
    mips16 := flagOf features "mips16"
    dspr2 := flagOf features "dspr2"
    mcuase := flagOf features "mcuase"
    regions := (itemsOf d "regions").map region
    interrupts := interrupts ((d.get? "interrupts").getD .null)
    sfrs := (itemsOf d "sfrs").map register
    dcrs := (itemsOf d "dcrs").map register }

/-- The device that data describe, or what is wrong with them. -/
def device (d : Data) (source : String := "<data>") : Except Fault MipsDevice := do
  let problems ← schema.problems d
  if !problems.isEmpty then throw (.descriptionInvalid source problems)
  let device := deviceOf d
  match device.regions.find? fun r => decide (r.stop < r.first) with
  | some r => throw (.regionReversed source r.name)
  | none => return device

/-- The note on a device that was described. -/
def note (d : MipsDevice) (source : String) : Note :=
  ⟨.detail, .descriptions, source ++ ": " ++ Numeral.natural d.sfrs.length ++ " SFRs, "
    ++ Numeral.natural d.dcrs.length ++ " DCRs, " ++ Numeral.natural d.regions.length ++ " regions"⟩

end ChipSupport.Description
