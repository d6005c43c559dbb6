import ChipSupport.Header.ConfigSettings
import ChipSupport.License
import ChipSupport.Mips.Memory

/-!
# Header of a MIPS device

One header describes the whole device: its registers as volatile words in uncached memory, the
fields of registers as structs and numbers, interrupts, peripherals, memory regions, configuration
registers and features.

## Main definitions

* `MipsHeader.structMembers` — the members of the struct of a register's mode.
* `MipsHeader.features` — the symbols that describe the device.
* `MipsHeader.lines` — the header.
-/

namespace ChipSupport.MipsHeader

/-- What the definitions of features are for. -/
def featureUsage : String :=
  "These macros should already be provided if you used one of the target config files " ++
  "bundled with Clang (see the /target/config directory).  The MPLAB X plugin will handle " ++
  "this for you if you didn't decide to use your own.\n\n" ++
  "These are here just to help MPLAB X find what macros are defined."

/-- The name of the union of a register's structs. -/
def unionName (register : String) : String := "__" ++ register ++ "bits_t"

/-- A number in the form it has in definitions. -/
def hexValue (n : Int) : String := "(0x" ++ Numeral.hex n 8 ++ ")"

/-- A text without zeros in front, but not empty. -/
def dropZeros (s : String) : String :=
  match s.toList.dropWhile (· == '0') with
  | [] => "0"
  | rest => String.ofList rest

/-- The fields of a mode that are shown, by position. -/
def shownFields (m : ConfigMode) : List ConfigField :=
  m.visibleFields.mergeSort fun f g => decide (f.position ≤ g.position)

/-- The fields of the modes that have some to show. -/
def shownModes (r : ConfigRegister) : List (List ConfigField) :=
  (r.modes.map shownFields).filter fun fs => !fs.isEmpty

/-- Whether one of the modes is the whole word under the name `w`. -/
def hasWordMode (modes : List (List ConfigField)) : Bool :=
  modes.any fun fields =>
    match fields with
    | [f] => f.name == "w"
    | _ => false

/-- The names and widths of the members of a struct from a bit on; padding has no name. -/
def structMembers (next : Int) : List ConfigField → List (String × Int)
  | [] => []
  | f :: rest =>
    if 0 < f.position - next then
      ("", f.position - next) :: (f.name, f.width) :: structMembers (f.position + f.width) rest
    else (f.name, f.width) :: structMembers (next + f.width) rest

/-- The line of a member of a struct. -/
def memberLine (m : String × Int) : Line :=
  .text ("    uint32_t " ++ m.1 ++ ":" ++ Numeral.decimal m.2 ++ ";")

/-- The struct of the fields of a mode. -/
def structLines (fields : List ConfigField) : List Line :=
  .text "  struct \x7b" :: (structMembers 0 fields).map memberLine ++ [.text "  \x7d;"]

/-- The union of the structs of a register, with the whole word as a further one. -/
def unionLines (r : ConfigRegister) : List Line :=
  match shownModes r with
  | [] => []
  | modes =>
    .text "typedef union \x7b" :: modes.flatMap structLines
      ++ (if hasWordMode modes then []
        else [.text "  struct \x7b", .text "    uint32_t w:32;", .text "  \x7d;"])
      ++ [.text ("\x7d " ++ unionName r.name ++ ";")]

/-- The names of the registers behind a register, with their addresses. -/
def portalAddresses (r : ConfigRegister) : List (String × Int) :=
  r.portals.zipIdx.map fun p =>
    (r.name ++ p.1, uncachedAddress r.address + 4 * ((p.2 : Nat) + 1))

/-- A word at an address. -/
def wordLine (name : String) (address : Int) : Line :=
  .define name ("(*(volatile uint32_t *)0x" ++ Numeral.hex address ++ ")")

/-- The definition of a register for compilers. -/
def registerLines (r : ConfigRegister) : List Line :=
  let address := uncachedAddress r.address
  wordLine r.name address :: unionLines r
    ++ (if (shownModes r).isEmpty then []
      else [.define (r.name ++ "bits")
        ("(*(volatile " ++ unionName r.name ++ " *)0x" ++ Numeral.hex address ++ ")")])
    ++ (portalAddresses r).map (fun p => wordLine p.1 p.2) ++ [Line.blank]

/-- The definition of a register for assemblers. -/
def assemblerLines (r : ConfigRegister) : List Line :=
  .define r.name (hexValue (uncachedAddress r.address))
    :: (portalAddresses r).map fun p => .define p.1 (hexValue p.2)

/-- The position, mask and width of a field. -/
def fieldLines (register field : String) (position mask width : Int) : List Line :=
  let start := "_" ++ register ++ "_" ++ field ++ "_"
  [.defineWide (start ++ "POSITION") (hexValue position),
    .defineWide (start ++ "MASK") (hexValue mask),
    .defineWide (start ++ "LENGTH") (hexValue width),
    Line.blank]

/-- The definitions of the fields of a register. -/
def registerFieldLines (r : ConfigRegister) : List Line :=
  let modes := shownModes r
  modes.flatten.flatMap (fun f => fieldLines r.name f.name f.position f.mask f.width)
    ++ if modes.isEmpty || hasWordMode modes then [] else fieldLines r.name "w" 0 0xFFFFFFFF 32

/-- The numbers of interrupts, with names that end as given. -/
def numberLines (ending : String) (is : List Interrupt) : List Line :=
  is.map fun i =>
    .defineWide ("_" ++ i.name ++ ending) ("(" ++ i.writing.text i.number ++ ")")

/-- The numbers of vectors, and of requests if the device tells them apart. -/
def interruptLines (l : InterruptList) : List Line :=
  .text "/* Interrupt Vector Numbers */" :: numberLines "_VECTOR" l.sortedVectors ++ [Line.blank]
    ++ if l.requests.isEmpty then []
      else .text "/* Interrupt Request Numbers */"
        :: numberLines "_IRQ" (InterruptList.sorted l.requests) ++ [Line.blank]

/-- The peripherals and the addresses at which their registers begin. -/
def peripheralLines (sfrs : List ConfigRegister) : List Line :=
  .text "/* Device Peripherals */"
    :: sfrs.flatMap (fun r => r.baseOf.map fun p => .define ("_" ++ p))
    ++ [Line.blank, .text "/* Peripheral Base Addresses */"]
    ++ sfrs.flatMap (fun r => r.baseOf.map fun p =>
      .defineWide ("_" ++ p ++ "_BASE_ADDRESS") (hexValue (uncachedAddress r.address)))
    ++ [Line.blank]

/-- The memory regions. -/
def regionLines (d : MipsDevice) : List Line :=
  .text "/* Default Memory Region Macros */" ::
    ((d.memoryPlan []).flatMap fun r =>
      let start := "__" ++ Text.upper r.name ++ "_"
      [.defineWide (start ++ "BASE") (hexValue r.start),
        .defineWide (start ++ "LENGTH") (hexValue r.length)])
    ++ [Line.blank]

/-- The characters of a text from one position up to another. -/
def slice (s : String) (first stop : Nat) : String :=
  String.ofList ((s.toList.take stop).drop first)

/-- The last characters of a text. -/
def lastChars (s : String) (n : Nat) : String :=
  String.ofList (s.toList.drop (s.length - n))

/-- A symbol with its value, plain and with two underscores behind its name. -/
def both (name value : String) : List (String × String) := [(name, value), (name ++ "__", value)]

/-- The symbols that are read off the name of a device of the PIC32 series. -/
def nameFeatures (d : MipsDevice) : List (String × String) :=
  let base := d.baseName
  if d.series = "PIC32MX" then
    let flash := dropZeros (slice base 8 11)
    both "__PIC32_FLASH_SIZE" flash ++ both "__PIC32_MEMORY_SIZE" flash
      ++ both "__PIC32_FEATURE_SET" (slice base 4 7)
      ++ both "__PIC32_PIN_SET" ("'" ++ lastChars base 1 ++ "'")
  else if "PIC32".toList.isPrefixOf d.series.toList then
    let set := slice base 8 10
    both "__PIC32_FLASH_SIZE" (dropZeros (slice base 4 8))
      ++ both "__PIC32_FEATURE_SET" ("\"" ++ set ++ "\"")
      ++ both "__PIC32_FEATURE_SET0" ("'" ++ slice set 0 1 ++ "'")
      ++ both "__PIC32_FEATURE_SET1" ("'" ++ slice set 1 2 ++ "'")
      ++ both "__PIC32_PRODUCT_GROUP" ("'" ++ slice base 10 11 ++ "'")
      ++ both "__PIC32_PIN_COUNT" (dropZeros (lastChars base 3))
  else []

/-- The symbols for what a device has, and whether it has it. -/
def flagFeatures (d : MipsDevice) : List (String × Bool) :=
  [("__PIC32_HAS_L1CACHE", d.l1cache),
    ("__PIC32_HAS_MIPS32R2", d.mips32),
    ("__PIC32_HAS_MIPS32R5", d.arch == "mips32r5"),
    ("__PIC32_HAS_MICROMIPS", d.micromips),
    ("__PIC32_HAS_MIPS16", d.mips16),
    ("__PIC32_HAS_DSPR2", d.dspr2),
    ("__PIC32_HAS_MCUASE", d.mcuase),
    ("__PIC32_HAS_FPU64", d.fpu),
    ("__PIC32_HAS_SSX", d.series != "PIC32MX"),
    ("__PIC32_HAS_MMU_MZ_FIXED", d.subfamily == "PIC32MZ"),
    ("__PIC32_HAS_INTCONVS", d.microMipsOnly),
    ("__PIC32_HAS_INIT_DATA", true)]

/-- The symbols that describe the device, with their values. -/
def features (d : MipsDevice) : List (String × String) :=
  [("__" ++ d.baseName, "1"), ("__" ++ d.baseName ++ "__", "1"),
    ("__" ++ d.series, "1"), ("__" ++ d.series ++ "__", "1")]
    ++ nameFeatures d
    ++ ((flagFeatures d).filter Prod.snd).map (fun f => (f.1, "1"))
    ++ [("__PIC32_SRS_SET_COUNT", d.interrupts.shadowWriting.text d.interrupts.shadowSets)]

/-- The fault of the number of register sets. -/
def checkFeatures (d : MipsDevice) : Except Fault Unit :=
  d.interrupts.shadowWriting.checkLength d.interrupts.shadowSets

/-- The fault of a field whose position or width is written with a point. -/
def checkField (f : ConfigField) : Except Fault Unit := do
  f.positionWriting.checkHex
  f.widthWriting.checkBits

/-- The faults of numbers in the definitions of registers and interrupts, in their order. -/
def checkNumbers (d : MipsDevice) : Except Fault Unit := do
  let registers := d.sfrs ++ d.dcrs
  registers.forM fun r => r.addressWriting.checkBits
  registers.forM fun r => (shownModes r).flatten.forM checkField
  (d.interrupts.sortedVectors ++ InterruptList.sorted d.interrupts.requests).forM fun i =>
    i.writing.checkLength i.number

/-- A symbol, unless the compiler defines it. -/
def featureLine (f : String × String) : List Line :=
  let definition := "#  define " ++ f.1
  [.ifUndefined f.1,
    .text (if f.2.isEmpty then definition else Text.padTo definition 40 ++ f.2),
    .endIf]

/-- The symbols that describe the device. -/
def featureLines (d : MipsDevice) : List Line :=
  Comment.block featureUsage ++ (features d).flatMap featureLine ++ [Line.blank]

/-- The symbol that guards the header. -/
def guard (d : MipsDevice) : String := "__" ++ Text.upper d.baseName ++ "_H"

/-- The lines of the header. -/
def lines (d : MipsDevice) (license : License) : Except Fault (List Line) := do
  let registers := d.sfrs ++ d.dcrs
  let block ← license.block "bsd"
  checkNumbers d
  d.checkPlan []
  let settings ← ConfigSettings.lines d.dcrs .default_
  checkFeatures d
  return block
    ++ [.ifUndefined (guard d), .define (guard d), Line.blank]
    ++ [Line.compilerOnly, .text "#include <stdint.h>", Line.blank] ++ Line.openLinkage
    ++ registers.flatMap registerLines ++ Line.closeLinkage
    ++ [.otherwise "  /* __ASSEMBLER__ */", Line.blank]
    ++ registers.flatMap assemblerLines ++ [Line.blank, Line.endCompilerOnly, Line.blank]
    ++ registers.flatMap registerFieldLines
    ++ interruptLines d.interrupts ++ peripheralLines d.sfrs ++ regionLines d ++ settings
    ++ featureLines d ++ [.endIf ("  /* " ++ guard d ++ " */")]

/-- The name of the header's file. -/
def fileName (d : MipsDevice) : String := "p" ++ Text.lower d.baseName ++ ".h"

/-- The note that a header is generated. -/
def note (d : MipsDevice) : Note :=
  ⟨.info, .mipsHeaders, d.name ++ ": generating header for " ++ Numeral.natural d.sfrs.length
    ++ " SFRs and " ++ Numeral.natural d.dcrs.length ++ " DCRs"⟩

end ChipSupport.MipsHeader
