import ChipSupport.Document
import ChipSupport.Header.ConfigSettings
import ChipSupport.Header.GroupStruct
import ChipSupport.Header.Instances
import ChipSupport.Header.Pins
import ChipSupport.Header.RegisterBlock
import ChipSupport.Header.VectorTable
import ChipSupport.License

/-!
# Headers of an Arm device

A main header describes the device and includes the other ones: a component header for each
peripheral, which devices share, an instance header and a header for port pins.

## Main definitions

* `Peripheral.headerPath`, `ComponentHeader.lines` — the component header of a peripheral.
* `InstanceHeader.lines`, `PinHeader.lines` — the headers that belong to the device.
* `MainHeader.opening`, `MainHeader.memory`, … — the parts of the main header.
* `MainHeader.versionValue` — the number of a version.
-/

namespace ChipSupport

/-- The symbol of a peripheral's module. -/
def Peripheral.componentName (p : Peripheral) : String := Text.upper (p.name ++ "_" ++ p.moduleId)

/-- The path of the component header of a peripheral. -/
def Peripheral.headerPath (p : Peripheral) (style : Style) : String :=
  style.componentDir ++ "/" ++ Text.lower p.componentName ++ ".h"

/-- The name of the headers of a device, without ending. -/
def Device.headerName (d : Device) : String := Text.lower d.name

/-- The path of a device's own header in a directory of such headers. -/
def Device.headerPathIn (d : Device) (directory : String) : String :=
  directory ++ "/" ++ d.headerName ++ ".h"

/-- The start of a header that is read only once. -/
def openGuard (symbol : String) : List Line := [.ifUndefined symbol, .define symbol, Line.blank]

namespace MainHeader

/-- The number of a version, four bits for each part after the first one. -/
def versionNumber (parts : List String) : Except Fault Int :=
  parts.foldlM (fun n part => do
    let v ← Numeral.parse 10 part.toList
    return Bits.disj (Bits.shiftLeft n 4) v) 0

/-- The value of a version: a number if it begins with a digit, and otherwise as it is. -/
def versionValue (version : String) : Except Fault String :=
  match version.toList with
  | [] => .error .positionOutside
  | c :: _ =>
    if Text.isDigit c then do
      let n ← versionNumber (Text.split '.' version)
      return "0x" ++ Numeral.hex n
    else .ok version

end MainHeader

namespace ComponentHeader

/-- The blocks of the registers of a group, by mode. -/
def registerLines (g : RegisterGroup) (style : Style) : Except Fault (List Line) := do
  let blocks ← g.modes.mapM fun mode => do
    let shown := (g.membersOf mode).filter fun r => !r.isAlias
    let lines ← shown.mapM fun r => RegisterBlock.lines r mode g.memberStart style
    return lines.flatten
  return blocks.flatten

/-- The definition of the version of a peripheral, if it has one. -/
def versionLines (p : Peripheral) : Except Fault (List Line) :=
  if p.version.isEmpty then .ok []
  else do
    let value ← MainHeader.versionValue p.version
    return [.define ("REV_" ++ p.name) value]

/-- The component header of a peripheral: its registers and then its groups. -/
def lines (p : Peripheral) (style : Style) (license : License) : Except Fault (List Line) := do
  let symbol := "_" ++ p.componentName ++ "_COMPONENT_"
  let block ← license.block style.license
  let version ← versionLines p
  let registers ← p.groups.mapM fun g => registerLines g style
  let groups ← p.groups.mapM fun g => GroupStruct.lines g style
  return block ++ [Line.blank] ++ openGuard symbol ++ [.define p.componentName] ++ version
    ++ [Line.blank] ++ registers.flatten ++ groups.flatten
    ++ [Line.blank, .endIf (" /* " ++ symbol ++ " */")]

end ComponentHeader

/-- A header of a device around a body. -/
def deviceHeader (symbol : String) (block body : List Line) : List Line :=
  block ++ [Line.blank] ++ openGuard symbol ++ body
    ++ [Line.blank, .endIf (" /* " ++ symbol ++ "*/")]

/-- The header of the instances of a device. -/
def InstanceHeader.lines (d : Device) (ps : List Peripheral) (style : Style) (license : License) :
    Except Fault (List Line) := do
  let block ← license.block style.license
  let body ← Instances.lines ps style
  return deviceHeader ("_" ++ Text.upper d.headerName ++ "_INSTANCES_") block body

/-- The header of the port pins of a device. -/
def PinHeader.lines (d : Device) (pads : List String) (ps : List Peripheral) (license : License) :
    Except Fault (List Line) := do
  let block ← license.block "apache"
  let body ← Pins.lines pads ps
  return deviceHeader ("_" ++ Text.upper d.headerName ++ "_PIO_") block body

namespace MainHeader

/-- The symbol that keeps the main header from being read twice. -/
def guard (d : Device) : String := "_INCLUDE_" ++ Text.upper d.name ++ "_H_"

/-- A definition for numbers of a kind, for compilers and assemblers. -/
def literalLine (name value note : String) : Line :=
  .text (Text.fillTo (Text.fillTo ("#define " ++ name ++ "(x)") 23 ++ value) 41
    ++ "/* " ++ note ++ " */")

/-- The definitions of number endings. -/
def literalLines : List Line :=
  [.ifHolds "!defined(SKIP_INTEGER_LITERALS)",
    .ifHolds "defined(_U_) || defined(_L_) || defined(_UL_)",
    .text "  #error \"Integer Literals macros already defined elsewhere\"",
    .endIf,
    Line.blank,
    Line.compilerOnly,
    .text "/* Macros that deal with adding suffixes to integer literal constants for C/C++ */",
    literalLine "_U_" "x ## U" "C code: Unsigned integer literal constant value",
    literalLine "_L_" "x ## L" "C code: Long integer literal constant value",
    literalLine "_UL_" "x ## UL" "C code: Unsigned Long integer literal constant value",
    .otherwise " /* Assembler */",
    literalLine "_U_" "x" "Assembler: Unsigned integer literal constant value",
    literalLine "_L_" "x" "Assembler: Long integer literal constant value",
    literalLine "_UL_" "x" "Assembler: Unsigned Long integer literal constant value",
    Line.endCompilerOnly,
    .endIf " /* SKIP_INTEGER_LITERALS */"]

/-- What every main header begins with, up to the interrupts. -/
def preamble (d : Device) : List Line :=
  openGuard (guard d) ++ Line.openLinkage
    ++ [Line.compilerOnly, .text "#include <stdint.h>", Line.endCompilerOnly, Line.blank]
    ++ literalLines ++ [Line.blank]

/-- The definitions of the parameters of the processor core. -/
def coreLines (d : Device) : List Line :=
  Line.heading ("Basic config parameters for " ++ Text.capitalized d.architecture)
    ++ d.parameters.map (fun v => .define v.name v.value v.caption) ++ [Line.blank]

/-- The name of a processor core after the first hyphen. -/
def coreName (architecture : String) : Except Fault String :=
  match architecture.toList.dropWhile (· != '-') with
  | _ :: rest => .ok (String.ofList rest)
  | [] => .error .positionOutside

/-- The inclusion of the header of the processor core and the declarations for the system clock. -/
def clockLines (d : Device) (style : Style) : Except Fault (List Line) := do
  let core ← coreName d.architecture
  let symbol := style.cmsisInitMacro
  let negation := if "DONT_".toList.isPrefixOf symbol.toList then "!" else ""
  return Line.heading "CMSIS Includes and declarations" ++
    [.text ("#include <core_c" ++ Text.lower core ++ ".h>"),
      .ifHolds (negation ++ "defined " ++ symbol),
      .text "extern uint32_t SystemCoreClock;   /* System (Core) Clock Frequency */",
      .text "void SystemInit(void);",
      .text "void SystemCoreClockUpdate(void);",
      .endIf (" /* " ++ symbol ++ " */"),
      Line.blank]

/-- The parts of the main header before the peripherals. -/
def opening (d : Device) (interrupts : Except Fault InterruptList) (style : Style)
    (license : License) : Except Fault (List Line) := do
  let block ← license.block style.license
  let interrupts ← interrupts
  let clock ← clockLines d style
  return block ++ preamble d ++ VectorTable.lines interrupts style ++ coreLines d ++ clock

/-- The inclusion of headers, under a heading. -/
def includeLines (title : String) (paths : List String) : List Line :=
  Line.heading title ++ paths.map (fun p => .text ("#include \"" ++ p ++ "\"")) ++ [Line.blank]

/-- A number as a long constant. -/
def longValue (n : Int) : String := "_UL_(0x" ++ Numeral.hexSmall n ++ ")"

/-- The definitions of a memory segment. -/
def segmentLines (s : MemorySegment) : List Line :=
  [.define (s.name ++ "_ADDR") (longValue s.start) (s.name ++ " base address"),
    .define (s.name ++ "_SIZE") (longValue s.size) (s.name ++ " size")]
    ++ (if 0 < s.pageSize then
        [.define (s.name ++ "_PAGE_SIZE") (Numeral.decimal s.pageSize) (s.name ++ " page size"),
          .define (s.name ++ "_NB_OF_PAGES") (Numeral.decimal (s.size.fdiv s.pageSize))
            (s.name ++ " number of pages")]
      else [])
    ++ [Line.blank]

/-- The definitions of the memory segments. -/
def memoryLines (d : Device) : List Line :=
  Line.heading "Memory Segment Macros" ++ d.segments.flatMap segmentLines

/-- The definitions of values, or a line that says that there are none. -/
def valueLines (title : String) (values : List NamedValue) (absent : String) : List Line :=
  Line.heading title
    ++ (if values.isEmpty then [.text absent]
      else values.map fun v => .define v.name ("_UL_(" ++ v.value ++ ")") v.caption)
    ++ [Line.blank]

/-- The definitions of the signatures and electrical characteristics. -/
def propertyLines (d : Device) : List Line :=
  valueLines "Device Signature Macros" d.signatures
      "/* <No signature macros provided for this device.> */"
    ++ valueLines "Device Electrical Parameter Macros" d.electrical
      "/* <No electrical parameter macros provided for this device.> */"

/-- The numbers of events, or a line that says that there are none. -/
def eventLines (title start : String) (events : List Event) (absent : String) : List Line :=
  Line.heading title
    ++ (if events.isEmpty then [.text absent]
      else events.map fun e => .define (start ++ e.name) ("(" ++ Numeral.decimal e.index ++ ")"))
    ++ [Line.blank]

/-- The definitions of the events of a document. -/
def allEventLines (doc : Document) : Except Fault (List Line) := do
  let generators ← doc.eventGenerators
  let users ← doc.eventUsers
  return eventLines "Device Event Generator Macros" "EVENT_ID_GEN_" generators
      "/* <No event generators provided for this device.> */"
    ++ eventLines "Device Event User Macros" "EVENT_ID_USER_" users
      "/* <No event users provided for this device.> */"

/-- The parts of the main header after the inclusions. -/
def rest (doc : Document) (d : Device) (dcrs : List ConfigRegister) (style : Style) :
    Except Fault (List Line) := do
  let events ← if style.events then allEventLines doc else pure []
  let settings ← if style.configRegs then ConfigSettings.lines dcrs .impl else pure []
  return memoryLines d ++ propertyLines d ++ events ++ settings ++ Line.closeLinkage
    ++ [.endIf ("  /* " ++ guard d ++ " */")]

end MainHeader

end ChipSupport
