import ChipSupport.Device.Interrupt
import ChipSupport.Line
import ChipSupport.Style

/-!
# Interrupt definitions

The part of a device header that numbers the interrupts, lays out the vector table and declares the
handlers.
-/

namespace ChipSupport.VectorTable

/-- The number of an interrupt as a line of the enumeration. -/
def numberLine (v : Interrupt) : Line :=
  let numbered :=
    Text.padTo ("  " ++ v.name ++ "_IRQn") 32 ++ " = " ++ Numeral.decimal v.number ++ ","
  let owner := if v.owner.isEmpty then " */" else " (" ++ v.owner ++ ") */"
  .text (Text.padTo numbered 40 ++ "/* " ++ v.caption ++ owner)

/-- The enumeration of the interrupts. -/
def numberLines (l : InterruptList) (style : Style) : List Line :=
  [.text "typedef enum IRQn", .text "\x7b"] ++ l.sortedVectors.map numberLine ++ [Line.blank]
    ++ (if style.periphMaxIrq then
        [.text ("  PERIPH_MAX_IRQn                = " ++ Numeral.decimal l.lastVectorNumber ++ ",")]
      else [])
    ++ [.text ("  PERIPH_COUNT_IRQn              = " ++ Numeral.decimal (l.lastVectorNumber + 1)),
      .text "\x7d IRQn_Type;", Line.blank]

/-- The line of a slot of the vector table. -/
def slotLine (slot : VectorSlot) : Line :=
  let declaration := "  void *" ++ slot.memberName ++ ";"
  match slot.vector? with
  | none => .text declaration
  | some v =>
    .text (Text.padTo declaration 44 ++ "/* " ++ Numeral.rightAligned slot.number 3 ++ " "
      ++ v.caption ++ " */")

/-- The struct of the vector table. -/
def slotLines (l : InterruptList) : List Line :=
  [.text "typedef struct _DeviceVectors", .text "\x7b",
    .text "  void *pvStack;                            /* Initial stack pointer */", Line.blank]
    ++ (vectorSlots l.sortedVectors).map slotLine ++ [.text "\x7d DeviceVectors;", Line.blank]

/-- The declaration of a handler. -/
def handlerLine (v : Interrupt) : Line := .text ("void " ++ v.name ++ "_Handler(void);")

/-- The interrupt definitions of a device. -/
def lines (l : InterruptList) (style : Style) : List Line :=
  Line.heading "Interrupt Vector Definitions" ++ [Line.compilerOnly] ++ numberLines l style
    ++ slotLines l ++ l.sortedVectors.map handlerLine
    ++ [Line.blank, Line.endCompilerOnly, Line.blank]

end ChipSupport.VectorTable
