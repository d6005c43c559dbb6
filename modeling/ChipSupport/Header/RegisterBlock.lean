import ChipSupport.Line
import ChipSupport.Register.Layout
import ChipSupport.Style

/-!
# Definition of a register

The part of a component header that describes one register: its heading, in styles with unions the
union of its structs of bits, and the block of definitions for the register, its fields, their
options and its vector fields.

## Main definitions

* `RegisterBlock.fieldBase`, `RegisterBlock.optionBase` — what the names of definitions start with.
* `RegisterBlock.fieldLines`, `RegisterBlock.optionLines` — the definitions of a field.
* `RegisterBlock.unionLines` — the union type.
* `RegisterBlock.lines` — the whole block.
-/

namespace ChipSupport.RegisterBlock

/-- What the names of a field's definitions start with: the register, the mode unless the field's
name carries it, and the field. -/
def fieldBase (register field mode : String) (style : Style) : String :=
  if Mode.isDefault mode || (style.modeAware && mode.toList.isPrefixOf field.toList) then
    register ++ "_" ++ field
  else register ++ "_" ++ mode ++ "_" ++ field

/-- What is defined for a field.  Fields of several bits always have a value macro. -/
def fieldForm (f : NamedField) (style : Style) (full : Bool) : SingleBit :=
  if full || decide (1 < f.width) then .value else style.singleBit

/-- The definitions of a field: its position, its mask and, for most fields, its value in place. -/
def fieldLines (f : NamedField) (mode register : String) (style : Style) (full : Bool := false) :
    Except Fault (List Line) := do
  let ls := style.layouts
  let base := fieldBase register f.name mode style
  let position ← ls.position f.lsb
  let note ← ls.fieldCaption register f.name f.caption
  let mask ← ls.mask f.mask
  let masked := Line.define (base ++ "_Msk") mask
  let head := Line.define (base ++ "_Pos") position note
  match fieldForm f style full with
  | .plain => return [head, .define base mask]
  | .mask => return [head, masked, .define base mask]
  | .value => do
    let setter ← ls.setter base
    return [head, masked, .define (base ++ "(value)") setter]

/-- What the names of the options of a field start with. -/
def optionBase (register field mode : String) (style : Style) : String :=
  if style.modeAware then fieldBase register field mode style ++ "_"
  else register ++ "_" ++ field ++ "_"

/-- The name of an option in names of definitions. -/
def optionName (v : NamedValue) (style : Style) : String :=
  if style.modeAware then String.ofList (v.name.toList.dropWhile (· == '_')) else v.name

/-- The definitions of the options of a field: the values first, then the values in their place. -/
def optionLines (f : Bitfield) (mode register : String) (style : Style) :
    Except Fault (List Line) := do
  let ls := style.layouts
  let base := optionBase register f.name mode style
  let values ← f.values.mapM fun v => do
    let value ← ls.optionValue v.value
    return Line.define ("  " ++ base ++ optionName v style ++ "_Val") value v.caption
  let placed ← f.values.mapM fun v => do
    let value ← ls.option base (optionName v style)
    return Line.define (base ++ optionName v style) value
  return values ++ placed

/-- A struct of bits inside of the union of a register. -/
def structLines (fields : List Field) (r : Register) (name : String) (style : Style) :
    Except Fault (List Line) := do
  let lines ← style.layouts.bitfieldStruct (Field.layout fields r.bitWidth) r.integerType name
  return lines.map Line.text

/-- The name of a mode's struct of bits. -/
def structName (mode : String) : String := if Mode.isDefault mode then "bit" else mode

/-- The union type of a register: a struct per mode, one of the vector fields, and the whole. -/
def unionLines (r : Register) (groupMode : String) (modes : List (String × List Bitfield))
    (vectors : List Field) (style : Style) : Except Fault (List Line) := do
  let ls := style.layouts
  let first ← ls.unionOpen
  let shown := modes.filter fun m => !(m.2.isEmpty && style.coalesceModes)
  let structs ← shown.mapM fun m =>
    structLines (m.2.map fun f => .named f.toNamed) r (structName m.1) style
  let vector ← if vectors.isEmpty then pure [] else structLines vectors r "vec" style
  let whole ← ls.regMember r.integerType
  let last ← ls.typedefClose (style.convention.registerType r groupMode)
  return [Line.compilerOnly, .text first] ++ structs.flatten ++ vector
    ++ [.text whole, .text last, Line.endCompilerOnly, Line.blank]

/-- The definitions of a register as a whole: offset, reset value and mask. -/
def registerLines (r : Register) (name : String) (style : Style) : Except Fault (List Line) := do
  let ls := style.layouts
  let offset ← ls.offset r.offset
  let reset ← ls.reset r.initval
  let masks ← style.maskMacros.mapM fun ending => do
    let mask ← ls.mask r.mask
    return Line.define (name ++ ending) mask (name ++ " mask")
  return [Line.define (name ++ style.offsetMacro) offset (name ++ " offset"),
    Line.define (name ++ "_RESETVALUE") reset (name ++ " reset value")] ++ masks ++ [Line.blank]

/-- The definitions for the fields of one mode.  `several` says that the register has other
modes. -/
def modeLines (r : Register) (name : String) (several : Bool) (mode : String)
    (fields : List Bitfield) (style : Style) : Except Fault (List Line) := do
  let title :=
    if several && style.modeAware then [Line.text ("/* " ++ mode ++ " mode */")] else []
  let body ← fields.mapM fun f => do
    let definitions ← fieldLines f.toNamed mode name style
    let options ← optionLines f mode name style
    return definitions ++ options
  let masks ←
    if several && style.modeAware then
      style.maskMacros.mapM fun ending => do
        let mask ← style.layouts.mask (r.maskByMode mode style.coalesceModes)
        return Line.define (name ++ "_" ++ mode ++ ending) mask
          (name ++ " mask for mode " ++ mode)
    else pure []
  let space := if style.modeAware then [Line.blank] else []
  return title ++ body.flatten ++ masks ++ space

/-- The definitions for the vector fields. -/
def vectorLines (vectors : List Field) (name : String) (style : Style) :
    Except Fault (List Line) := do
  let fields := Field.namedOnly vectors
  let body ← fields.mapM fun f => fieldLines f "" name style true
  if style.modeAware then
    return if fields.isEmpty then [] else body.flatten ++ [Line.blank]
  else
    return (if vectors.isEmpty then [] else [Line.blank]) ++ body.flatten ++ [Line.blank]

/-- The vector fields of a register, which only registers of one mode have. -/
def vectorsOf (modes : List (String × List Bitfield)) (style : Style) : List Field :=
  match modes with
  | [(_, fields)] => Bitfield.vectorFields fields style.vectorDuplicates
  | _ => []

/-- The definition of a register that is listed under a mode of its group. -/
def lines (r : Register) (groupMode start : String) (style : Style) : Except Fault (List Line) := do
  style.layouts.checkNames
  let name := style.convention.qualifiedRegisterName r groupMode start
  let modes := r.modeTable style.coalesceModes
  let vectors := vectorsOf modes style
  let title ← style.layouts.registerCaption r name
  let union ← if style.registerUnions then unionLines r groupMode modes vectors style else pure []
  let whole ← registerLines r name style
  let body ← modes.mapM fun m => modeLines r name (decide (1 < modes.length)) m.1 m.2 style
  let vector ← vectorLines vectors name style
  return Line.text title :: (union ++ whole ++ body.flatten ++ vector)

end ChipSupport.RegisterBlock
