import ChipSupport.Comment
import ChipSupport.Device.Config

/-!
# Settings of configuration registers

Macros that place a word in the memory of the device, and for each field macros that clear the other
settings of the field and keep all bits outside of it, so that settings are combined by `&`.

## Main definitions

* `ConfigMask` — the bits of a setting that are kept.
* `ConfigSettings.valueWord`, `ConfigSettings.optionWord` — the numbers in the macros of a field.
* `ConfigSettings.lines` — the macros of all registers.
-/

namespace ChipSupport

/-- Which bits of the user's setting a register keeps. -/
inductive ConfigMask where
  /-- Those that the device implements. -/
  | impl
  /-- Those set before the register is configured. -/
  | default_
  /-- All of them. -/
  | all
  deriving DecidableEq, Repr, Inhabited

/-- The choice of a name. -/
def ConfigMask.ofName (name : String) : ConfigMask :=
  if name = "impl" then .impl else if name = "default" then .default_ else .all

namespace ConfigSettings

/-- How the macros are used. -/
def usage : String :=
  "Use the following macros to set the configuration registers on the device.\n" ++
  "To do this, AND together the desired options to fill out the fields of that particular " ++
  "register, like so:\n\n" ++
  "  __setREGNAME(__REGNAME_FIELD1_SOMEVAL & __REGNAME_FIELD2_ANOTHERVAL);\n\n" ++
  "Do this for each config register you want to configure by using the macros somewhere " ++
  "in a C or C++ source file."

/-- The bits of the user's setting that a register keeps. -/
def keptBits (r : ConfigRegister) : ConfigMask → Int
  | .impl => r.impl
  | .default_ => r.default_
  | .all => 0xFFFFFFFF

/-- The bits of a word outside of a field. -/
def otherBits (f : ConfigField) : Int := Bits.conj 0xFFFFFFFF (Bits.compl f.mask)

/-- The word of a value of a field: all bits outside of the field, and the value inside of it. -/
def valueWord (f : ConfigField) (v : Int) : Int :=
  Bits.disj (otherBits f) (Bits.conj (Bits.shiftLeft v f.position.toNat) f.mask)

/-- The word of an option of a field. -/
def optionWord (f : ConfigField) (o : ConfigOption) : Int := valueWord f o.value

/-- The macro that takes a value of a field. -/
def valueLine (r : ConfigRegister) (f : ConfigField) : Line :=
  .define ("__" ++ r.name ++ "_" ++ f.name ++ "_Val(v)")
    ("(0x" ++ Numeral.hex (otherBits f) 8 ++ " | (((v) << " ++ Numeral.decimal f.position
      ++ ") & 0x" ++ Numeral.hex f.mask 8 ++ "))")

/-- The macro of an option of a field. -/
def optionLine (r : ConfigRegister) (f : ConfigField) (o : ConfigOption) : Line :=
  .define ("__" ++ r.name ++ "_" ++ f.name ++ "_" ++ o.name)
    ("(0x" ++ Numeral.hex (optionWord f o) 8 ++ ")") o.desc

/-- The fault of a field that has no place in the register, or whose numbers have no bits. -/
def checkField (f : ConfigField) : Except Fault Unit := do
  f.widthWriting.checkBits
  if f.width < 0 then throw .shiftNegative
  f.positionWriting.checkBits
  if f.position < 0 then throw .shiftNegative
  f.options.forM fun o => o.valueWriting.checkBits

/-- The macros of a field. -/
def fieldLines (r : ConfigRegister) (f : ConfigField) : Except Fault (List Line) := do
  checkField f
  return .text ("// " ++ r.name ++ "<" ++ f.name ++ ">:  " ++ f.desc) :: valueLine r f
    :: f.options.map (optionLine r f) ++ [Line.blank]

/-- The macros of a register as a whole. -/
def registerLines (r : ConfigRegister) (mask : ConfigMask) : List Line :=
  let place := "." ++ r.sectionName
  let attributes := "__attribute__((unused, section(\"" ++ place ++ "\")))"
  let value := "(0x" ++ Numeral.hex (keptBits r mask) 8 ++ " & (f))"
  let note := "Memory section name for " ++ r.name
  Line.heading r.name ++
    [Line.compilerOnly,
      .define ("__set" ++ r.name ++ "(f)")
        ("const volatile uint32_t " ++ attributes ++ " __f" ++ r.name ++ " = " ++ value),
      .define ("__" ++ r.name ++ "_section") ("\"" ++ place ++ "\"") note,
      .otherwise " /* Assembly */",
      .define ("__" ++ r.name ++ "_section") place note,
      Line.endCompilerOnly,
      .define ("__" ++ r.name ++ "_default") ("(0x" ++ Numeral.hex r.default_ 8 ++ ")")
        ("Default value for " ++ r.name),
      .define ("__" ++ r.name ++ "_impl") ("(0x" ++ Numeral.hex r.impl 8 ++ ")")
        ("Implemented bits for " ++ r.name),
      Line.blank]

/-- The macros of all configuration registers. -/
def lines (rs : List ConfigRegister) (mask : ConfigMask) : Except Fault (List Line) :=
  match rs with
  | [] =>
    .ok [.text "/* <No device configuration registers for this device.> */", Line.blank]
  | rs => do
    let body ← rs.mapM fun r => do
      r.defaultWriting.checkHex
      r.implWriting.checkHex
      let fields ← r.fields.mapM (fieldLines r)
      return registerLines r mask ++ fields.flatten
    return Comment.block usage ++ [Line.blank] ++ body.flatten

end ConfigSettings

end ChipSupport
