import ChipSupport.Header.Addresses
import ChipSupport.Line

/-!
# Instances of peripherals

The definitions for the instances of the peripherals of a device: addresses of registers,
parameters, numbers and base addresses.  Peripherals of the processor core are left out.

## Main definitions

* `Register.accessKind`, `Register.accessMacro`, `Register.accessType` — how a register is accessed.
* `Instances.lines` — addresses and parameters.
* `Instances.idLines` — numbers.
* `Instances.baseLines` — base addresses.
-/

namespace ChipSupport

namespace Register

/-- The access of a register, as a part of names. -/
def accessKind (r : Register) : String :=
  if r.readable && !r.writable then "Ro" else if r.writable && !r.readable then "Wo" else "Rw"

/-- The macro that turns an address into a register. -/
def accessMacro (r : Register) : String :=
  "_" ++ r.accessKind ++ "Reg"
    ++ (if r.size = 1 then "8" else if r.size = 2 then "16" else "32") ++ "_"

/-- The type of a register at an address. -/
def accessType (r : Register) : String :=
  r.accessKind ++ "Reg" ++ (if r.size = 1 then "8" else if r.size = 2 then "16" else "")

end Register

namespace Instances

/-- The macros that turn addresses into registers, by access and number of bits. -/
def accessMacros : List (String × String) :=
  [("Ro", "const "), ("Wo", ""), ("Rw", "")].flatMap fun access =>
    ["32", "16", "8"].map fun bits =>
      ("_" ++ access.1 ++ "Reg" ++ bits ++ "_(x)",
        "(*(volatile " ++ access.2 ++ "uint" ++ bits ++ "_t *)x##UL)")

/-- The definitions of the access macros. -/
def accessMacroLines : List Line :=
  [Line.compilerOnly] ++ accessMacros.map (fun m => .define m.1 m.2)
    ++ [.otherwise " /* Assembly */"] ++ accessMacros.map (fun m => .define m.1 "(x)")
    ++ [Line.endCompilerOnly, Line.blank]

/-- An address as a plain number. -/
def plainLine (a : RegisterAddress) : Line :=
  .define a.name ("(0x" ++ Numeral.hex a.address 8 ++ ")") a.register.caption

/-- An address as a register of a named type. -/
def typedLine (a : RegisterAddress) : Line :=
  .define a.name
    ("(*(" ++ Text.fillTo a.register.accessType 7 ++ "*)0x" ++ Numeral.hex a.address 8 ++ "UL)")
    a.register.caption

/-- An address as an argument of an access macro. -/
def wrappedLine (a : RegisterAddress) : Line :=
  .define a.name (a.register.accessMacro ++ "(0x" ++ Numeral.hex a.address 8 ++ ")")
    a.register.caption

/-- The addresses of the registers of an instance. -/
def addressLines (p : Peripheral) (inst : Instance) (style : Style) :
    Except Fault (List Line) :=
  match p.baseGroup? with
  | none => .ok []
  | some base => do
    let title := "/* ========== Register definition for " ++ inst.name
      ++ " peripheral instance ========== */"
    let addresses ← RegisterAddress.ofInstance p base inst style.convention
    let body := match style.instanceMacros with
      | .split =>
        [Line.assemblerOnly] ++ addresses.map plainLine ++ [.otherwise]
          ++ addresses.map typedLine ++ [Line.endAssemblerOnly]
      | _ => addresses.map wrappedLine
    return .text title :: body

/-- The parameters of an instance. -/
def parameterLines (inst : Instance) : List Line :=
  .text ("/* ========== Instance parameters for " ++ inst.name ++ " ========== */")
    :: inst.parameters.map fun v => .define (inst.name ++ "_" ++ v.name) v.value v.caption

/-- The definitions of an instance. -/
def instanceLines (p : Peripheral) (inst : Instance) (style : Style) :
    Except Fault (List Line) := do
  let addresses ← addressLines p inst style
  return [Line.blank] ++ addresses ++ [Line.blank] ++ parameterLines inst ++ [Line.blank]

/-- The peripherals that do not belong to the processor core. -/
def external (ps : List Peripheral) : List Peripheral := ps.filter fun p => !p.isCoreInternal

/-- The addresses and parameters of all instances. -/
def lines (ps : List Peripheral) (style : Style) : Except Fault (List Line) := do
  let macros := match style.instanceMacros with
    | .wrapped => accessMacroLines
    | _ => []
  let body ← (external ps).mapM fun p => do
    let instances ← p.usableInstances.mapM fun inst => instanceLines p inst style
    return instances.flatten
  return macros ++ body.flatten

/-- The instances that have a number. -/
def numbered (ps : List Peripheral) : List Instance :=
  ((external ps).flatMap Peripheral.usableInstances).filter fun i => decide (0 ≤ i.instanceId)

/-- The largest number of an instance; without any, a number far below all of them. -/
def largestId (ps : List Peripheral) : Int :=
  ((numbered ps).map Instance.instanceId).foldl max (-1000)

/-- The numbers of the instances. -/
def idLines (ps : List Peripheral) (style : Style) : List Line :=
  Line.heading "Peripheral ID Macros"
    ++ (numbered ps).map (fun i =>
      .define ("ID_" ++ i.name) ("(" ++ Numeral.decimal i.instanceId ++ ")"))
    ++ (if style.periphMaxId then
        [.define "ID_PERIPH_MAX" ("(" ++ Numeral.decimal (largestId ps) ++ ")")]
      else [])
    ++ [.define "ID_PERIPH_COUNT" ("(" ++ Numeral.decimal (largestId ps + 1) ++ ")"), Line.blank]

/-- The note on a base address. -/
def baseNote (i : Instance) : String := i.name ++ " Base Address"

/-- The instances of a peripheral as pointers to its struct, their number and their list. -/
def pointerLines (p : Peripheral) : List Line :=
  match p.usableInstances with
  | [] => []
  | instances =>
    let type := "(" ++ Text.fillTo (Text.capitalized p.name) 12 ++ "*)"
    instances.map (fun i =>
        .define i.name ("(" ++ type ++ "0x" ++ Numeral.hex i.baseAddress ++ "UL)") (baseNote i))
      ++ [.define (p.name ++ "_INST_NUM") (Numeral.natural instances.length)
          ("Number of instances for " ++ p.name),
        .define (p.name ++ "_INSTS")
          ("\x7b " ++ String.intercalate ", " (instances.map Instance.name) ++ " \x7d;")
          (p.name ++ " Instances List"),
        Line.blank]

/-- The base addresses of the instances. -/
def baseLines (ps : List Peripheral) (style : Style) : List Line :=
  let shown := external ps
  let instances := shown.flatMap Peripheral.usableInstances
  Line.heading "Peripheral Base Address Macros" ++
    match style.baseAddresses with
    | .pointers =>
      [Line.assemblerOnly]
        ++ instances.map (fun i =>
          .define i.name ("(0x" ++ Numeral.hex i.baseAddress ++ ")") (baseNote i))
        ++ [.otherwise " /* !__ASSEMBLER__ */"] ++ shown.flatMap pointerLines
        ++ [Line.endAssemblerOnly, Line.blank]
    | .regs =>
      [Line.compilerOnly]
        ++ shown.flatMap (fun p => p.usableInstances.map fun i =>
          .define (i.name ++ "_REGS")
            ("((" ++ Text.lower p.name ++ "_registers_t)0x" ++ Numeral.hex i.baseAddress ++ "UL)")
            (i.name ++ " Instance Register Address"))
        ++ [Line.endCompilerOnly, Line.blank]
        ++ instances.map (fun i =>
          .define (i.name ++ "_BASE_ADDRESS") ("_UL_(0x" ++ Numeral.hex i.baseAddress ++ ")")
            (baseNote i))
        ++ [Line.blank]

end Instances

end ChipSupport
