import ChipSupport.Data
import ChipSupport.Register
import ChipSupport.Text.Column
import ChipSupport.Text.Template

/-!
# Layouts

Each struct member, type definition and value in a component header is spelled by one layout, a
template that a style can replace.

## Main definitions

* `Layout` — the layouts, with their names and default spelling.
* `Layouts` — a choice of spellings.
* `Layouts.bitfield`, `Layouts.member`, … — the lines and values spelled by them.
-/

namespace ChipSupport

/-- A part of a component header whose spelling can be chosen. -/
inductive Layout where
  /-- A named member of a struct of bits. -/
  | bitfield
  /-- An unnamed member of a struct of bits. -/
  | bitGap
  /-- The remark on several bits. -/
  | bitRange
  /-- The remark on a single bit. -/
  | bitSingle
  /-- The start of a struct of bits. -/
  | bitsOpen
  /-- The end of a struct of bits. -/
  | bitsClose
  /-- The start of a union. -/
  | unionOpen
  /-- The start of a struct. -/
  | structOpen
  /-- The member for a whole register. -/
  | regMember
  /-- The end of a type definition. -/
  | typedefClose
  /-- A member of a group's struct. -/
  | member
  /-- The remark on a member of a group's struct. -/
  | memberComment
  /-- The type of reserved bytes. -/
  | reserved
  /-- The name of reserved bytes. -/
  | reservedName
  /-- The type of a mode's struct in the union of the modes. -/
  | modeMember
  /-- The alignment of a type. -/
  | aligned
  /-- The section of a group. -/
  | section_
  /-- The heading of a register. -/
  | registerCaption
  /-- The note on a field. -/
  | fieldCaption
  /-- The position of a field. -/
  | position
  /-- A mask. -/
  | mask
  /-- The value of a field in its place. -/
  | setter
  /-- The value of an option. -/
  | optionValue
  /-- The value of an option in its place. -/
  | option
  /-- The offset of a register. -/
  | offset
  /-- The reset value of a register. -/
  | reset
  /-- The number of elements of an array. -/
  | count
  deriving DecidableEq, Repr

namespace Layout

/-- The name of a layout. -/
def name : Layout → String
  | bitfield => "bitfield"
  | bitGap => "bitGap"
  | bitRange => "bitRange"
  | bitSingle => "bitSingle"
  | bitsOpen => "bitsOpen"
  | bitsClose => "bitsClose"
  | unionOpen => "unionOpen"
  | structOpen => "structOpen"
  | regMember => "regMember"
  | typedefClose => "typedefClose"
  | member => "member"
  | memberComment => "memberComment"
  | reserved => "reserved"
  | reservedName => "reservedName"
  | modeMember => "modeMember"
  | aligned => "aligned"
  | section_ => "section"
  | registerCaption => "registerCaption"
  | fieldCaption => "fieldCaption"
  | position => "position"
  | mask => "mask"
  | setter => "setter"
  | optionValue => "optionValue"
  | option => "option"
  | offset => "offset"
  | reset => "reset"
  | count => "count"

/-- The spelling of a layout that is not replaced. -/
def standard : Layout → String
  | bitfield => "    $type  $name:$width;"
  | bitGap => "    $type  :$width;"
  | bitRange => "/* bit: $lsb..$msb  $caption */"
  | bitSingle => "/* bit:     $lsb  $caption */"
  | bitsOpen => "  struct \x7b"
  | bitsClose => "  \x7d $name;"
  | unionOpen => "typedef union \x7b"
  | structOpen => "typedef struct \x7b"
  | regMember => "  $type reg;"
  | typedefClose => "\x7d $name$attributes;"
  | member => "  $io $type"
  | memberComment => "/* Offset 0x$offset: ($rw $bits) $caption */"
  | reserved => "  __IM  uint8_t"
  | reservedName => "Reserved$number[$bytes];"
  | modeMember => "       $type"
  | aligned => " __attribute__((aligned($alignment)))"
  | section_ => "__attribute__ ((section(\".$section\")))"
  | registerCaption =>
    "/* -------- $name : ($owner Offset: 0x$offset) ($rw $bits) $caption -------- */"
  | fieldCaption => "$register<$name>: $caption"
  | position => "($lsb)"
  | mask => "_U_(0x$mask)"
  | setter => "($\x7bbase\x7d_Msk & ((value) << $\x7bbase\x7d_Pos))"
  | optionValue => "_U_($value)"
  | option => "($\x7bbase\x7d$\x7bname\x7d_Val << $\x7bbase\x7dPos)"
  | offset => "(0x$offset)"
  | reset => "_U_(0x$value)"
  | count => "_U_($count)"

end Layout

/-- A choice of spellings: pairs of a layout's name and its template.  The last pair of a name
counts, and other names are ignored.  A name that is no text can be chosen, but not used. -/
abbrev Layouts := List (Data × String)

namespace Layouts

/-- The choice of spellings by names that are texts. -/
def ofTexts (pairs : List (String × String)) : Layouts := pairs.map fun p => (.text p.1, p.2)

/-- The fault of a choice in which a name is no text. -/
def checkNames (ls : Layouts) : Except Fault Unit :=
  if ls.all fun l => l.1.isText then .ok () else .error .valueUnsuitable

/-- The template of a name. -/
def template? (name : String) : Layouts → Option String
  | [] => none
  | (key, template) :: rest =>
    match template? name rest with
    | some later => some later
    | none => if key.hasText name then some template else none

/-- The template of a layout. -/
def template (ls : Layouts) (l : Layout) : String := (ls.template? l.name).getD l.standard

/-- A layout with values for its placeholders. -/
def spell (ls : Layouts) (l : Layout) (values : List (String × String)) : Except Fault String :=
  Template.fill (ls.template l) values

/-- The start of a struct. -/
def structOpen (ls : Layouts) : Except Fault String := ls.spell .structOpen []

/-- The start of a union. -/
def unionOpen (ls : Layouts) : Except Fault String := ls.spell .unionOpen []

/-- The member for a whole register. -/
def regMember (ls : Layouts) (type : String) : Except Fault String :=
  ls.spell .regMember [("type", type)]

/-- The line of a member of a struct of bits: its declaration, and for a field the remark on its
bits. -/
def bitfield (ls : Layouts) (field : Field) (type : String) : Except Fault String :=
  match field with
  | .gap _ width => ls.spell .bitGap [("type", type), ("width", Numeral.decimal width)]
  | .named f => do
    let declaration ← ls.spell .bitfield
      [("type", type), ("name", f.name), ("width", Numeral.natural f.width)]
    let remark ←
      if 1 < f.width then
        ls.spell .bitRange [("lsb", Numeral.rightAligned f.lsb 2),
          ("msb", Numeral.rightAligned f.msb 2), ("caption", f.caption)]
      else
        ls.spell .bitSingle [("lsb", Numeral.rightAligned f.lsb 2), ("caption", f.caption)]
    return Text.padTo declaration 36 ++ remark

/-- The lines of a struct of bits. -/
def bitfieldStruct (ls : Layouts) (members : List Field) (type name : String) :
    Except Fault (List String) := do
  let first ← ls.spell .bitsOpen [("name", name)]
  let body ← members.mapM fun f => ls.bitfield f type
  let last ← ls.spell .bitsClose [("name", name)]
  return first :: (body ++ [last])

/-- The end of a type definition, with an alignment if it is positive. -/
def typedefClose (ls : Layouts) (name : String) (alignment : Int := 0) : Except Fault String := do
  let attributes ←
    if 0 < alignment then ls.spell .aligned [("alignment", Numeral.decimal alignment)] else pure ""
  ls.spell .typedefClose [("name", name), ("attributes", attributes)]

/-- The line of reserved bytes in a group's struct. -/
def reserved (ls : Layouts) (number bytes : Int) : Except Fault String := do
  let type ← ls.spell .reserved []
  let name ← ls.spell .reservedName
    [("number", Numeral.decimal number), ("bytes", Numeral.decimal bytes)]
  return Text.padTo type 36 ++ name

/-- The line of a register in a group's struct, an array if it has more than one element. -/
def member (ls : Layouts) (qualifier type variable_ : String) (count column : Int) (r : Register) :
    Except Fault String := do
  let declaration ← ls.spell .member [("io", qualifier), ("type", type)]
  let array := if 1 < count then "[" ++ Numeral.decimal count ++ "]" else ""
  let remark ← ls.spell .memberComment [("offset", Numeral.hex r.offset 2), ("rw", r.rw),
    ("bits", Numeral.decimal (8 * r.size)), ("caption", r.caption)]
  return Text.padTo (Text.padTo declaration 36 ++ variable_ ++ array ++ ";") column ++ remark

/-- The line of a mode's struct in the union of the modes. -/
def modeMember (ls : Layouts) (type mode : String) : Except Fault String := do
  let declaration ← ls.spell .modeMember [("type", type)]
  return Text.padTo declaration 36 ++ mode ++ ";"

/-- The heading of a register. -/
def registerCaption (ls : Layouts) (r : Register) (name : String) : Except Fault String :=
  ls.spell .registerCaption [("name", name), ("owner", r.owner), ("offset", Numeral.hex r.offset 2),
    ("rw", r.rw), ("bits", Numeral.decimal r.bitWidth), ("caption", r.caption)]

/-- The note on a field. -/
def fieldCaption (ls : Layouts) (register name caption : String) : Except Fault String :=
  ls.spell .fieldCaption [("register", register), ("name", name), ("caption", caption)]

/-- The position of a field. -/
def position (ls : Layouts) (lsb : Int) : Except Fault String :=
  ls.spell .position [("lsb", Numeral.decimal lsb)]

/-- A mask. -/
def mask (ls : Layouts) (value : Int) : Except Fault String :=
  ls.spell .mask [("mask", Numeral.hex value)]

/-- The value of a field in its place. -/
def setter (ls : Layouts) (base : String) : Except Fault String :=
  ls.spell .setter [("base", base)]

/-- The value of an option. -/
def optionValue (ls : Layouts) (value : String) : Except Fault String :=
  ls.spell .optionValue [("value", value)]

/-- The value of an option in its place. -/
def option (ls : Layouts) (base name : String) : Except Fault String :=
  ls.spell .option [("base", base), ("name", name)]

/-- The offset of a register. -/
def offset (ls : Layouts) (value : Int) : Except Fault String :=
  ls.spell .offset [("offset", Numeral.hex value 2)]

/-- The reset value of a register. -/
def reset (ls : Layouts) (value : Int) : Except Fault String :=
  ls.spell .reset [("value", Numeral.hex value)]

/-- The number of elements of an array. -/
def count (ls : Layouts) (value : Int) : Except Fault String :=
  ls.spell .count [("count", Numeral.decimal value)]

/-- The section of a group. -/
def section_ (ls : Layouts) (name : String) : Except Fault String :=
  ls.spell .section_ [("section", name)]

end Layouts

end ChipSupport
