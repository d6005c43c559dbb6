import ChipSupport.Line
import ChipSupport.Style

/-!
# Structs of register groups

A group of registers is a struct with reserved bytes where no register lies.  A group with modes has
a struct for each mode, which holds the registers of no particular mode as well, and a union of
these structs.

## Main definitions

* `GroupEntry`, `layoutMembers` — the members of a struct.
* `RegisterGroup.structMembers` — the registers of a mode's struct.
* `GroupStruct.lines` — the definition of a group.
-/

namespace ChipSupport

/-- A member of a group's struct. -/
inductive GroupEntry where
  /-- Reserved bytes, numbered from one. -/
  | reserved (number bytes : Int)
  /-- A register, or a nested group. -/
  | register (r : Register)
  deriving DecidableEq, Repr

/-- The members of a struct from an offset on; the next reserved bytes get the number given. -/
def layoutMembersFrom (next number groupSize : Int) : List Register → List GroupEntry
  | [] => if next < groupSize then [.reserved number (groupSize - next)] else []
  | r :: rest =>
    if 0 < r.offset - next then
      .reserved number (r.offset - next) :: .register r ::
        layoutMembersFrom (r.offset + r.count * r.size) (number + 1) groupSize rest
    else .register r :: layoutMembersFrom (next + r.count * r.size) number groupSize rest

/-- The members of a struct of registers in the order of their offsets, with reserved bytes in the
holes between them and after them. -/
def layoutMembers (rs : List Register) (groupSize : Int) : List GroupEntry :=
  layoutMembersFrom 0 1 groupSize rs

/-- The registers in the struct of a mode.  In a group with several modes these include the
registers of no particular mode. -/
def RegisterGroup.structMembers (g : RegisterGroup) (mode : String) : List Register :=
  if 1 < g.modes.length then Register.sorted (g.membersOf mode ++ g.membersOf Mode.default_)
  else g.membersOf mode

namespace GroupStruct

/-- The modes for which a struct is defined: those with registers, but in a group with several modes
not the default mode. -/
def shownModes (g : RegisterGroup) : List String :=
  g.modes.filter fun mode =>
    !(g.membersOf mode).isEmpty && !(decide (1 < g.modes.length) && Mode.isDefault mode)

/-- The number of elements of a group array, as a definition, if the convention has one. -/
def sizeLine? (r : Register) (mode : String) (style : Style) : Except Fault (Option Line) :=
  if 1 < r.count ∧ r.isAlias then
    match style.convention.sizeMacroName? r mode with
    | some name => do
      let count ← style.layouts.count r.count
      return some (.define name count)
    | none => .ok none
  else .ok none

/-- The line of a member, and the definition of its number of elements. -/
def memberLine (entry : GroupEntry) (mode start : String) (style : Style) :
    Except Fault (String × Option Line) :=
  match entry with
  | .reserved number bytes => do
    let line ← style.layouts.reserved number bytes
    return (line, none)
  | .register r => do
    let size ← sizeLine? r mode style
    let qualifier ← style.qualifier r
    let line ← style.layouts.member qualifier (style.convention.memberType r mode)
      (style.convention.memberVariable r start) r.count style.remarkColumn r
    return (line, size)

/-- The struct of a mode, and the definitions of the sizes of its arrays. -/
def structLines (g : RegisterGroup) (mode : String) (style : Style) :
    Except Fault (List Line × List Line) := do
  let first ← style.layouts.structOpen
  let members ← (layoutMembers (g.structMembers mode) g.size).mapM fun e =>
    memberLine e mode g.memberStart style
  let last ← style.layouts.typedefClose (style.convention.groupType g mode) g.alignment
  return ([Line.compilerOnly, .text first] ++ members.map (fun m => Line.text m.1)
    ++ [.text last, Line.endCompilerOnly, Line.blank], members.filterMap Prod.snd)

/-- The union of the structs of a group with two modes or more besides the default mode. -/
def unionLines (g : RegisterGroup) (style : Style) : Except Fault (List Line) :=
  if 2 < g.modes.length then do
    let first ← style.layouts.unionOpen
    let shown := g.modes.filter fun mode => !Mode.isDefault mode && !(g.membersOf mode).isEmpty
    let members ← shown.mapM fun mode =>
      style.layouts.modeMember (style.convention.groupType g mode) mode
    let last ← style.layouts.typedefClose (style.convention.groupType g "")
    return [Line.compilerOnly, .text first] ++ members.map Line.text
      ++ [.text last, Line.endCompilerOnly, Line.blank]
  else .ok []

/-- The definition of the section in which a group is placed. -/
def sectionLines (g : RegisterGroup) (style : Style) : Except Fault (List Line) :=
  if g.section_.isEmpty then .ok []
  else do
    let value ← style.layouts.section_ g.section_
    return [.define ("SECTION_" ++ Text.upper g.name) value, Line.blank]

/-- The definition of a group. -/
def lines (g : RegisterGroup) (style : Style) : Except Fault (List Line) := do
  style.layouts.checkNames
  let structs ← (shownModes g).mapM fun mode => structLines g mode style
  let union ← unionLines g style
  let sizes := structs.flatMap Prod.snd
  let sized := if sizes.isEmpty then [] else sizes ++ [Line.blank]
  let section_ ← sectionLines g style
  return structs.flatMap Prod.fst ++ union ++ sized ++ section_

end GroupStruct

end ChipSupport
