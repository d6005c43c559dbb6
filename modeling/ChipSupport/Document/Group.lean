import ChipSupport.Device.Peripheral
import ChipSupport.Document.Node
import ChipSupport.Note

/-!
# Register groups of a document

Registers and nested groups are listed under modes that the group declares.  Modes with the same
registers are merged.

## Main definitions

* `Node.bitfield`, `Node.register` — the parts of a group.
* `Node.registers` — all registers and nested groups, by offset.
* `Node.group` — a group.
* `Node.undeclared` — the registers whose mode the group does not declare.
-/

namespace ChipSupport.Node

/-- The nodes of the values in a value group of the module.  Without a group there are none. -/
def valueGroup (module_ group : Data) (field : String) : Except Fault (List Data) := do
  if group.isEmpty then return []
  match ← named? group (children module_ "value-group") with
  | some node => return children node "value"
  | none =>
    throw (.valueGroupMissing (shown group) field (attr module_ "name" "<unknown>"))

/-- The modes that a bitfield lists; without any it is in the default mode. -/
def bitfieldModes (node : Data) : Except Fault (List String) :=
  match attributeData node "modes" with
  | .text s =>
    match Text.words s with
    | [] => .ok [Mode.default_]
    | modes => .ok modes
  | _ => .error .nodeWithoutParts

/-- A bitfield of a register. -/
def bitfield (module_ : Data) (register : String) (node : Data) : Except Fault Bitfield := do
  let name := attr node "name"
  let modes ← bitfieldModes node
  let values ← valueGroup module_ (attributeData node "values") name
  let mask ← numberAttribute node "mask" 0xFFFFFFFF
  return {
    name, mask, caption := attr node "caption", modes, values := namedValues values, register }

/-- A register, or a nested group, which has no bitfields and no size unless it states one. -/
def register (module_ : Data) (isAlias : Bool) (node : Data) : Except Fault Register := do
  let name := attr node "name"
  let bitfields ←
    if isAlias then pure [] else (children node "bitfield").mapM (bitfield module_ name)
  let offset ← numberAttribute node "offset"
  let size ← numberAttribute node "size" (if isAlias then 0 else 1)
  let initval ← numberAttribute node "initval"
  let count ← numberAttribute node "count" 1
  return {
    name
    owner := attr module_ "name"
    offset
    size
    rw := attr node "rw" "R"
    caption := attr node "caption"
    initval
    count
    isAlias
    mode := attr node "modes" Mode.default_
    bitfields }

/-- The registers and nested groups of a group, by offset. -/
def registers (module_ node : Data) : Except Fault (List Register) := do
  let plain ← (children node "register").mapM (register module_ false)
  let nested ← (children node "register-group").mapM (register module_ true)
  return Register.sorted (plain ++ nested)

/-- The names of the modes that a group declares. -/
def declaredModes (node : Data) : List Data :=
  ((children node "mode").map fun m => attributeData m "name").filter fun name => !name.isEmpty

/-- The modes of a group: the default mode, and those that it declares by name. -/
def groupModes (node : Data) : List String := Mode.default_ :: (declaredModes node).map shown

/-- The registers under each mode.  A mode that is declared twice has them at its first place. -/
def listed (rs : List Register) (seen : List String) : List String → List (String × List Register)
  | [] => []
  | mode :: rest =>
    (mode, if seen.contains mode then [] else rs.filter fun r => r.mode == mode)
      :: listed rs (mode :: seen) rest

/-- The modes of a group with their registers, merged where the registers are the same.  Every
register carries the mode that it is listed under. -/
def mergedModes (modes : List String) (rs : List Register) : List (String × List Register) :=
  if 1 < modes.length then
    (Mode.coalesce Register.sameRegisters (listed rs [] modes)).map fun m =>
      (m.1, m.2.map fun r => { r with mode := m.1 })
  else listed rs [] modes

/-- Whether two modes have the same registers, one of which has a name that is no text. -/
def mergesNameless : List (Data × List Register) → Bool
  | [] => false
  | (name, rs) :: rest =>
    (rest.any fun other =>
      Register.sameRegisters rs other.2 && !(name.isText && other.1.isText)) || mergesNameless rest

/-- The fault of modes that cannot be merged, because a name is no text and so has no start. -/
def checkModes (node : Data) (rs : List Register) : Except Fault Unit :=
  let names := .text Mode.default_ :: declaredModes node
  if mergesNameless (names.zip ((listed rs [] (groupModes node)).map Prod.snd)) then
    .error .valueUnsuitable
  else .ok ()

/-- The entries of a list of pairs of which the last one of a name counts. -/
def lastOfEach {α : Type} : List (String × α) → List (String × α)
  | [] => []
  | (name, value) :: rest =>
    if (rest.map Prod.fst).contains name then lastOfEach rest
    else (name, value) :: lastOfEach rest

/-- A register group. -/
def group (module_ node : Data) : Except Fault RegisterGroup := do
  let rs ← registers module_ node
  checkModes node rs
  let modes := mergedModes (groupModes node) rs
  let size ← numberAttribute node "size"
  let alignment ← numberAttribute node "aligned"
  if !(declaredModes node).all Data.canBeKey then throw .valueUnsuitable
  return {
    name := attr node "name"
    owner := attr module_ "name"
    caption := attr node "caption"
    size := max 0 size
    alignment := max 0 alignment
    section_ := attr node "section"
    modes := modes.map Prod.fst
    members := lastOfEach modes }

/-- The registers of a group whose mode the group does not declare. -/
def undeclared (node : Data) (rs : List Register) : List Register :=
  rs.filter fun r => !(groupModes node).contains r.mode

/-- The notes on registers of undeclared modes. -/
def groupNotes (module_ node : Data) (rs : List Register) : List Note :=
  (undeclared node rs).map fun r =>
    ⟨.detail, .documents, attr module_ "name" ++ ": register " ++ r.name
      ++ " uses undeclared mode " ++ r.mode⟩

end ChipSupport.Node
