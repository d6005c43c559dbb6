import ChipSupport.Device.Peripheral
import ChipSupport.Text.Split

/-!
# Names in generated headers

Two conventions derive the identifiers of a header from the names of peripherals, groups, registers
and modes.  The capitalized convention names structs like `AdcChannel_t` and register unions like
`ADC_CTRL_Type`; the lower case convention names structs like `adc_registers_t` and uses plain
integer types for registers.

## Main definitions

* `dropOwner`, `joinCapitalized` — names without their owner, and names in mixed case.
* `Convention` — the two conventions, and the names they give to groups, registers and members.
* `qualifiedName` — the name that the definitions of a register start with.
-/

namespace ChipSupport

/-- A name without the given start and one underscore after it, if it has that start. -/
def dropOwner (name owner : String) : String :=
  if owner.isEmpty || !owner.toList.isPrefixOf name.toList then name
  else match name.toList.drop owner.length with
    | '_' :: rest => String.ofList rest
    | rest => String.ofList rest

/-- A name whose parts are capitalized and joined. -/
def joinCapitalized (name : String) : String :=
  String.join ((Text.split '_' name).map Text.capitalized)

/-- The integer type of a register's size. -/
def Register.integerType (r : Register) : String :=
  if r.size = 1 then "uint8_t" else if r.size = 2 then "uint16_t" else "uint32_t"

/-- The name that all definitions of a register start with. -/
def qualifiedName (register owner mode start : String) : String :=
  if start.isEmpty then
    if Mode.isDefault mode then owner ++ "_" ++ register
    else owner ++ "_" ++ mode ++ "_" ++ register
  else
    let register := if start = owner ++ "_" then start ++ register else register
    if Mode.isDefault mode then register else register ++ "_" ++ mode

/-- A convention for names. -/
inductive Convention where
  /-- Capitalized parts without underscores.  `qualify` says whether the start of a group's member
  names qualifies the names of its registers. -/
  | pascal (qualify : Bool)
  /-- Lower case with underscores. -/
  | snake
  deriving DecidableEq, Repr, Inhabited

namespace Convention

/-- The convention of a name; what is not `snake` is capitalized. -/
def ofName (name : String) (qualify : Bool) : Convention :=
  if name = "snake" then .snake else .pascal qualify

/-- The struct name of a group in the capitalized convention. -/
def pascalGroup (group owner mode : String) (isType : Bool) : String :=
  let group := joinCapitalized (dropOwner group owner)
  let owner := joinCapitalized owner
  let ending := if isType then "_t" else ""
  if Mode.isDefault mode then
    if group.isEmpty then owner else owner ++ group ++ ending
  else
    let mode := joinCapitalized mode
    if mode.toList.isPrefixOf group.toList then owner ++ group ++ ending
    else owner ++ mode ++ group ++ ending

/-- The name of a group in the lower case convention, ending as given. -/
def snakeGroup (group owner mode ending : String) : String :=
  let group := Text.lower (dropOwner group owner)
  let owner := Text.lower owner
  if Mode.isDefault mode then
    (if group.isEmpty then owner else owner ++ "_") ++ group ++ ending
  else
    let mode := Text.lower mode
    if group.isEmpty then owner ++ "_" ++ mode ++ ending
    else if mode.toList.isPrefixOf group.toList then owner ++ "_" ++ group ++ ending
    else owner ++ "_" ++ group ++ "_" ++ mode ++ ending

/-- The name of a group, as a type or as a member. -/
def groupName (c : Convention) (group owner mode : String) (isType : Bool := true) : String :=
  match c with
  | .pascal _ => pascalGroup group owner mode isType
  | .snake =>
    if isType then snakeGroup group owner mode "_registers_t"
    else Text.upper (dropOwner group owner)

/-- The struct type of a group in a mode. -/
def groupType (c : Convention) (g : RegisterGroup) (mode : String) : String :=
  c.groupName g.name g.owner mode

/-- The type of a register in a mode of its group. -/
def registerType (c : Convention) (r : Register) (mode : String) : String :=
  if r.isAlias then c.groupName r.name r.owner mode
  else match c with
    | .snake => r.integerType
    | .pascal _ =>
      let name := Text.upper (dropOwner r.name r.owner)
      let owner := Text.upper r.owner
      if Mode.isDefault mode then owner ++ "_" ++ name ++ "_Type"
      else owner ++ "_" ++ Text.upper mode ++ "_" ++ name ++ "_Type"

/-- The name of a register in the lower case convention, with its owner in front or without it. -/
def snakeVariable (r : Register) (withOwner : Bool) : String :=
  let name := Text.upper r.name
  if withOwner then
    if r.owner.toList.isPrefixOf name.toList then name else r.owner ++ "_" ++ name
  else dropOwner name r.owner

/-- The name of a register as a variable. -/
def registerVariable (c : Convention) (r : Register) : String :=
  match c with
  | .snake => snakeVariable r false
  | .pascal _ => if r.isAlias then pascalGroup r.name "" "" false else Text.upper r.name

/-- The name of a register in the names of definitions. -/
def registerMacroName (c : Convention) (r : Register) : String :=
  match c with
  | .snake => snakeVariable r false
  | .pascal q => dropOwner ((pascal q).registerVariable r) r.owner

/-- The type of a register as a member of its group's struct.  In the capitalized convention a
register of no particular mode keeps its own type in the struct of a mode. -/
def memberType (c : Convention) (r : Register) (mode : String) : String :=
  match c with
  | .snake => c.registerType r mode
  | .pascal _ => c.registerType r (if Mode.isDefault r.mode then r.mode else mode)

/-- The name of a register as a member of its group's struct. -/
def memberVariable (c : Convention) (r : Register) (start : String) : String :=
  match c with
  | .pascal _ => c.registerVariable r
  | .snake =>
    if start = r.owner ++ "_" then snakeVariable r true
    else snakeVariable r (!r.isAlias && start.isEmpty)

/-- The name that all definitions of a register start with. -/
def qualifiedRegisterName (c : Convention) (r : Register) (mode start : String) : String :=
  match c with
  | .pascal qualify =>
    qualifiedName (c.registerMacroName r) r.owner mode (if qualify then start else "")
  | .snake => qualifiedName (c.registerMacroName r) r.owner mode start

/-- The name under which the number of elements of a group array is defined, if it is. -/
def sizeMacroName? (c : Convention) (r : Register) (mode : String) : Option String :=
  match c with
  | .pascal _ => none
  | .snake => some (Text.upper (snakeGroup r.name r.owner mode "") ++ "_NUMBER")

end Convention

end ChipSupport
