import ChipSupport.Register

/-!
# Peripherals

A peripheral has groups of registers, which describe its layout in memory, and instances, each at a
base address of its own.

## Main definitions

* `RegisterGroup` — registers by mode, with the sizes of the struct they make up.
* `Instance`, `Signal` — an instance of a peripheral and the pads it can be wired to.
* `Peripheral` — a peripheral with its groups and instances.
-/

namespace ChipSupport

/-- A group of registers. -/
structure RegisterGroup where
  /-- The name. -/
  name : String
  /-- The peripheral that the group belongs to. -/
  owner : String
  /-- What it is. -/
  caption : String := ""
  /-- The size in bytes. -/
  size : Int := 0
  /-- The alignment in bytes, or zero. -/
  alignment : Int := 0
  /-- The memory section in which the group is placed, if it has one of its own. -/
  section_ : String := ""
  /-- The modes. -/
  modes : List String := [Mode.default_]
  /-- The registers listed under each mode. -/
  members : List (String × List Register) := []
  deriving Repr, Inhabited

namespace RegisterGroup

/-- What names of members start with: nothing in the base group of a peripheral. -/
def memberStart (g : RegisterGroup) : String := if g.name = g.owner then "" else g.owner ++ "_"

/-- The registers listed under a mode. -/
def membersOf (g : RegisterGroup) (mode : String) : List Register := (g.members.lookup mode).getD []

/-- The registers of all modes. -/
def allMembers (g : RegisterGroup) : List Register := g.modes.flatMap g.membersOf

end RegisterGroup

/-- A signal of an instance and the pad at which it can be connected. -/
structure Signal where
  /-- The group of signals. -/
  group : String := ""
  /-- The number within the group. -/
  index : String := ""
  /-- The pin function that connects the signal. -/
  function : String := ""
  /-- The pad. -/
  pad : String := ""
  deriving DecidableEq, Repr, Inhabited

/-- An instance of a peripheral. -/
structure Instance where
  /-- The name. -/
  name : String
  /-- The address of the first register. -/
  baseAddress : Int := 0
  /-- The number of the instance in the device, or a negative number. -/
  instanceId : Int := -1
  /-- The parameters. -/
  parameters : List NamedValue := []
  /-- The signals. -/
  signals : List Signal := []
  deriving DecidableEq, Repr, Inhabited

/-- A peripheral. -/
structure Peripheral where
  /-- The name. -/
  name : String
  /-- The identification of the module. -/
  moduleId : String := ""
  /-- The version of the module. -/
  version : String := ""
  /-- What it is. -/
  caption : String := ""
  /-- The register groups. -/
  groups : List RegisterGroup := []
  /-- The instances, if the document describes them completely. -/
  instances : Option (List Instance) := none
  /-- Why there are no instances. -/
  instanceProblem : String := ""
  deriving Repr, Inhabited

namespace Peripheral

/-- Why the instances cannot be used. -/
def problem (p : Peripheral) : String :=
  if p.instanceProblem.isEmpty then "no instance data for peripheral " ++ p.name
  else p.instanceProblem

/-- The instances, or the fault that there are none to use. -/
def allInstances (p : Peripheral) : Except Fault (List Instance) :=
  match p.instances with
  | some is => .ok is
  | none => .error (.instancesUnusable p.problem)

/-- The instances, if they can be used. -/
def usableInstances (p : Peripheral) : List Instance := p.instances.getD []

/-- The instance at a position; negative positions count from the end. -/
def instanceAt (p : Peripheral) (index : Int) : Except Fault Instance := do
  let is ← p.allInstances
  let position := if index < 0 then index + is.length else index
  if position < 0 then .error .positionOutside
  else match is[position.toNat]? with
    | some i => .ok i
    | none => .error .positionOutside

/-- The first group of a name. -/
def group? (p : Peripheral) (name : String) : Option RegisterGroup :=
  p.groups.find? fun g => g.name == name

/-- The group that lies at the base address of an instance. -/
def baseGroup? (p : Peripheral) : Option RegisterGroup := p.group? p.name

/-- Whether a peripheral belongs to the processor core, whose own headers describe it.  So do those
without instances. -/
def isCoreInternal (p : Peripheral) : Bool :=
  match p.usableInstances with
  | i :: _ => decide (0xE0000000 ≤ i.baseAddress)
  | [] => true

end Peripheral

end ChipSupport
