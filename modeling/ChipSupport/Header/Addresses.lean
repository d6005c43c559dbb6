import ChipSupport.Style

/-!
# Addresses of registers

The addresses of all registers of an instance, reached from the base group of its peripheral.  An
array of nested groups is walked once per element, and an array of registers once per register; an
array of registers inside of an array of groups is reduced to its first register.

## Main definitions

* `RegisterAddress` — a register with its address and the name under which it is defined.
* `RegisterAddress.ofGroup` — the registers reached from a group.
* `RegisterAddress.ofInstance` — the registers of an instance.
-/

namespace ChipSupport

/-- A register at its address. -/
structure RegisterAddress where
  /-- The name under which the address is defined. -/
  name : String
  /-- The address. -/
  address : Int
  /-- The register. -/
  register : Register
  deriving DecidableEq, Repr, Inhabited

namespace RegisterAddress

/-- The position of a walk through nested groups: how many elements the group has here, where its
first element lies, and the element numbers of the groups around it. -/
structure Place where
  /-- The number of elements. -/
  elements : Int := 1
  /-- The distance of the first element from the base address. -/
  offset : Int := 0
  /-- The element numbers of the surrounding arrays. -/
  numbers : String := ""
  deriving DecidableEq, Repr, Inhabited

/-- The numbers from zero up to but not including a number. -/
def upTo (n : Int) : List Int := (List.range n.toNat).map fun (k : Nat) => k

/-- The element numbers at an element of the group. -/
def Place.numbersAt (at_ : Place) (element : Int) : String :=
  if 1 < at_.elements then at_.numbers ++ Numeral.decimal element else at_.numbers

/-- The elements of a register that get a name: all of them, but only the first one inside of an
array of groups. -/
def namedElements (r : Register) (at_ : Place) : List Int :=
  if 1 < r.count ∧ at_.elements ≠ 1 then [0] else upTo r.count

/-- The name of an element of a register. -/
def elementName (r : Register) (mode : String) (inst : Instance) (convention : Convention)
    (at_ : Place) (element index : Int) : String :=
  let mode := if Mode.isDefault mode then "" else mode ++ "_"
  let index := if 1 < r.count ∧ at_.elements = 1 then Numeral.decimal index else ""
  "REG_" ++ inst.name ++ "_" ++ mode ++ convention.registerMacroName r ++ at_.numbersAt element
    ++ index

/-- The addresses of the elements of a register that is no alias. -/
def ofRegister (r : Register) (group : RegisterGroup) (mode : String) (inst : Instance)
    (convention : Convention) (at_ : Place) (element : Int) : List RegisterAddress :=
  (namedElements r at_).map fun index =>
    { name := elementName r mode inst convention at_ element index
      address := inst.baseAddress + at_.offset + r.offset + index * r.size + element * group.size
      register := r }

/-- The place of a nested group. -/
def Place.nested (at_ : Place) (r : Register) (group : RegisterGroup) (element : Int) : Place :=
  { elements := r.count
    offset := at_.offset + r.offset + element * group.size
    numbers := at_.numbersAt element }

/-- The addresses of the registers reached from a group.  Nested groups are followed `depth` times,
and a group that is nested deeper is nested without end. -/
def ofGroup (p : Peripheral) (inst : Instance) (convention : Convention) (depth : Nat)
    (group : RegisterGroup) (at_ : Place) : Except Fault (List RegisterAddress) :=
  if at_.elements ≤ 0 then .ok []
  else match depth with
    | 0 => .error .nestingTooDeep
    | depth + 1 => do
      let found ← group.modes.mapM fun mode => do
        let perElement ← (upTo at_.elements).mapM fun element => do
          let perRegister ← (group.membersOf mode).mapM fun r =>
            if r.isAlias then
              match p.group? r.name with
              | some sub => ofGroup p inst convention depth sub (at_.nested r group element)
              | none => .ok []
            else .ok (ofRegister r group mode inst convention at_ element)
          return perRegister.flatten
        return perElement.flatten
      return found.flatten

/-- The addresses of the registers of an instance, reached from the base group.  A chain of nested
groups that is longer than the number of groups returns to a group, and so has no end. -/
def ofInstance (p : Peripheral) (base : RegisterGroup) (inst : Instance) (convention : Convention) :
    Except Fault (List RegisterAddress) :=
  ofGroup p inst convention p.groups.length base {}

end RegisterAddress

end ChipSupport
