import ChipSupport.Device
import ChipSupport.Document.Group
import ChipSupport.Text.Digit

/-!
# Device documents

A device document describes a peripheral at two places: the device lists its instances, and a module
describes its registers.

## Main definitions

* `Document` — a document with a device.
* `Document.device`, `Document.interrupts`, … — what it says of the device.
* `Document.peripheral` — a peripheral.
* `Document.Cache`, `Document.Cache.peripheral`, `Document.Cache.peripherals` — reading peripherals
  once each, with the notes on what was skipped.
-/

namespace ChipSupport

/-- A document with a device. -/
structure Document where
  /-- Where the document comes from. -/
  source : String
  /-- The device. -/
  deviceNode : Data
  /-- The modules. -/
  modulesNode : Data
  deriving Repr, Inhabited

namespace Node

/-- The attribute with the number of an instance: the value of a parameter, or the
identification. -/
def instanceNumber (node : Data) (parameters : List Data) : Data :=
  match parameters.find? fun p => (attributeData p "name").hasText "INSTANCE_ID" with
  | some p => attributeData p "value"
  | none => attributeData node "id"

/-- The register group at the base address of an instance. -/
def instanceBase? (node : Data) : Except Fault (Option Data) :=
  named? (attributeData node "name") (children node "register-group")

/-- An instance of a peripheral. -/
def inst (node : Data) : Except Fault Instance := do
  let name := attr node "name"
  let base ← instanceBase? node
  match base, node.get? "signals", node.get? "parameters" with
  | some base, some signalsNode, some parametersNode => do
    let parameters := children parametersNode "param"
    let instanceId ← number (instanceNumber node parameters) (-1)
    let signals := (children signalsNode "signal").map fun s =>
      ({ group := attr s "group", index := attr s "index",
         function := attr s "function", pad := attr s "pad" } : Signal)
    let baseAddress ← numberAttribute base "offset"
    return { name, baseAddress, instanceId, parameters := namedValues parameters, signals }
  | _, _, _ => throw (.instanceIncomplete name)

/-- A peripheral from its node in the device and its module.  A document fault in an instance is
kept as the reason why there are no instances. -/
def peripheral (deviceNode module_ : Data) : Except Fault Peripheral := do
  let name := attr deviceNode "name"
  let groups ← (children module_ "register-group").mapM (group module_)
  let found : Option (List Instance) × String ←
    match (children deviceNode "instance").mapM inst with
    | .ok instances => pure (some instances, "")
    | .error f =>
      if f.isDocumentFault then pure (none, "peripheral " ++ name ++ ": " ++ f.message)
      else throw f
  return {
    name
    moduleId := attr deviceNode "id"
    version := attr deviceNode "version"
    caption := attr module_ "caption"
    groups
    instances := found.1
    instanceProblem := found.2 }

/-- The notes on reading a peripheral: those on its groups, up to a group that cannot be read. -/
def peripheralNotes (module_ : Data) : List Note :=
  (untilFault ((children module_ "register-group").map fun node =>
    (registers module_ node).map fun rs => groupNotes module_ node rs)).flatten

end Node

namespace Document

open Node

/-- The document of data that has a device. -/
def ofData (d : Data) (source : String := "<string>") : Except Fault Document := do
  let root := (d.get? "avr-tools-device-file").getD .null
  let devices ← if root.isEmpty then pure Data.null else part root "devices"
  match children devices "device" with
  | [] | .null :: _ => throw (.notADeviceDocument source)
  | deviceNode :: _ =>
    let modules ← part root "modules"
    return { source, deviceNode, modulesNode := if modules.isEmpty then .table [] else modules }

/-- A memory segment. -/
def segment (node : Data) : Except Fault MemorySegment := do
  let start ← numberAttribute node "start"
  let size ← numberAttribute node "size"
  let pageSize ← numberAttribute node "pagesize"
  return { name := attr node "name", start, size, pageSize, kind := attr node "type" }

/-- The main address space. -/
def baseSpace? (doc : Document) : Except Fault (Option Data) := do
  find? "id" (.text "base") (children (← part doc.deviceNode "address-spaces") "address-space")

/-- The nodes of the properties in a group. -/
def propertyNodes (doc : Document) (group : String) : Except Fault (List Data) := do
  let groups := children (← part doc.deviceNode "property-groups") "property-group"
  return childrenOf? (← named? (.text group) groups) "property"

/-- The device as a whole. -/
def device (doc : Document) : Except Fault Device := do
  let node := doc.deviceNode
  let base ← doc.baseSpace?
  let segments ← (childrenOf? base "memory-segment").mapM segment
  let parameters := namedValues (children (← part node "parameters") "param")
  let signatures ← doc.propertyNodes "SIGNATURES"
  let electrical ← doc.propertyNodes "ELECTRICAL_CHARACTERISTICS"
  return {
    name := attr node "name"
    architecture := attr node "architecture"
    family := attr node "family"
    series := attr node "series"
    parameters
    signatures := namedValues signatures
    electrical := namedValues electrical
    segments }

/-- The nodes of the peripherals of the device. -/
def peripheralNodes (doc : Document) : Except Fault (List Data) := do
  return children (← part doc.deviceNode "peripherals") "module"

/-- The names of the peripherals of the device. -/
def peripheralNames (doc : Document) : Except Fault (List Data) := do
  return (← doc.peripheralNodes).map fun n => attributeData n "name"

/-- The node in the device and the module of a peripheral. -/
def peripheralParts (doc : Document) (name : Data) : Except Fault (Data × Data) := do
  if !name.canBeKey then throw .valueUnsuitable
  let inDevice ← named? name (← doc.peripheralNodes)
  let module_ ← named? name (children doc.modulesNode "module")
  match inDevice, module_ with
  | some node, some module_ => return (node, module_)
  | _, _ => throw (.moduleMissing doc.source (shown name))

/-- A peripheral. -/
def peripheral (doc : Document) (name : Data) : Except Fault Peripheral := do
  let (node, module_) ← doc.peripheralParts name
  Node.peripheral node module_

/-- The names of the peripherals that can be read. -/
def describedNames (doc : Document) : Except Fault (List Data) := do
  return (← doc.peripheralNames).filterMap fun name =>
    match doc.peripheral name, doc.peripheralParts name with
    | .ok _, .ok (node, _) => some (attributeData node "name")
    | _, _ => none

/-- The notes on reading a peripheral. -/
def peripheralNotes (doc : Document) (name : Data) : List Note :=
  match doc.peripheralParts name with
  | .ok (_, module_) => Node.peripheralNotes module_
  | .error _ => []

/-- Whether a pad is a port pin: the letter `P`, a capital letter for the port and a number. -/
def isPortPin (pad : List Char) : Bool :=
  match pad with
  | 'P' :: port :: digits =>
    'A' ≤ port && port ≤ 'Z' && (digits.head?.map Text.isDecimal).getD false
      && (match digits.dropWhile Text.isDecimal with
        | [] => true
        | ['\n'] => true
        | _ => false)
  | _ => false

/-- The pads of the signals of an instance. -/
def pads (node : Data) : Except Fault (List String) := do
  let signals := children (← part node "signals") "signal"
  signals.mapM fun s =>
    match attributeData s "pad" with
    | .text pad => .ok pad
    | _ => .error .valueUnsuitable

/-- The names of the port pins that signals use, each once, in the order of the document. -/
def portPinNames (doc : Document) : Except Fault (List String) := do
  let nodes ← doc.peripheralNodes
  let all ← (nodes.flatMap fun n => children n "instance").mapM pads
  return (all.flatten.filter fun p => isPortPin p.toList).eraseDups

/-- The interrupts. -/
def interrupts (doc : Document) : Except Fault InterruptList := do
  let nodes := children (← part doc.deviceNode "interrupts") "interrupt"
  let vectors ← nodes.mapM fun n => do
    let number ← integerAttribute n "index" (-1)
    return ({ number, name := attr n "name", caption := attr n "caption",
              owner := attr n "module-instance" } : Interrupt)
  return { vectors }

/-- The nodes of the events of a kind. -/
def eventNodes (doc : Document) (kind tag : String) : Except Fault (List Data) := do
  let all ← part doc.deviceNode "events"
  let node ← if all.isEmpty then pure Data.null else part all kind
  return children node tag

/-- The events of a kind. -/
def events (doc : Document) (kind tag : String) : Except Fault (List Event) := do
  (← doc.eventNodes kind tag).mapM fun n => do
    let index ← integerAttribute n "index" 0
    return { name := attr n "name", index, instanceName := attr n "module-instance" }

/-- The events that peripherals can send. -/
def eventGenerators (doc : Document) : Except Fault (List Event) :=
  doc.events "generators" "generator"

/-- The events that peripherals can receive. -/
def eventUsers (doc : Document) : Except Fault (List Event) := doc.events "users" "user"

/-- The peripherals of a document that have been read, by name. -/
abbrev Cache := List (Data × Peripheral)

namespace Cache

/-- The peripheral of a name, if it has been read. -/
def find? (name : Data) (cache : Cache) : Option Peripheral :=
  (List.find? (fun entry => entry.1.sameKey name) cache).map Prod.snd

/-- A peripheral, which is read unless it has been read before.  Also returns the cache afterwards
and the notes on reading. -/
def peripheral (doc : Document) (cache : Cache) (name : Data) :
    Except Fault Peripheral × Cache × List Note :=
  match cache.find? name with
  | some p => (.ok p, cache, [])
  | none =>
    let notes := doc.peripheralNotes name
    match doc.peripheral name with
    | .ok p => (.ok p, (name, p) :: cache, notes)
    | .error f => (.error f, cache, notes)

/-- The peripherals of the names that have a description.  A document fault is noted and the
peripheral left out; any other fault ends the reading. -/
def peripheralsOf (doc : Document) (cache : Cache) :
    List Data → Except Fault (List Peripheral) × Cache × List Note
  | [] => (.ok [], cache, [])
  | name :: rest =>
    let (read, cache, notes) := peripheral doc cache name
    match read with
    | .ok p =>
      let (others, cache, later) := peripheralsOf doc cache rest
      (others.map (p :: ·), cache, notes ++ later)
    | .error f =>
      if f.isDocumentFault then
        let (others, cache, later) := peripheralsOf doc cache rest
        (others, cache, notes ++ ⟨.detail, .documents, f.message⟩ :: later)
      else (.error f, cache, notes)

/-- All peripherals of the device that have a description. -/
def peripherals (doc : Document) (cache : Cache) :
    Except Fault (List Peripheral) × Cache × List Note :=
  match doc.peripheralNames with
  | .ok names => peripheralsOf doc cache names
  | .error f => (.error f, cache, [])

end Cache

end Document

end ChipSupport
