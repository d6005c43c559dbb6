import ChipSupport.Document

/-!
# Listings of a document

What a document says, as data for other programs.  An attribute is listed as it stands in the
document, be it a text or another value; numbers are listed by their value.

## Main definitions

* `Listing.device`, `Listing.interrupts`, `Listing.events` — what is said of the device.
* `Listing.peripheral`, `Listing.inst` — a peripheral and its instances.
-/

namespace ChipSupport.Listing

open Node

/-- A table by names. -/
def record (entries : List (String × Data)) : Data := .table (entries.map fun e => (.text e.1, e.2))

/-- Attributes of a node under other names. -/
def attributes (node : Data) (names : List (String × String)) : List (String × Data) :=
  names.map fun n => (n.1, attributeData node n.2)

/-- A number that an attribute spells.  A truth value is a number, and stays as it is. -/
def number (spelled : Data) (n : Int) : Data :=
  match spelled with
  | .bool b => .bool b
  | _ => .int n

/-- A number that is not negative; the truth value that is zero is listed as zero. -/
def natural (spelled : Data) (n : Int) : Data :=
  match spelled with
  | .bool true => .bool true
  | _ => .int n

/-- Items listed with the nodes that they were read from. -/
def pairs {α : Type} (f : Data → α → Data) (nodes : List Data) (items : List α) : Data :=
  .list ((nodes.zip items).map fun p => f p.1 p.2)

/-- A named value. -/
def value (node : Data) : Data :=
  record (attributes node [("name", "name"), ("value", "value"), ("caption", "caption")])

/-- Named values. -/
def values (nodes : List Data) : Data := .list (nodes.map value)

/-- A bitfield of a register. -/
def bitfield (module_ register node : Data) (f : Bitfield) : Data :=
  let options := (valueGroup module_ (attributeData node "values") f.name).toOption.getD []
  record (attributes node [("name", "name"), ("caption", "caption")] ++
    [("mask", number (attributeData node "mask") f.mask), ("modes", .list (f.modes.map .text)),
      ("values", values options), ("register", attributeData register "name")])

/-- A register. -/
def register (module_ node : Data) (mode : Data) (r : Register) : Data :=
  record (attributes node [("name", "name"), ("caption", "caption")] ++
    [("owner", attributeData module_ "name"),
      ("offset", number (attributeData node "offset") r.offset),
      ("size", number (attributeData node "size") r.size),
      ("rw", (attr? node "rw").getD (.text "R")),
      ("initval", number (attributeData node "initval") r.initval),
      ("count", number (attributeData node "count") r.count), ("isAlias", .bool r.isAlias),
      ("mode", mode),
      ("bitfields", pairs (bitfield module_ node) (children node "bitfield") r.bitfields)])

/-- The nodes of a group from which a register was read, apart from its mode. -/
def registerNode? (module_ node : Data) (r : Register) : Option Data :=
  let tag := if r.isAlias then "register-group" else "register"
  (children node tag).find? fun n =>
    match Node.register module_ r.isAlias n with
    | .ok found => { found with mode := r.mode } = r
    | .error _ => false

/-- The name of a mode as the group declares it. -/
def modeName (node : Data) (mode : String) : Data :=
  ((declaredModes node).find? fun name => shown name == mode).getD (.text mode)

/-- The name under which a table lists what belongs to a mode. -/
def entryName : Data → String
  | .bool true => "true"
  | mode => shown mode

/-- A register group. -/
def group (module_ node : Data) (g : RegisterGroup) : Data :=
  let members := g.members.map fun m =>
    (entryName (modeName node m.1), Data.list (m.2.filterMap fun r =>
      (registerNode? module_ node r).map fun n => register module_ n (modeName node m.1) r))
  record (attributes node [("name", "name"), ("caption", "caption"), ("section", "section")] ++
    [("owner", attributeData module_ "name"), ("size", natural (attributeData node "size") g.size),
      ("alignment", natural (attributeData node "aligned") g.alignment),
      ("modes", .list (g.modes.map (modeName node))), ("members", record members)])

/-- A signal of an instance. -/
def signal (node : Data) : Data :=
  record (attributes node
    [("group", "group"), ("index", "index"), ("function", "function"), ("pad", "pad")])

/-- An instance of a peripheral. -/
def inst (node : Data) (i : Instance) : Data :=
  let parameters := childrenOf? (node.get? "parameters") "param"
  let base := ((instanceBase? node).toOption.join).getD .null
  record (attributes node [("name", "name")] ++
    [("baseAddress", number (attributeData base "offset") i.baseAddress),
      ("instanceId", number (instanceNumber node parameters) i.instanceId),
      ("parameters", values parameters),
      ("signals", .list ((childrenOf? (node.get? "signals") "signal").map signal))])

/-- The instances of a peripheral from its node in the device. -/
def instances (node : Data) (is : List Instance) : Data := pairs inst (children node "instance") is

/-- The instance of a peripheral at a position, which is a whole number. -/
def instanceAt (node : Data) (p : Peripheral) (position : Data) : Except Fault Data := do
  let is ← p.allInstances
  match position with
  | .int n => pick is n
  | .bool b => pick is (Data.ofBool b)
  | _ => throw .valueUnsuitable
where
  /-- The instance at a number. -/
  pick (is : List Instance) (n : Int) : Except Fault Data := do
    let i ← p.instanceAt n
    let nodes := children node "instance"
    let place := if n < 0 then n + is.length else n
    return inst (nodes.getD place.toNat .null) i

/-- A peripheral from its node in the device and its module. -/
def peripheral (node module_ : Data) (p : Peripheral) : Data :=
  record (attributes node [("name", "name"), ("moduleId", "id"), ("version", "version")] ++
    [("caption", attributeData module_ "caption"),
      ("groups", pairs (group module_) (children module_ "register-group") p.groups),
      ("instances", match p.instances with
        | some is => instances node is
        | none => .null),
      ("instanceProblem", .text p.instanceProblem)])

/-- A memory segment. -/
def segment (node : Data) (s : MemorySegment) : Data :=
  record (attributes node [("name", "name"), ("type", "type")] ++
    [("start", number (attributeData node "start") s.start),
      ("size", number (attributeData node "size") s.size),
      ("pageSize", number (attributeData node "pagesize") s.pageSize)])

/-- The device as a whole. -/
def device (doc : Document) : Except Fault Data := do
  let d ← doc.device
  let node := doc.deviceNode
  let base ← doc.baseSpace?
  return record (attributes node
      [("name", "name"), ("architecture", "architecture"), ("family", "family"),
        ("series", "series")] ++
    [("parameters", values (children (← part node "parameters") "param")),
      ("signatures", values (← doc.propertyNodes "SIGNATURES")),
      ("electrical", values (← doc.propertyNodes "ELECTRICAL_CHARACTERISTICS")),
      ("segments", pairs segment (childrenOf? base "memory-segment") d.segments)])

/-- The interrupts of the device. -/
def interrupts (doc : Document) : Except Fault Data := do
  let found ← doc.interrupts
  let nodes := children (← part doc.deviceNode "interrupts") "interrupt"
  let vector (node : Data) (i : Interrupt) := record (("number", .int i.number) ::
    attributes node [("name", "name"), ("caption", "caption"), ("owner", "module-instance")])
  return record [("vectors", pairs vector nodes found.vectors), ("requests", .list []),
    ("defaultBaseAddress", .int found.defaultBaseAddress), ("shadowSets", .int found.shadowSets),
    ("variableOffsets", .bool found.variableOffsets)]

/-- The events of a kind. -/
def events (doc : Document) (kind tag : String) : Except Fault Data := do
  let found ← doc.events kind tag
  let event (node : Data) (e : Event) := record (("index", .int e.index) ::
    attributes node [("name", "name"), ("instance", "module-instance")])
  return pairs event (← doc.eventNodes kind tag) found

end ChipSupport.Listing
