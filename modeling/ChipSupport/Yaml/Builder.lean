import ChipSupport.Data.Members
import ChipSupport.Yaml.Graph
import ChipSupport.Yaml.Scalar

/-!
# Building values

The nodes of a document become values, each node once.  A collection exists before it is filled, so
that its parts can refer to it.  Collections are filled in turns: what is found in the collections
of one turn is filled in the next one.  Only a key is built together with everything in it.

## Main definitions

* `Yaml.Item`, `Yaml.Body` — values, and what is in a collection.
* `Yaml.Builder` — the values that are built.
* `Yaml.Builder.flatten` — a table takes over the entries of others.
* `Yaml.build`, `Yaml.complete` — the value of a node, and the filling of a collection.
* `Yaml.Graph.data` — the data of a graph.
-/

namespace ChipSupport.Yaml

/-- A value. -/
inductive Item where
  /-- A value without parts. -/
  | atom (d : Data)
  /-- A collection, by its number. -/
  | object (number : Nat)
  deriving Repr, Inhabited

/-- What is in a collection. -/
inductive Body where
  /-- The items of a list. -/
  | list (items : List Item)
  /-- The key and value of an entry that stands for itself. -/
  | pair (key value : Item)
  /-- The entries of a table. -/
  | table (entries : List (Data × Item))
  /-- The entries of an ordered table. -/
  | ordered (entries : List (Data × Item))
  /-- The members of a set. -/
  | set (members : List Data)
  deriving Repr, Inhabited

/-- The values that are built. -/
structure Builder where
  /-- The edition of the notation. -/
  edition : Edition
  /-- The nodes. -/
  graph : Graph
  /-- The entries that tables have taken over, by the numbers of the tables. -/
  taken : List (Nat × List (Nat × Nat)) := []
  /-- The values of the nodes. -/
  made : Array (Option Item)
  /-- The nodes whose values are being built. -/
  active : List Nat := []
  /-- What is in the collections. -/
  bodies : Array Body
  /-- The collections that are to be filled in the next turn, the last one first. -/
  waiting : List Nat := []
  deriving Repr, Inhabited

/-- A step of building. -/
abbrev Building (α : Type) := StateT Builder (Except Fault) α

namespace Builder

/-- Nothing but the nodes of a document. -/
def ofGraph (edition : Edition) (graph : Graph) : Builder :=
  { edition, graph, made := .replicate graph.size none, bodies := .replicate graph.size (.list []) }

/-- A node. -/
def vertex (b : Builder) (number : Nat) : Vertex := (b.graph[number]?).getD {}

/-- The entries of a table node. -/
def entries? (b : Builder) (number : Nat) : Option (List (Nat × Nat)) :=
  match (b.vertex number).content with
  | .table entries => some entries
  | _ => none

/-- A table node with other entries. -/
def setEntries (b : Builder) (number : Nat) (entries : List (Nat × Nat)) : Builder :=
  { b with graph := b.graph.modify number fun v => { v with content := .table entries } }

/-- A node with another type. -/
def setKind (b : Builder) (number : Nat) (kind : Kind) : Builder :=
  { b with graph := b.graph.modify number fun v => { v with kind } }

/-- A collection with other contents. -/
def setBody (b : Builder) (number : Nat) (body : Body) : Builder :=
  { b with bodies := b.bodies.modify number fun _ => body }

/-- Whether a node is a key of a type. -/
def isKind (b : Builder) (kind : Kind) (number : Nat) : Bool := (b.vertex number).kind == kind

end Builder

/-! ### Entries of other tables -/

mutual

/-- Takes over the entries of other tables, from an entry on.  `found` are the entries taken over so
far.  The mark of the table itself becomes a text.  Only one entry may offer others to be taken
over. -/
def flattenFrom (number index : Nat) (found : List (Nat × Nat)) : Nat → Building Unit
  | 0 => pure ()
  | fuel + 1 => do
    let b ← get
    let entries := (b.entries? number).getD []
    match entries[index]? with
    | none =>
      if !found.isEmpty then
        set { b.setEntries number (found ++ entries) with taken := (number, found) :: b.taken }
    | some (key, value) =>
      if b.isKind .merge key then
        if !found.isEmpty then throw .descriptionMalformed
        set (b.setEntries number (entries.eraseIdx index))
        flattenFrom number index (← offered value fuel) fuel
      else
        if b.isKind .value key then set (b.setKind key .text)
        flattenFrom number (index + 1) found fuel

/-- The entries that a node offers to be taken over: those of a table, or of the tables of a list,
the last ones first. -/
def offered (number : Nat) : Nat → Building (List (Nat × Nat))
  | 0 => pure []
  | fuel + 1 => do
    match ((← get).vertex number).content with
    | .table _ =>
      flattenFrom number 0 [] fuel
      return ((← get).entries? number).getD []
    | .list items =>
      let parts ← items.mapM fun item => do
        if ((← get).entries? item).isNone then throw .descriptionMalformed
        flattenFrom item 0 [] fuel
        return ((← get).entries? item).getD []
      return parts.reverse.flatten
    | .scalar _ => throw .descriptionMalformed

end

/-- The number of steps that suffice to take over entries: every entry is passed at most once by
each table that takes it over. -/
def flattenSteps (b : Builder) : Nat :=
  let entries := b.graph.toList.map fun v => match v.content with
    | .table entries => entries.length
    | _ => 0
  (entries.foldl (· + ·) 0 + b.graph.size + 1) * (b.graph.size + 1)

/-- Takes over the entries of other tables, if the table has an entry that offers any. -/
def flatten (number : Nat) : Building Unit := do
  let b ← get
  let isSpecial (e : Nat × Nat) := b.isKind .merge e.1 || b.isKind .value e.1
  if ((b.entries? number).getD []).any isSpecial then flattenFrom number 0 [] (flattenSteps b)

/-! ### Scalars -/

/-- The text of a scalar.  A table stands for the value under its mark of itself. -/
def textOf (b : Builder) (number : Nat) : Nat → Except Fault String
  | 0 => .error .descriptionMalformed
  | fuel + 1 =>
    match (b.vertex number).content with
    | .scalar text => .ok text
    | .list _ => .error .descriptionMalformed
    | .table entries =>
      match entries.find? fun e => b.isKind .value e.1 with
      | some e => textOf b e.2 fuel
      | none => .error .descriptionMalformed

/-- The value of a node as a scalar.  Days and moments are scalars only. -/
def atomOf (b : Builder) (number : Nat) : Except Fault Data :=
  let v := b.vertex number
  match v.kind, v.content with
  | .stamp, .list _ | .stamp, .table _ => .error .descriptionMalformed
  | kind, _ => (textOf b number (b.graph.size + 1)).bind (scalarOf b.edition kind)

/-! ### Keys -/

/-- The value of an item, if it never changes. -/
def Builder.frozen? (b : Builder) : Item → Option Data
  | .atom d => some d
  | .object number =>
    match b.bodies[number]? with
    | some (.pair (.atom key) (.atom value)) => some (.tuple [key, value])
    | _ => none

/-- A value as a key: a list as it is now, but no other collection.  A list in which something may
change is no key after all. -/
def Builder.key (b : Builder) : Item → Except Fault (Option Data)
  | .atom d => .ok (some d)
  | .object number =>
    match b.bodies[number]? with
    | some (.list items) => .ok ((items.mapM b.frozen?).map .tuple)
    | _ => .error .descriptionMalformed

/-- Entries with one more, or with another value under a key that is there. -/
def put (entries : List (Data × Item)) (key : Data) (value : Item) : List (Data × Item) :=
  if entries.any fun e => e.1.sameKey key then
    entries.map fun e => if e.1.sameKey key then (e.1, value) else e
  else entries ++ [(key, value)]

/-! ### Collections -/

/-- The empty collection of a type. -/
def emptyBody : Kind → Option Body
  | .list | .pairs => some (.list [])
  | .table => some (.table [])
  | .ordered => some (.ordered [])
  | .set => some (.set [])
  | _ => none

mutual

/-- The value of a node.  With `deep`, collections are filled at once.  A node that is inside of
itself has no value there, if it is not yet filled. -/
def build (deep : Bool) (number : Nat) : Nat → Building Item
  | 0 => throw .descriptionMalformed
  | fuel + 1 => do
    let b ← get
    match (b.made[number]?).join with
    | some item => return item
    | none =>
      if b.active.contains number then return .atom .null
      set { b with active := number :: b.active }
      let item ← match emptyBody (b.vertex number).kind with
        | none => pure (Item.atom (← atomOf b number))
        | some body => do
          modify (·.setBody number body)
          if deep then complete true number fuel
          else modify fun b => { b with waiting := number :: b.waiting }
          pure (Item.object number)
      modify fun b =>
        { b with
          made := b.made.modify number fun _ => some item
          active := b.active.filter (· != number) }
      return item

/-- Fills a collection. -/
def complete (deep : Bool) (number : Nat) : Nat → Building Unit
  | 0 => throw .descriptionMalformed
  | fuel + 1 => do
    let v := (← get).vertex number
    match v.kind, v.content with
    | .list, .list items =>
      let items ← items.mapM fun item => build deep item fuel
      modify (·.setBody number (.list items))
    | .table, .table _ =>
      let entries ← fillTable deep number fuel
      modify (·.setBody number (.table entries))
    | .set, .table _ =>
      let entries ← fillTable deep number fuel
      modify (·.setBody number (.set (entries.map Prod.fst)))
    | .pairs, .list items =>
      let pairs ← items.mapM fun item => do
        match (← get).entries? item with
        | some [(key, value)] =>
          let key ← build deep key fuel
          let value ← build deep value fuel
          let b ← get
          set { b with bodies := b.bodies.push (.pair key value) }
          return Item.object b.bodies.size
        | _ => throw .descriptionMalformed
      modify (·.setBody number (.list pairs))
    | .ordered, .list items =>
      let entries ← items.foldlM (fun entries item => do
        match (← get).entries? item with
        | some [(key, value)] =>
          let item ← build deep key fuel
          match (← get).frozen? item with
          | none => throw .valueUnsuitable
          | some key =>
            if entries.any fun e => e.1.sameKey key then throw .keyRepeated
            return put entries key (← build deep value fuel)
        | _ => throw .descriptionMalformed) []
      modify (·.setBody number (.ordered entries))
    | _, _ => throw .descriptionMalformed

/-- The entries of a table, those that it takes over first.  Its own entries hide those, and only in
a table that takes over nothing a key must not come again. -/
def fillTable (deep : Bool) (number : Nat) : Nat → Building (List (Data × Item))
  | 0 => throw .descriptionMalformed
  | fuel + 1 => do
    flatten number
    let b ← get
    let own := (b.entries? number).getD []
    match b.taken.lookup number with
    | none => fillEntries deep true own fuel
    | some taken =>
      let others ← fillEntries deep false taken fuel
      let own ← fillEntries deep false own fuel
      return own.foldl (fun all e => put all e.1 e.2) others

/-- The entries of key and value nodes. -/
def fillEntries (deep unique : Bool) (entries : List (Nat × Nat)) :
    Nat → Building (List (Data × Item))
  | 0 => throw .descriptionMalformed
  | fuel + 1 =>
    entries.foldlM (fun built e => do
      let item ← build true e.1 fuel
      let key ← (← get).key item
      let value ← build deep e.2 fuel
      match key with
      | none => throw .valueUnsuitable
      | some key =>
        if unique && built.any fun e => e.1.sameKey key then throw .descriptionMalformed
        return put built key value) []

end

/-- The number of steps that suffice to build a node of a graph: from a collection to one in it
there are three steps. -/
def buildSteps (g : Graph) : Nat := 4 * g.size + 4

/-- Fills the collections that wait, in turns. -/
def fillWaiting : Nat → Building Unit
  | 0 => pure ()
  | turns + 1 => do
    let b ← get
    if !b.waiting.isEmpty then
      set { b with waiting := [] }
      for number in b.waiting.reverse do complete false number (buildSteps b.graph)
      fillWaiting turns

/-! ### Data -/

mutual

/-- Whether a value mentions a collection around it. -/
def mentions (number : Nat) : Data → Bool
  | .again n => n == number
  | .knot n body => n != number && mentions number body
  | .list items | .tuple items | .set items => mentionsIn number items
  | .table entries | .ordered entries => mentionsAmong number entries
  | _ => false

/-- Whether one of some values does. -/
def mentionsIn (number : Nat) : List Data → Bool
  | [] => false
  | d :: rest => mentions number d || mentionsIn number rest

/-- Whether one of the values of some entries does. -/
def mentionsAmong (number : Nat) : List (Data × Data) → Bool
  | [] => false
  | (_, d) :: rest => mentions number d || mentionsAmong number rest

end

/-- The data of a value inside of the collections `around`. -/
def Builder.data (b : Builder) (around : List Nat) : Nat → Item → Data
  | _, .atom d => d
  | 0, _ => .null
  | fuel + 1, .object number =>
    if around.contains number then .again number
    else
      let inside := b.data (number :: around) fuel
      let body := match b.bodies[number]? with
        | some (.list items) => .list (items.map inside)
        | some (.pair key value) => .tuple [inside key, inside value]
        | some (.table entries) => .table (entries.map fun e => (e.1, inside e.2))
        | some (.ordered entries) => .ordered (entries.map fun e => (e.1, inside e.2))
        | some (.set members) => .set (Data.arranged members)
        | none => .null
      if mentions number body then .knot number body else body

/-- The data of the node with a number. -/
def Graph.data (g : Graph) (edition : Edition) (root : Nat) : Except Fault Data := do
  let task : Building Item := do
    let item ← build false root (buildSteps g)
    fillWaiting (g.size + 1)
    return item
  let (item, b) ← task.run (.ofGraph edition g)
  return b.data [] (b.bodies.size + 1) item

end ChipSupport.Yaml
