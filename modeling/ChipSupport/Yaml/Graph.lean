import ChipSupport.Yaml.Kind
import ChipSupport.Yaml.Node

/-!
# The graph of a document

Names let nodes stand in several places, even inside of themselves.  So the nodes of a document are
numbered, and a collection refers to its parts by their numbers.

## Main definitions

* `Yaml.Vertex`, `Yaml.Graph` — numbered nodes.
* `Yaml.Graph.ofDocument` — the graph of a document and the number of its root.
-/

namespace ChipSupport.Yaml

/-- What is in a node. -/
inductive Content where
  /-- The text of a scalar. -/
  | scalar (text : String)
  /-- The items of a list. -/
  | list (items : List Nat)
  /-- The entries of a table. -/
  | table (entries : List (Nat × Nat))
  deriving DecidableEq, Repr, Inhabited

/-- A numbered node. -/
structure Vertex where
  /-- The type. -/
  kind : Kind := .null
  /-- The content. -/
  content : Content := .scalar ""
  deriving DecidableEq, Repr, Inhabited

/-- The nodes of a document, by their numbers. -/
abbrev Graph := Array Vertex

/-- Nodes with the names that are known. -/
structure Naming where
  /-- The nodes. -/
  graph : Graph := #[]
  /-- The names with the numbers of their nodes, the last one first. -/
  names : List (String × Nat) := []

namespace Naming

/-- One more node. -/
def push (n : Naming) (v : Vertex) : Nat × Naming :=
  (n.graph.size, { n with graph := n.graph.push v })

/-- A node with a name, if it has one. -/
def name (n : Naming) (p : Properties) (number : Nat) : Naming :=
  match p.anchor with
  | some anchor => { n with names := (anchor, number) :: n.names }
  | none => n

/-- A node with a content in place of the one it had. -/
def fill (n : Naming) (number : Nat) (content : Content) : Naming :=
  { n with graph := n.graph.modify number fun v => { v with content } }

end Naming

/-- Whether a tag leaves the type of a node open. -/
def isOpenTag (tag : Option String) : Bool := tag == none || tag == some "!"

/-- The type of a node whose tag may leave it open. -/
def kindOf (p : Properties) (open_ : Kind) : Kind :=
  match p.tag with
  | some tag => if isOpenTag p.tag then open_ else Kind.ofTag tag
  | none => open_

/-- The type of a scalar.  In quotes it is a text, unless its tag leaves the type to the
spelling. -/
def scalarKind (edition : Edition) (p : Properties) (isPlain : Bool) (text : String) : Kind :=
  let spelled := isPlain || p.tag.isSome
  kindOf p (if spelled then Kind.ofSpelling edition text else .text)

mutual

/-- The number of a node among those of its document.  A collection has its name before its parts
are numbered. -/
def Node.number (edition : Edition) (n : Naming) : Node → Nat × Naming
  | .alias name => ((n.names.lookup name).getD 0, n)
  | .scalar p isPlain text =>
    let (number, n) := n.push ⟨scalarKind edition p isPlain text, .scalar text⟩
    (number, n.name p number)
  | .list p items =>
    let (number, n) := n.push { kind := kindOf p .list }
    let (numbers, n) := numberItems edition (n.name p number) items
    (number, n.fill number (.list numbers))
  | .table p entries =>
    let (number, n) := n.push { kind := kindOf p .table }
    let (numbers, n) := numberEntries edition (n.name p number) entries
    (number, n.fill number (.table numbers))

/-- The numbers of some nodes. -/
def numberItems (edition : Edition) (n : Naming) : List Node → List Nat × Naming
  | [] => ([], n)
  | node :: rest =>
    let (number, n) := node.number edition n
    let (numbers, n) := numberItems edition n rest
    (number :: numbers, n)

/-- The numbers of keys and values. -/
def numberEntries (edition : Edition) (n : Naming) : List (Node × Node) → List (Nat × Nat) × Naming
  | [] => ([], n)
  | (k, v) :: rest =>
    let (key, n) := k.number edition n
    let (value, n) := v.number edition n
    let (numbers, n) := numberEntries edition n rest
    ((key, value) :: numbers, n)

end

/-- The graph of a document, and the number of its root. -/
def Graph.ofDocument (d : Document) : Graph × Nat :=
  let (root, n) := d.node.number d.setting.edition {}
  (n.graph, root)

end ChipSupport.Yaml
