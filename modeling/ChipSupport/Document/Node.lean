import ChipSupport.Data
import ChipSupport.Register.Field
import ChipSupport.Text.Numeral.Parse
import ChipSupport.Text.LetterCase

/-!
# Nodes of a device document

A document is read as data in which an element is a table: attributes stand under their names with
an `@` in front, child elements under their tags, and several children of one tag as a list.  An
element without attributes and children is its text, or nothing.

## Main definitions

* `Node.children`, `Node.attr` — parts of a node, which a node without them lacks silently.
* `Node.part`, `Node.find?` — parts that only tables can have, with the fault of asking others.
* `Node.number` — a number as attributes spell it.
-/

namespace ChipSupport.Node

/-- A value as a list: lists as they are, nothing for a missing value. -/
def asList : Data → List Data
  | .list items => items
  | d => if d.isEmpty then [] else [d]

/-- The children of a tag. -/
def children (node : Data) (tag : String) : List Data := asList ((node.get? tag).getD .null)

/-- The value of an attribute, if the node has it. -/
def attr? (node : Data) (name : String) : Option Data := node.get? ("@" ++ name)

/-- A value as text. -/
def shown : Data → String
  | .text s => s
  | d => d.quoted

/-- The text of an attribute. -/
def attr (node : Data) (name : String) (absent : String := "") : String :=
  ((attr? node name).map shown).getD absent

/-- The value of an attribute, an empty text if the node has none. -/
def attributeData (node : Data) (name : String) : Data := (attr? node name).getD (.text "")

/-- The part of a table under a tag; other values have no parts. -/
def part (node : Data) (tag : String) : Except Fault Data :=
  if node.isTable then .ok ((node.get? tag).getD .null) else .error .nodeWithoutParts

/-- The first node whose attribute has a value.  All nodes up to it must be tables. -/
def find? (key : String) (value : Data) : List Data → Except Fault (Option Data)
  | [] => .ok none
  | node :: rest => do
    let found ← part node ("@" ++ key)
    if found.sameKey value then return some node else find? key value rest

/-- The first node of a name. -/
def named? (name : Data) (nodes : List Data) : Except Fault (Option Data) :=
  find? "name" name nodes

/-- The children of a node that may be missing. -/
def childrenOf? (node : Option Data) (tag : String) : List Data :=
  match node with
  | some node => children node tag
  | none => []

/-- The named values that nodes describe. -/
def namedValues (nodes : List Data) : List NamedValue :=
  nodes.map fun n => ⟨attr n "name", attr n "value", attr n "caption"⟩

/-- Decimal digits without the zeros in front, but at least one digit. -/
def dropZeros (s : List Char) : List Char :=
  match s.dropWhile (· == '0') with
  | [] => ['0']
  | rest => rest

/-- The number that a text spells: in base sixteen after `0x`, in base two after `0b`, and otherwise
in base ten, however many zeros stand in front. -/
def numberOfText (s : String) : Except Fault Int :=
  let s := Text.lowerFrom [] (Text.trimChars s.toList)
  if ['0', 'x'].isPrefixOf s then Numeral.parse 16 s
  else if ['0', 'b'].isPrefixOf s then Numeral.parse 2 s
  else Numeral.parse 10 (dropZeros s)

/-- The number that a value spells; a missing value stands for the number `absent`. -/
def number (d : Data) (absent : Int := 0) : Except Fault Int :=
  match d with
  | .null => .ok absent
  | .text s => if s.isEmpty then .ok absent else numberOfText s
  | .int n => .ok n
  | .bool b => .ok (if b then 1 else 0)
  | _ => .error .nodeWithoutParts

/-- The number that an attribute spells. -/
def numberAttribute (node : Data) (name : String) (absent : Int := 0) : Except Fault Int :=
  number (attributeData node name) absent

/-- A value as an integer in base ten. -/
def toInteger : Data → Except Fault Int
  | .text s => Numeral.parse 10 s.toList
  | .int n => .ok n
  | .bool b => .ok (if b then 1 else 0)
  | .real x =>
    match Decimal.truncated? x with
    | some n => .ok n
    | none => .error .valueUnsuitable
  | _ => .error .valueUnsuitable

/-- An attribute as an integer in base ten. -/
def integerAttribute (node : Data) (name : String) (absent : Int) : Except Fault Int :=
  match attr? node name with
  | some d => toInteger d
  | none => .ok absent

end ChipSupport.Node
