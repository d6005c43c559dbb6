import ChipSupport.Data

/-!
# Markup trees

A markup document is a tree of elements with attributes, child elements and text.

## Main definitions

* `Markup.Node` — elements and text.
* `Markup.Node.data` — an element as data: attributes and children become entries of a table.
-/

namespace ChipSupport.Markup

/-- A part of a document. -/
inductive Node where
  /-- An element. -/
  | element (name : String) (attributes : List (String × String)) (children : List Node)
  /-- Text. -/
  | text (s : List Char)
  deriving Repr, Inhabited

/-- The values of entries that repeat a name, as one value: alone, or as a list. -/
def together : List Data → Data
  | [d] => d
  | ds => .list ds

/-- The entries of a table in which every name occurs once, in the order of first occurrence. -/
def gathered (entries : List (String × Data)) : List (Data × Data) :=
  (entries.map Prod.fst).eraseDups.map fun name =>
    (.text name, together ((entries.filter fun e => e.1 == name).map Prod.snd))

/-- The value of an element: nothing, its text, or a table of its attributes, children and text. -/
def elementData (attributes : List (String × String)) (children : List (String × Data))
    (text : List Char) : Data :=
  let entries := attributes.map (fun a => (Data.text ("@" ++ a.1), Data.text a.2))
    ++ gathered children
  match entries, Text.trimChars text with
  | [], [] => .null
  | [], text => .text (String.ofList text)
  | entries, [] => .table entries
  | entries, text => .table (entries ++ [(.text "#text", .text (String.ofList text))])

mutual

/-- A node as an entry of the element around it: text has no name. -/
def Node.entry : Node → Option (String × Data)
  | .text _ => none
  | .element name attributes children =>
    some (name, elementData attributes (childEntries children) (ownText children))

/-- The child elements of an element as entries. -/
def childEntries : List Node → List (String × Data)
  | [] => []
  | n :: rest =>
    match n.entry with
    | some e => e :: childEntries rest
    | none => childEntries rest

/-- The text that stands directly in an element. -/
def ownText : List Node → List Char
  | [] => []
  | .text s :: rest => s ++ ownText rest
  | .element _ _ _ :: rest => ownText rest

end

/-- A document as data: a table with the outermost element. -/
def Node.data (root : Node) : Data :=
  match root.entry with
  | some (name, d) => .table [(.text name, d)]
  | none => .table []

end ChipSupport.Markup
