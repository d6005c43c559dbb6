import ChipSupport.Yaml.Token

/-!
# Nodes of a document

A document is a tree of nodes: scalars, lists and tables, which may have a type and a name, and
names that stand for nodes.

## Main definitions

* `Yaml.Node` — the nodes.
* `Yaml.Node.read` — the node at the beginning of a sequence of tokens.
* `Yaml.Document.read?` — the only document of a sequence of tokens.
-/

namespace ChipSupport.Yaml

/-- What may be said of a node. -/
structure Properties where
  /-- The name of the node. -/
  anchor : Option String := none
  /-- The type of the node. -/
  tag : Option String := none
  deriving DecidableEq, Repr, Inhabited

/-- A node of a document. -/
inductive Node where
  /-- The name of a node instead of the node. -/
  | alias (name : String)
  /-- A scalar. -/
  | scalar (properties : Properties) (plain : Bool) (text : String)
  /-- A list. -/
  | list (properties : Properties) (items : List Node)
  /-- A table. -/
  | table (properties : Properties) (entries : List (Node × Node))
  deriving Repr, Inhabited

/-- The node where nothing is written. -/
def Node.absent : Node := .scalar {} true ""

/-- The abbreviations for the beginning of tags, with what they stand for. -/
abbrev Handles := List (String × String)

/-- The abbreviations that need no directive. -/
def standardHandles : Handles := [("!", "!"), ("!!", "tag:yaml.org,2002:")]

/-- How many collections may stand in one another. -/
def deepest : Nat := 489

/-- How a document is written: its edition, and its abbreviations. -/
structure Setting where
  /-- The edition of the notation. -/
  edition : Edition := .second
  /-- The abbreviations for tags. -/
  handles : Handles := standardHandles
  /-- How many more collections may stand in one another. -/
  levels : Nat := deepest
  deriving Repr, Inhabited

/-- The setting inside of a collection. -/
def Setting.inside (s : Setting) : Except Fault Setting :=
  match s.levels with
  | 0 => .error .nestingTooDeep
  | levels + 1 => .ok { s with levels }

/-- What is wrong where the next token does not fit. -/
def misfit (ts : List Token) : Fault :=
  match ts with
  | .fault f :: _ => f
  | _ => .descriptionMalformed

/-- A type without abbreviation. -/
def fullTag (handles : Handles) (handle : Option String) (rest : String) : Except Fault String :=
  match handle with
  | none => .ok rest
  | some h =>
    match handles.lookup h with
    | some start => .ok (start ++ rest)
    | none => unreadable

/-- The properties at the beginning of a sequence of tokens, in either order, and the rest. -/
def properties (handles : Handles) (ts : List Token) : Except Fault (Properties × List Token) :=
  match ts with
  | .anchor a :: .tag h r :: rest => (fullTag handles h r).map fun t => (⟨some a, some t⟩, rest)
  | .tag h r :: .anchor a :: rest => (fullTag handles h r).map fun t => (⟨some a, some t⟩, rest)
  | .anchor a :: rest => .ok (⟨some a, none⟩, rest)
  | .tag _ _ :: .fault f :: _ => .error f
  | .tag h r :: rest => (fullTag handles h r).map fun t => (⟨none, some t⟩, rest)
  | _ => .ok ({}, ts)

/-- Where a node stands. -/
inductive Place where
  /-- In a block. -/
  | block
  /-- In a table in a block, where the items of a list need not be indented. -/
  | entry
  /-- In brackets. -/
  | brackets
  deriving DecidableEq, Repr

/-- The tokens that end an entry of a table in a block. -/
def entryEnds : List Token := [.key, .value, .blockEnd]

/-- The tokens that end an item of a list in a block. -/
def itemEnds (indented : Bool) : List Token :=
  if indented then [.item, .blockEnd] else .item :: entryEnds

/-- Whether one of some tokens comes next. -/
def comes (ends : List Token) (ts : List Token) : Bool := ts.head?.any ends.contains

/-- The rest of a sequence of tokens after the comma that stands before all parts but the first. -/
def afterComma (first : Bool) (ts : List Token) : Except Fault (List Token) :=
  match first, ts with
  | true, ts => .ok ts
  | false, .comma :: rest => .ok rest
  | false, ts => .error (misfit ts)

namespace Node

mutual

/-- The node at the beginning of a sequence of tokens, and the rest.  `fuel` bounds the number of
steps. -/
def read (s : Setting) (place : Place) (ts : List Token) : Nat → Except Fault (Node × List Token)
  | 0 => .error (misfit ts)
  | fuel + 1 =>
    match ts with
    | .alias name :: rest => .ok (.alias name, rest)
    | ts => do
      let (p, rest) ← properties s.handles ts
      match place, rest with
      | .entry, .item :: _ => do
        (readItems (← s.inside) false rest fuel).map fun r => (.list p r.1, r.2)
      | _, .scalar plain text :: rest => return (.scalar p plain text, rest)
      | _, .listStart :: rest => do
        (readList (← s.inside) true rest fuel).map fun r => (.list p r.1, r.2)
      | _, .tableStart :: rest => do
        (readTable (← s.inside) true rest fuel).map fun r => (.table p r.1, r.2)
      | place, rest =>
        match decide (place = .brackets), rest with
        | false, .blockListStart :: rest => do
          (readItems (← s.inside) true rest fuel).map fun r => (.list p r.1, r.2)
        | false, .blockTableStart :: rest => do
          (readEntries (← s.inside) rest fuel).map fun r => (.table p r.1, r.2)
        | _, rest => if p = {} then .error (misfit rest) else return (.scalar p true "", rest)

/-- A node, or the absent one in front of one of some tokens. -/
def readUnless (ends : List Token) (s : Setting) (place : Place) (ts : List Token) :
    Nat → Except Fault (Node × List Token)
  | 0 => .error (misfit ts)
  | fuel + 1 => if comes ends ts then .ok (absent, ts) else read s place ts fuel

/-- The items of a list in a block.  A list that is not indented has no end of its own. -/
def readItems (s : Setting) (indented : Bool) (ts : List Token) :
    Nat → Except Fault (List Node × List Token)
  | 0 => .error (misfit ts)
  | fuel + 1 =>
    match ts with
    | .item :: rest => do
      let (n, rest) ← readUnless (itemEnds indented) s .block rest fuel
      (readItems s indented rest fuel).map fun r => (n :: r.1, r.2)
    | ts =>
      match indented, ts with
      | true, .blockEnd :: rest => .ok ([], rest)
      | true, ts => .error (misfit ts)
      | false, ts => .ok ([], ts)

/-- The value of an entry, which may be absent together with its mark. -/
def readValue (ends : List Token) (s : Setting) (place : Place) (ts : List Token) :
    Nat → Except Fault (Node × List Token)
  | 0 => .error (misfit ts)
  | fuel + 1 =>
    match ts with
    | .value :: rest => readUnless ends s place rest fuel
    | ts => .ok (absent, ts)

/-- The entries of a table in a block.  In the first edition every entry has a key. -/
def readEntries (s : Setting) (ts : List Token) :
    Nat → Except Fault (List (Node × Node) × List Token)
  | 0 => .error (misfit ts)
  | fuel + 1 =>
    match ts with
    | .key :: rest => do
      let (k, rest) ← readUnless entryEnds s .entry rest fuel
      let (v, rest) ← readValue entryEnds s .entry rest fuel
      (readEntries s rest fuel).map fun r => ((k, v) :: r.1, r.2)
    | .value :: _ =>
      if s.edition = .first then .error .descriptionMalformed
      else do
        let (v, rest) ← readValue entryEnds s .entry ts fuel
        (readEntries s rest fuel).map fun r => ((absent, v) :: r.1, r.2)
    | .blockEnd :: rest => .ok ([], rest)
    | ts => .error (misfit ts)

/-- The key and value of an entry in brackets, the mark of a key being read. -/
def readPair (last : Token) (s : Setting) (ts : List Token) :
    Nat → Except Fault ((Node × Node) × List Token)
  | 0 => .error (misfit ts)
  | fuel + 1 => do
    let (k, rest) ← readUnless [.value, .comma, last] s .brackets ts fuel
    (readValue [.comma, last] s .brackets rest fuel).map fun r => ((k, r.1), r.2)

/-- The items of a list in brackets.  An item may be a table with a single entry. -/
def readList (s : Setting) (first : Bool) (ts : List Token) :
    Nat → Except Fault (List Node × List Token)
  | 0 => .error (misfit ts)
  | fuel + 1 =>
    match ts with
    | .listEnd :: rest => .ok ([], rest)
    | ts => do
      match ← afterComma first ts with
      | .listEnd :: rest => return ([], rest)
      | .key :: rest =>
        let (e, rest) ← readPair .listEnd (← s.inside) rest fuel
        (readList s false rest fuel).map fun r => (.table {} [e] :: r.1, r.2)
      | rest =>
        let (n, rest) ← read s .brackets rest fuel
        (readList s false rest fuel).map fun r => (n :: r.1, r.2)

/-- The entries of a table in brackets.  A node without a mark is a key without a value.  In the
first edition every entry has a key. -/
def readTable (s : Setting) (first : Bool) (ts : List Token) :
    Nat → Except Fault (List (Node × Node) × List Token)
  | 0 => .error (misfit ts)
  | fuel + 1 =>
    match ts with
    | .tableEnd :: rest => .ok ([], rest)
    | ts => do
      match ← afterComma first ts with
      | .tableEnd :: rest => return ([], rest)
      | .key :: rest =>
        let (e, rest) ← readPair .tableEnd s rest fuel
        (readTable s false rest fuel).map fun r => (e :: r.1, r.2)
      | .value :: rest =>
        if s.edition = .first then .error .descriptionMalformed
        else
          let (e, rest) ← readPair .tableEnd s (.value :: rest) fuel
          (readTable s false rest fuel).map fun r => (e :: r.1, r.2)
      | rest =>
        let (n, rest) ← read s .brackets rest fuel
        (readTable s false rest fuel).map fun r => ((n, absent) :: r.1, r.2)

end

end Node

/-- The number of steps that suffice for any node of some tokens: between two tokens that are used
up there are at most three steps. -/
def steps (ts : List Token) : Nat := 4 * ts.length + 4

/-- What directives state. -/
structure Directives where
  /-- The number of the edition. -/
  edition : Option (Nat × Nat) := none
  /-- The abbreviations for tags. -/
  handles : Handles := []

/-- The directives at the beginning of a sequence of tokens, and the rest. -/
def Directives.read (d : Directives) : List Token → Except Fault (Directives × List Token)
  | .edition major minor :: rest =>
    if d.edition.isSome || major != 1 then unreadable
    else Directives.read { d with edition := some (major, minor) } rest
  | .handle name value :: rest =>
    if (d.handles.lookup name).isSome then unreadable
    else Directives.read { d with handles := (name, value) :: d.handles } rest
  | .directive :: rest => Directives.read d rest
  | .fault f :: _ => .error f
  | rest => .ok (d, rest)

/-- The setting that directives state.  The edition must be in use. -/
def Directives.setting (d : Directives) : Except Fault Setting :=
  let handles := d.handles ++ standardHandles
  match d.edition with
  | none => .ok { handles }
  | some (major, minor) =>
    match Edition.ofNumber? major minor with
    | some edition => .ok { edition, handles }
    | none => .error .editionUnknown

/-- Whether a document begins with a directive or mark. -/
def isAnnounced : List Token → Bool
  | .edition _ _ :: _ | .handle _ _ :: _ | .directive :: _ | .documentStart :: _ => true
  | _ => false

/-- The setting of a document that is announced, and the tokens after the mark of its beginning. -/
def announcement (ts : List Token) : Except Fault (Setting × List Token) := do
  let (d, rest) ← Directives.read {} ts
  let setting ← d.setting
  match rest with
  | .documentStart :: rest => return (setting, rest)
  | rest => .error (misfit rest)

/-- A document: how it is written, and its node. -/
structure Document where
  /-- How the document is written. -/
  setting : Setting
  /-- The node. -/
  node : Node

namespace Document

/-- The document at the beginning of a sequence of tokens, and the rest. -/
def readFirst (ts : List Token) : Except Fault (Document × List Token) :=
  if isAnnounced ts then do
    let (setting, rest) ← announcement ts
    if isAnnounced rest || comes [.documentEnd, .textEnd] rest then
      return (⟨setting, .absent⟩, rest)
    else
      let (node, rest) ← Node.read setting .block rest (steps rest)
      return (⟨setting, node⟩, rest)
  else do
    let (node, rest) ← Node.read {} .block ts (steps ts)
    return (⟨{}, node⟩, rest)

/-- Whether the text ends after a document.  In the first edition, any number of marks may end the
document; in the second one, another document may begin after the first such mark. -/
def checkEnd (edition : Edition) (ts : List Token) : Except Fault Unit :=
  let rest := match edition with
    | .first => ts.dropWhile (comes [.documentEnd] [·])
    | .second => if comes [.documentEnd] ts then ts.drop 1 else ts
  match rest with
  | [.textEnd] => .ok ()
  | rest => do
    if isAnnounced rest || decide (edition = .first) || !comes [.documentEnd] ts then
      let _ ← announcement rest
    .error (misfit rest)

/-- The only document of a text; a text may also have no document. -/
def read? (ts : List Token) : Except Fault (Option Document) :=
  match ts with
  | [.textEnd] => .ok none
  | ts => do
    let (d, rest) ← readFirst ts
    checkEnd d.setting.edition rest
    return some d

end Document

end ChipSupport.Yaml
