import ChipSupport.Yaml.Block
import ChipSupport.Yaml.Quoted

/-!
# Tokens

A document is a sequence of marks, names and scalars.  Indentation counts as marks that open and
close blocks.

## Main definitions

* `Yaml.Token` — the tokens.
* `Yaml.named`, `Yaml.tag`, `Yaml.directive` — the tokens that carry names.
-/

namespace ChipSupport.Yaml

/-- A token of a document. -/
inductive Token where
  /-- What ends the text where nothing can be read. -/
  | fault (f : Fault)
  /-- The statement of the edition of the notation. -/
  | edition (major minor : Nat)
  /-- An abbreviation for the beginning of tags. -/
  | handle (name value : String)
  /-- A directive of another kind. -/
  | directive
  /-- The beginning of a document. -/
  | documentStart
  /-- The end of a document. -/
  | documentEnd
  /-- The end of the text. -/
  | textEnd
  /-- The beginning of a list in a block. -/
  | blockListStart
  /-- The beginning of a table in a block. -/
  | blockTableStart
  /-- The end of a list or table in a block. -/
  | blockEnd
  /-- The opening bracket of a list. -/
  | listStart
  /-- The closing bracket of a list. -/
  | listEnd
  /-- The opening brace of a table. -/
  | tableStart
  /-- The closing brace of a table. -/
  | tableEnd
  /-- The mark of an item of a list in a block. -/
  | item
  /-- The mark between parts of a collection in brackets. -/
  | comma
  /-- The beginning of a key. -/
  | key
  /-- The mark between a key and its value. -/
  | value
  /-- The name of a node that stands for the node. -/
  | alias (name : String)
  /-- A name that no node before it has. -/
  | stray
  /-- The name that is given to a node. -/
  | anchor (name : String)
  /-- The type of a node: an abbreviation, if there is one, and the rest. -/
  | tag (handle : Option String) (rest : String)
  /-- A scalar. -/
  | scalar (plain : Bool) (text : String)
  deriving DecidableEq, Repr, Inhabited

/-- Nothing can be read. -/
def unreadable {α : Type} : Except Fault α := .error .descriptionMalformed

/-- Whether a character is a letter or digit of the basic alphabet, or one of some others. -/
def isWordOr (others : List Char) (c : Char) : Bool := c.isAlphanum || others.contains c

/-! ### Names -/

/-- Whether a character may stand in the name of an anchor: one that can be seen, or a separator of
lines that began no new count of columns. -/
def isNameChar (c : Char) : Bool :=
  isAllowed c && '\x20' < c && c != '\x85' && c != encodingMark && !isFlowMark c

/-- The characters that may follow the name of an anchor. -/
def afterName : List Char := ['?', ':', ',', '[', ']', '{', '}', '%', '@', '\x60']

/-- A name after the mark of an anchor or alias. -/
def named (c : Cursor) : Except Fault (String × Cursor) :=
  let name := c.rest.takeWhile isNameChar
  let next := c.skip name.length
  let ended := endsWord next.rest || (next.peek?.map afterName.contains).getD true
  if name.isEmpty || !ended then unreadable else .ok (String.ofList name, next)

/-! ### Tags -/

/-- The bytes that escapes at the beginning of a text stand for, and the rest. -/
def escapedBytes (bytes : List UInt8) : List Char → Except Fault (List UInt8 × List Char)
  | '%' :: a :: b :: rest =>
    match hexNumber? [a, b] with
    | some n => escapedBytes (bytes ++ [n.toUInt8]) rest
    | none => unreadable
  | '%' :: _ => unreadable
  | rest => .ok (bytes, rest)

/-- The characters that escapes at the beginning of a text stand for, and the rest. -/
def escapedChars (s : List Char) : Except Fault (List Char × List Char) := do
  let (bytes, rest) ← escapedBytes [] s
  match String.fromUTF8? ⟨bytes.toArray⟩ with
  | some text => return (text.toList, rest)
  | none => unreadable

/-- Whether a character may stand in a tag as it is. -/
def isTagChar (edition : Edition) (c : Char) : Bool :=
  isWordOr "-;/?:@&=+$,_.!~*'()[]".toList c || (c == '#' && edition == .second)

/-- The characters of a tag apart from its abbreviation, with what escapes stand for, after the text
`start`. -/
def tagRest (edition : Edition) (start : List Char) (c : Cursor) :
    Except Fault (List Char × Cursor) :=
  let run := c.rest.takeWhile (isTagChar edition)
  let next := c.skip run.length
  let text := start ++ run
  if next.at_ '%' then
    match escapedChars next.rest with
    | .error f => .error f
    | .ok (chars, rest) =>
      let after := next.skip (next.rest.length - rest.length)
      if _h : after.rest.length < c.rest.length then tagRest edition (text ++ chars) after
      else unreadable
  else if text.isEmpty then unreadable
  else .ok (text, next)
termination_by c.rest.length

/-- The abbreviation at the beginning of a tag: one or two exclamation marks, or a word between two
of them. -/
def tagHandle (c : Cursor) : Except Fault (List Char × Cursor) :=
  let word := (c.rest.drop 1).takeWhile (isWordOr ['-', '_'])
  if !c.at_ '!' then unreadable
  else match c.rest.drop (word.length + 1) with
    | '!' :: _ => .ok ('!' :: word ++ ['!'], c.skip (word.length + 2))
    | ' ' :: _ => if word.isEmpty then .ok (['!'], c.skip 1) else unreadable
    | _ => unreadable

/-- Whether a tag or directive may end in front of a text. -/
def endsTag (s : List Char) : Bool := s.head? == some ' ' || endsLine s

/-- The parts of a tag, of which the first exclamation mark is still to be read, if a second one
does not follow it, or else the second one. -/
def tagParts (edition : Edition) (short : List Char) (c : Cursor) :
    Except Fault ((Option (List Char) × List Char) × Cursor) := do
  let body := c.rest.drop 1
  let word := body.takeWhile fun x => x != ' ' && !isBreak x
  if body.head? == some '<' then
    let (rest, next) ← tagRest edition [] (c.skip 2)
    if next.at_ '>' then return ((none, rest), next.skip 1) else unreadable
  else if endsWord body then return ((none, ['!']), c.skip 1)
  else if word.contains '!' then
    let (handle, next) ← tagHandle c
    let (rest, next) ← tagRest edition [] next
    return ((some handle, rest), next)
  else
    let (rest, next) ← tagRest edition [] (c.skip 1)
    return ((some short, rest), next)

/-- A tag, of which the exclamation mark is still to be read. -/
def tag (edition : Edition) (c : Cursor) : Except Fault (Token × Cursor) := do
  let doubled := (c.rest.drop 1).head? == some '!'
  let ((handle, rest), next) ←
    if doubled then tagParts edition ['!', '!'] (c.skip 1) else tagParts edition ['!'] c
  if endsTag next.rest then return (.tag (handle.map String.ofList) (String.ofList rest), next)
  else unreadable

/-! ### Directives -/

/-- The number of decimal digits from which on a numeral is not read. -/
def longestNumeral : Nat := 4300

/-- A number in a directive. -/
def directiveNumber (c : Cursor) : Except Fault (Nat × Cursor) :=
  let digits := c.rest.takeWhile Char.isDigit
  if digits.isEmpty then unreadable
  else if longestNumeral < digits.length then .error (.numeralTooLong digits.length)
  else .ok (Numeral.value 10 (digits.map fun d => d.toNat - 48), c.skip digits.length)

/-- The statement of an edition: two numbers with a point. -/
def editionDirective (c : Cursor) : Except Fault (Token × Cursor) := do
  let (major, next) ← directiveNumber (c.skipWhile (· == ' '))
  if !next.at_ '.' then unreadable
  else
    let (minor, next) ← directiveNumber (next.skip 1)
    if endsTag next.rest then return (.edition major minor, next) else unreadable

/-- An abbreviation for tags. -/
def handleDirective (edition : Edition) (c : Cursor) : Except Fault (Token × Cursor) := do
  let (handle, next) ← tagHandle (c.skipWhile (· == ' '))
  if !next.at_ ' ' then unreadable
  else
    let (value, next) ← tagRest edition [] (next.skipWhile (· == ' '))
    if endsTag next.rest then return (.handle (String.ofList handle) (String.ofList value), next)
    else unreadable

/-- A directive, of which the percent sign is read, and the start of the next line. -/
def directive (edition : Edition) (c : Cursor) : Except Fault (Token × Cursor) := do
  let name := c.rest.takeWhile (isWordOr ['-', '_', ':', '.'])
  let next := c.skip name.length
  if name.isEmpty || !endsTag next.rest then unreadable
  else
    let (t, next) ←
      if name == "YAML".toList then editionDirective next
      else if name == "TAG".toList then handleDirective edition next
      else pure (Token.directive, next.skipWhile fun x => !isBreak x)
    let next := next.skipWhile (· == ' ')
    let next := if next.at_ '#' then next.skipWhile fun x => !isBreak x else next
    match next.rest with
    | [] => return (t, next)
    | x :: _ => if isBreak x then return (t, next.skipBreak) else unreadable

end ChipSupport.Yaml
