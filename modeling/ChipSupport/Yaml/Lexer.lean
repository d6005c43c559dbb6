import ChipSupport.Yaml.Token

/-!
# Reading tokens

A key needs no mark of its own: that a scalar or collection is a key is known only at the colon
after it.  So everything that may turn out to be a key leaves a place in the sequence of tokens,
which is filled at the colon and otherwise stays empty.

Blocks are told from indentation: a line that begins further to the left closes all blocks that are
indented more.

Where nothing can be read, the sequence ends with what is wrong.  What stands after a place that is
still open is then not part of it.

## Main definitions

* `Yaml.Lexer` — a position with the open blocks and brackets, and the tokens before it.
* `Yaml.Lexer.step` — the token at a position.
* `Yaml.tokens` — the tokens of a text.
-/

namespace ChipSupport.Yaml

/-- A part of the sequence of tokens. -/
inductive Piece where
  /-- A token. -/
  | token (t : Token)
  /-- A place where a key begins if a colon follows what stands there. -/
  | place (number : Nat)
  deriving Repr, Inhabited

/-- The sequence, the last part first, with tokens in a place. -/
def fill (number : Nat) (tokens : List Token) : List Piece → List Piece
  | [] => []
  | .place n :: rest =>
    if n = number then tokens.reverse.map .token ++ rest else .place n :: fill number tokens rest
  | p :: rest => p :: fill number tokens rest

/-- The token of a part. -/
def Piece.token? : Piece → Option Token
  | .token t => some t
  | .place _ => none

/-- Something that is a key if a colon follows. -/
structure Candidate where
  /-- The place of the key. -/
  place : Nat
  /-- The position where it begins. -/
  start : Cursor
  /-- Whether a colon must follow: a block table can go on with keys only. -/
  required : Bool
  deriving Repr, Inhabited

/-- The number of characters that a key without a mark may have. -/
def longestKey : Nat := 1024

/-- Whether a key may end at a position: on its first line, and not too far on. -/
def Candidate.reaches (k : Candidate) (c : Cursor) : Bool :=
  k.start.line == c.line && decide (c.offset ≤ k.start.offset + longestKey)

/-- A candidate as long as it may be a key; none at all if it had to be one. -/
def Candidate.keep (c : Cursor) : Option Candidate → Except Fault (Option Candidate)
  | none => .ok none
  | some k => if k.reaches c then .ok (some k) else if k.required then unreadable else .ok none

/-- A position while tokens are read. -/
structure Lexer where
  /-- The position. -/
  cursor : Cursor
  /-- The edition of the notation. -/
  edition : Edition := .second
  /-- The parts of the sequence before, the last one first. -/
  pieces : List Piece := []
  /-- The indentation of the innermost block. -/
  indent : Int := -1
  /-- The indentations of the blocks around it. -/
  outer : List Int := []
  /-- What may be a key, inside of the innermost bracket. -/
  candidate : Option Candidate := none
  /-- The open brackets, and what may be a key around each. -/
  brackets : List (Char × Option Candidate) := []
  /-- Whether a key without a mark may begin. -/
  keyAllowed : Bool := true
  /-- The number of places. -/
  places : Nat := 0
  deriving Repr, Inhabited

namespace Lexer

/-- Whether a bracket is open. -/
def inBrackets (l : Lexer) : Bool := !l.brackets.isEmpty

/-- The position further on, with one more token. -/
def put (l : Lexer) (t : Token) (next : Cursor) : Lexer :=
  { l with pieces := .token t :: l.pieces, cursor := next }

/-- A mark of some characters. -/
def mark (l : Lexer) (t : Token) (size : Nat) : Lexer := l.put t (l.cursor.skip size)

/-! ### Blocks -/

/-- The indentation that remains when blocks are closed, those around it, and their number. -/
def closed (column : Int) (indent : Int) : List Int → Int × List Int × Nat
  | [] => (indent, [], 0)
  | i :: rest =>
    if column < indent then
      let (indent, rest, n) := closed column i rest
      (indent, rest, n + 1)
    else (indent, i :: rest, 0)

/-- Closes the blocks that are indented more than a column.  Brackets suspend indentation. -/
def unwind (l : Lexer) (column : Int) : Lexer :=
  if l.inBrackets then l
  else
    let (indent, outer, n) := closed column l.indent l.outer
    { l with indent, outer, pieces := List.replicate n (.token .blockEnd) ++ l.pieces }

/-- Whether something at a column begins a block. -/
def deepens (l : Lexer) (column : Nat) : Bool := !l.inBrackets && decide (l.indent < column)

/-- Opens a block at a column. -/
def openAt (l : Lexer) (column : Nat) : Lexer :=
  { l with indent := column, outer := l.indent :: l.outer }

/-- Opens a block for something at the position, if it begins one. -/
def openHere (l : Lexer) (t : Token) : Lexer :=
  if l.deepens l.cursor.column then
    { l.openAt l.cursor.column with pieces := .token t :: l.pieces }
  else l

/-! ### Keys -/

/-- Gives up the candidate, which must not have to be a key. -/
def drop (l : Lexer) : Except Fault Lexer :=
  match l.candidate with
  | none => .ok l
  | some k => if k.required then unreadable else .ok { l with candidate := none }

/-- Notes that a key may begin at the position. -/
def note (l : Lexer) : Except Fault Lexer :=
  if !l.keyAllowed then .ok l
  else
    l.drop.map fun l =>
      let required := !l.inBrackets && l.indent == (l.cursor.column : Int)
      { l with
        candidate := some ⟨l.places, l.cursor, required⟩
        pieces := .place l.places :: l.pieces
        places := l.places + 1 }

/-- Gives up all candidates that the position is too far from. -/
def dropDistant (l : Lexer) : Except Fault Lexer := do
  let candidate ← Candidate.keep l.cursor l.candidate
  let brackets ← l.brackets.mapM fun b => (Candidate.keep l.cursor b.2).map (b.1, ·)
  return { l with candidate, brackets }

/-- The candidates, the innermost one first. -/
def candidates (l : Lexer) : List Candidate := (l.candidate :: l.brackets.map Prod.snd).filterMap id

/-- The parts of the sequence before a place. -/
def before (place : Nat) : List Piece → List Piece
  | [] => []
  | .place n :: rest => if n = place then rest else before place rest
  | .token _ :: rest => before place rest

/-- The tokens that are certain: those before the first place that is still open. -/
def certain (l : Lexer) : List Token :=
  let pieces := match l.candidates.getLast? with
    | some k => before k.place l.pieces
    | none => l.pieces
  pieces.reverse.filterMap Piece.token?

/-- The tokens where nothing can be read. -/
def failed (l : Lexer) (f : Fault) : List Token := l.certain ++ [.fault f]

/-! ### Tokens -/

/-- The position after blanks and a comment.  Tabs count as blanks in brackets only. -/
def skipRemark (inBrackets : Bool) (c : Cursor) : Cursor :=
  let next := c.skipWhile fun x => x == ' ' || (inBrackets && x == '\t')
  if next.at_ '#' then next.skipWhile fun x => !isBreak x else next

theorem length_skipRemark_le (inBrackets : Bool) (c : Cursor) :
    (skipRemark inBrackets c).rest.length ≤ c.rest.length := by
  have := c.length_skipWhile_le fun x => x == ' ' || (inBrackets && x == '\t')
  simp only [skipRemark]
  split
  · exact Nat.le_trans (Cursor.length_skipWhile_le _ _) this
  · exact this

/-- The position after blanks, comments and ends of lines, and whether a line ends. -/
def skipSpace (inBrackets : Bool) (crossed : Bool) (c : Cursor) : Cursor × Bool :=
  let next := skipRemark inBrackets c
  match _h : next.rest with
  | [] => (next, crossed)
  | x :: _ => if isBreak x then skipSpace inBrackets true next.skipBreak else (next, crossed)
termination_by c.rest.length
decreasing_by
  exact Nat.lt_of_lt_of_le (Cursor.length_skipBreak_lt _h)
    (length_skipRemark_le inBrackets c)

/-- The position of the next token, where blocks that have ended are closed. -/
def advance (l : Lexer) : Except Fault Lexer :=
  let (cursor, crossed) := skipSpace l.inBrackets false l.cursor
  let keyAllowed := l.keyAllowed || (crossed && !l.inBrackets)
  (dropDistant { l with cursor, keyAllowed }).map fun l => l.unwind l.cursor.column

/-- Closes all blocks, for a mark that belongs to no block. -/
def leaveBlocks (l : Lexer) : Except Fault Lexer :=
  (l.unwind (-1)).drop.map fun l => { l with keyAllowed := false }

/-- Opens a bracket. -/
def openBracket (l : Lexer) (bracket : Char) (t : Token) : Except Fault Lexer :=
  l.note.map fun l =>
    { l.mark t 1 with
      brackets := (bracket, l.candidate) :: l.brackets
      candidate := none
      keyAllowed := true }

/-- Closes a bracket. -/
def closeBracket (l : Lexer) (t : Token) : Except Fault Lexer :=
  l.drop.map fun l =>
    match l.brackets with
    | [] => { l.mark t 1 with keyAllowed := false }
    | (_, candidate) :: brackets => { l.mark t 1 with candidate, brackets, keyAllowed := false }

/-- The mark of an item or of a key, which begins a block outside of brackets. -/
def blockMark (l : Lexer) (start t : Token) : Except Fault Lexer :=
  if !l.inBrackets && !l.keyAllowed then unreadable
  else ((l.openHere start).drop).map (·.mark t 1)

/-- The mark of a value.  What stands before it becomes a key if it may be one. -/
def valueMark (l : Lexer) : Except Fault Lexer :=
  match l.candidate with
  | some k =>
    let column := k.start.column
    let opened := if l.deepens column then l.openAt column else l
    let tokens := if l.deepens column then [Token.blockTableStart, .key] else [.key]
    .ok ({ opened with
      pieces := fill k.place tokens l.pieces
      candidate := none
      keyAllowed := false }.mark .value 1)
  | none =>
    if !l.inBrackets && !l.keyAllowed then unreadable
    else
      let l := l.openHere .blockTableStart
      .ok ({ l with keyAllowed := !l.inBrackets }.mark .value 1)

/-- Whether the last token marks a value. -/
def endsWithValue (l : Lexer) : Bool :=
  match l.pieces with
  | .token .value :: _ => true
  | _ => false

/-- Whether the colon at a position marks a value.  In braces every colon does, unless what stands
before it is a mark of a value that waits for a place to be decided. -/
def isValueMark (l : Lexer) (waiting : Bool) (after : List Char) : Bool :=
  match l.edition, l.brackets with
  | .first, _ :: _ => true
  | .second, ('{', _) :: _ => !(waiting && l.endsWithValue) || endsWord after
  | _, _ => endsWord after

/-- A token that may be a key as a whole. -/
def whole (l : Lexer) (found : Except Fault (Token × Cursor)) : Except Fault Lexer := do
  let l ← l.note
  let (t, next) ← found
  return { l with keyAllowed := false }.put t next

/-- A scalar that may be a key. -/
def scalar (l : Lexer) (isPlain : Bool) (found : Except Fault Scanned) : Except Fault Lexer := do
  let l ← l.note
  let s ← found
  return { l with keyAllowed := s.crossed }.put (.scalar isPlain (String.ofList s.text)) s.after

/-- A block scalar, of which the mark is read. -/
def blockScalar (l : Lexer) (fold : Bool) : Except Fault Lexer := do
  let l ← l.drop
  match block fold l.indent (l.cursor.skip 1) with
  | some s =>
    return { l with keyAllowed := true }.put (.scalar false (String.ofList s.text)) s.after
  | none => unreadable

/-- A directive.  An edition that is in use is that of all that follows. -/
def directiveLine (l : Lexer) : Except Fault Lexer := do
  let l ← l.leaveBlocks
  let (t, next) ← directive l.edition (l.cursor.skip 1)
  let edition := match t with
    | .edition major minor => (Edition.ofNumber? major minor).getD .second
    | _ => l.edition
  return { l with edition }.put t next

/-- The characters with which no plain scalar begins, unless more than a mark follows. -/
def indicators : List Char :=
  ['-', '?', ':', ',', '[', ']', '{', '}', '#', '&', '*', '!', '|', '>', '\x27', '"', '%', '@',
    '\x60']

/-- Whether a plain scalar begins at a position. -/
def beginsPlain (l : Lexer) (x : Char) (after : List Char) : Bool :=
  if !(indicators.contains x || isBlank x || isBreak x) then true
  else if x == '-' then !endsWord after
  else if x == '?' then !endsWord after && !l.inBrackets
  else if x == ':' then
    if !l.inBrackets then !endsWord after
    else l.edition == .second && !(after.head?.map isBlank).getD false
  else false

/-- The token at a position that begins with a character.  `waiting` tells whether tokens before it
wait for a place to be decided. -/
def step (l : Lexer) (waiting : Bool) (x : Char) (after : List Char) : Except Fault Lexer :=
  let c := l.cursor
  let next := c.skip 1
  if x == '%' && c.column == 0 then l.directiveLine
  else if c.atMark '-' then l.leaveBlocks.map (·.mark .documentStart 3)
  else if c.atMark '.' then l.leaveBlocks.map (·.mark .documentEnd 3)
  else if x == '[' then l.openBracket x .listStart
  else if x == '{' then l.openBracket x .tableStart
  else if x == ']' then l.closeBracket .listEnd
  else if x == '}' then l.closeBracket .tableEnd
  else if x == ',' then l.drop.map fun l => { l with keyAllowed := true }.mark .comma 1
  else if x == '-' && endsWord after then
    (l.blockMark .blockListStart .item).map fun l => { l with keyAllowed := true }
  else if x == '?' && (l.inBrackets || endsWord after) then
    (l.blockMark .blockTableStart .key).map fun l => { l with keyAllowed := !l.inBrackets }
  else if x == ':' && l.isValueMark waiting after then l.valueMark
  else if x == '*' then l.whole ((named next).map fun n => (.alias n.1, n.2))
  else if x == '&' then l.whole ((named next).map fun n => (.anchor n.1, n.2))
  else if x == '!' then l.whole (tag l.edition c)
  else if (x == '|' || x == '>') && !l.inBrackets then l.blockScalar (x == '>')
  else if x == '\x27' || x == '"' then l.scalar false (quoted (x == '"') [] next)
  else if l.beginsPlain x after then
    l.scalar true (.ok (plain l.edition l.inBrackets (l.indent + 1) [] c))
  else unreadable

/-- The end of the text. -/
def finish (l : Lexer) : Except Fault Lexer := l.leaveBlocks.map (·.mark .textEnd 0)

/-- The next token, if the text does not end. -/
def next (l : Lexer) : Except Fault (Lexer × Bool) := do
  let waiting := !l.candidates.isEmpty
  let here ← l.advance
  match here.cursor.rest with
  | [] => return (← here.finish, true)
  | x :: after => return (← here.step waiting x after, false)

/-- All tokens from a position on.  `fuel` bounds their number. -/
def run (l : Lexer) : Nat → List Token
  | 0 => l.failed .descriptionMalformed
  | fuel + 1 =>
    match l.dropDistant with
    | .error f => l.failed f
    | .ok near =>
      match near.next with
      | .error f => near.failed f
      | .ok (done, true) => { done with candidate := none, brackets := [] }.certain
      | .ok (next, false) => next.run fuel

end Lexer

/-- The position at the beginning of a text, after the mark of its encoding. -/
def Cursor.ofText (s : List Char) : Cursor :=
  match s with
  | [] => { rest := [] }
  | c :: rest => if c == encodingMark then { rest } else { rest := s }

/-- Tokens in which aliases of names that no token before them gives are marked. -/
def markStray (names : List String) : List Token → List Token
  | [] => []
  | .anchor name :: rest => .anchor name :: markStray (name :: names) rest
  | .alias name :: rest =>
    (if names.contains name then .alias name else .stray) :: markStray names rest
  | t :: rest => t :: markStray names rest

/-- The tokens of a text.  Every one of them but the last one takes a character. -/
def tokens (s : List Char) : List Token :=
  if s.all isAllowed then markStray [] (Lexer.run { cursor := Cursor.ofText s } (s.length + 1))
  else [.fault .descriptionMalformed]

end ChipSupport.Yaml
