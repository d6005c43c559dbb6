import ChipSupport.Text.Numeral

/-!
# Reading positions

A position in a text is what is left to read, with the line and column, from which indentation is
told.  Some characters end a line for scalars and comments and yet do not begin a new count of
columns.

## Main definitions

* `Yaml.Edition` — the editions of the notation.
* `Yaml.Cursor` — a position.
* `Yaml.Cursor.skip`, `Yaml.Cursor.skipBreak` — going on within a line and to the next one.
-/

namespace ChipSupport.Yaml

/-- An edition of the notation.  What it is that a text spells depends on the edition that the text
names. -/
inductive Edition where
  /-- The first edition in use, which a document has to ask for. -/
  | first
  /-- The second one. -/
  | second
  deriving DecidableEq, Repr, Inhabited

/-- The edition with a number, if it is in use. -/
def Edition.ofNumber? (major minor : Nat) : Option Edition :=
  if major = 1 ∧ minor = 1 then some .first
  else if major = 1 ∧ minor = 2 then some .second
  else none

/-- Whether a character ends a line. -/
def isBreak (c : Char) : Bool :=
  c == '\n' || c == '\r' || c == '\x85' || c == '\u2028' || c == '\u2029'

/-- Whether a character is a blank. -/
def isBlank (c : Char) : Bool := c == ' ' || c == '\t'

/-- Whether a word ends in front of a text: at a blank, at the end of a line or of the whole
text. -/
def endsWord : List Char → Bool
  | [] => true
  | c :: _ => isBlank c || isBreak c

/-- Whether a line ends in front of a text. -/
def endsLine : List Char → Bool
  | [] => true
  | c :: _ => isBreak c

/-- Whether a document may contain a character. -/
def isAllowed (c : Char) : Bool :=
  let n := c.toNat
  n == 9 || n == 10 || n == 13 || (0x20 ≤ n && n ≤ 0x7E) || n == 0x85 || (0xA0 ≤ n && n ≤ 0xFFFD)
    || 0x10000 ≤ n

/-- The mark of the encoding, which takes no column. -/
def encodingMark : Char := '\ufeff'

/-- The number of columns that characters take. -/
def columns (s : List Char) : Nat := s.countP (· != encodingMark)

/-- Whether a mark that separates documents stands at the beginning of a text: three equal
characters. -/
def beginsMark (x : Char) (s : List Char) : Bool := [x, x, x].isPrefixOf s && endsWord (s.drop 3)

/-- Whether a text begins with a mark that separates documents. -/
def separates (s : List Char) : Bool := beginsMark '-' s || beginsMark '.' s

/-- A position in a text. -/
structure Cursor where
  /-- What is left to read. -/
  rest : List Char
  /-- The number of lines before. -/
  line : Nat := 0
  /-- The number of characters before on the same line. -/
  column : Nat := 0
  /-- The number of characters before. -/
  offset : Nat := 0
  deriving Repr, Inhabited

namespace Cursor

/-- The next character. -/
def peek? (c : Cursor) : Option Char := c.rest.head?

/-- Whether the next character is a given one. -/
def at_ (c : Cursor) (x : Char) : Bool := c.rest.head? == some x

/-- The position some characters further on the same line. -/
def skip (c : Cursor) (n : Nat) : Cursor :=
  { c with
    rest := c.rest.drop n
    column := c.column + columns (c.rest.take n)
    offset := c.offset + n }

/-- The number of characters that end a line. -/
def breakSize : List Char → Nat
  | '\r' :: '\n' :: _ => 2
  | _ => 1

/-- The text that stands for the end of a line. -/
def breakText (c : Char) : List Char := if c == '\u2028' || c == '\u2029' then [c] else ['\n']

/-- Whether a character that ends a line also begins a new count of columns. -/
def isLineFeed (c : Char) : Bool := c == '\n' || c == '\r'

/-- The position after the end of a line. -/
def skipBreak (c : Cursor) : Cursor :=
  if (c.rest.head?.map isLineFeed).getD false then
    let n := breakSize c.rest
    { rest := c.rest.drop n, line := c.line + 1, column := 0, offset := c.offset + n }
  else c.skip 1

/-- The position after the characters that satisfy a condition. -/
def skipWhile (p : Char → Bool) (c : Cursor) : Cursor := c.skip (c.rest.takeWhile p).length

/-! ### What is left to read -/

theorem length_skip (c : Cursor) (n : Nat) : (c.skip n).rest.length = c.rest.length - n := by
  simp [skip]

theorem length_skip_le (c : Cursor) (n : Nat) : (c.skip n).rest.length ≤ c.rest.length := by
  simp [length_skip]

theorem length_skipWhile_le (p : Char → Bool) (c : Cursor) :
    (c.skipWhile p).rest.length ≤ c.rest.length :=
  length_skip_le c _

theorem length_skip_lt {c : Cursor} {x : Char} {s : List Char} (h : c.rest = x :: s) {n : Nat}
    (hn : 0 < n) : (c.skip n).rest.length < c.rest.length := by
  rw [length_skip, h, List.length_cons]
  omega

theorem breakSize_pos (s : List Char) : 0 < breakSize s := by
  unfold breakSize
  split <;> decide

theorem length_skipBreak_lt {c : Cursor} {x : Char} {s : List Char} (h : c.rest = x :: s) :
    c.skipBreak.rest.length < c.rest.length := by
  unfold skipBreak
  split
  · have := breakSize_pos c.rest
    simp only [List.length_drop, h, List.length_cons] at *
    omega
  · exact length_skip_lt h (by decide)

theorem length_skipBreak_le (c : Cursor) : c.skipBreak.rest.length ≤ c.rest.length := by
  cases h : c.rest with
  | nil => simp [skipBreak, skip, h]
  | cons x s => exact h ▸ Nat.le_of_lt (length_skipBreak_lt h)

/-- Whether a mark that separates documents stands at a position, which must be the start of a
line. -/
def atMark (c : Cursor) (x : Char) : Bool := c.column == 0 && beginsMark x c.rest

/-- Whether a document ends or begins at a position. -/
def atBoundary (c : Cursor) : Bool := c.column == 0 && separates c.rest

end Cursor

end ChipSupport.Yaml
