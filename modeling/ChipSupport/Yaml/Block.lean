import ChipSupport.Yaml.Plain

/-!
# Block scalars

A block scalar is a block of indented lines, taken literally or folded.  Its header may state the
indentation and what becomes of the ends of lines after the last line.

## Main definitions

* `Yaml.Header`, `Yaml.header` — the header.
* `Yaml.block` — a block scalar.
-/

namespace ChipSupport.Yaml

/-- What becomes of the ends of lines after the last line. -/
inductive Chomping where
  /-- They are dropped. -/
  | strip
  /-- The first one is kept. -/
  | clip
  /-- All are kept. -/
  | keep
  deriving DecidableEq, Repr, Inhabited

/-- The header of a block scalar. -/
structure Header where
  /-- What becomes of the ends of lines after the last line. -/
  chomping : Chomping := .clip
  /-- The indentation beyond that of the block around the scalar, if it is stated. -/
  increment : Option Nat := none
  deriving Repr, Inhabited

/-- The meaning of a chomping mark. -/
def chomping? (c : Char) : Option Chomping :=
  if c == '+' then some .keep else if c == '-' then some .strip else none

/-- The meaning of an indentation mark. -/
def increment? (c : Char) : Option Nat :=
  if '1' ≤ c ∧ c ≤ '9' then some (c.toNat - 48) else none

/-- The marks of a header, each at most once, and their number. -/
def headerMarks (s : List Char) : Header × Nat :=
  match s with
  | [] => ({}, 0)
  | a :: rest =>
    let b := rest.head?
    match chomping? a, increment? a with
    | some chomping, _ =>
      match b.bind increment? with
      | some n => ({ chomping, increment := some n }, 2)
      | none => ({ chomping }, 1)
    | none, some n =>
      match b.bind chomping? with
      | some chomping => ({ chomping, increment := some n }, 2)
      | none => ({ increment := some n }, 1)
    | none, none => ({}, 0)

/-- The header at a position, and the start of the line after it. -/
def header (c : Cursor) : Option (Header × Cursor) :=
  let (h, n) := headerMarks c.rest
  let marked := c.skip n
  let next := marked.skipWhile (· == ' ')
  let next := if next.at_ '#' then next.skipWhile (fun x => !isBreak x) else next
  if !endsLine marked.rest && !marked.at_ ' ' then none
  else match next.rest with
    | [] => some (h, next)
    | x :: _ => if isBreak x then some (h, next.skipBreak) else none

/-- The position after the blanks of an indentation. -/
def skipIndent (indent : Nat) (c : Cursor) : Cursor :=
  c.skip ((c.rest.take (indent - c.column)).takeWhile (· == ' ')).length

/-- The lines before the first one of a block scalar with text. -/
structure Leading where
  /-- The ends of the empty lines. -/
  breaks : List Char := []
  /-- The indentation of the first empty line. -/
  first : Option Nat := none
  /-- The widest indentation. -/
  widest : Nat := 0
  /-- The position after the last indentation. -/
  after : Cursor

/-- The empty lines before the first one with text, from a position on. -/
def leadingLines (l : Leading) : Leading :=
  let next := l.after.skipWhile (· == ' ')
  let widest := if next.offset = l.after.offset then l.widest else max l.widest next.column
  match _h : next.rest with
  | [] => { l with widest, after := next }
  | x :: _ =>
    if isBreak x then
      leadingLines
        { breaks := l.breaks ++ Cursor.breakText x
          first := l.first.orElse fun _ => some next.column
          widest, after := next.skipBreak }
    else { l with widest, after := next }
termination_by l.after.rest.length
decreasing_by
  exact Nat.lt_of_lt_of_le (Cursor.length_skipBreak_lt _h) (l.after.length_skipWhile_le (· == ' '))

/-- Whether an empty line is indented less than a line after it, which then has no clear
indentation. -/
def Leading.isUneven (l : Leading) : Bool :=
  match l.first with
  | some n => decide (0 < n ∧ n < l.widest)
  | none => false

theorem length_skipIndent_le (indent : Nat) (c : Cursor) :
    (skipIndent indent c).rest.length ≤ c.rest.length :=
  c.length_skip_le _

/-- The ends of empty lines, and the position after them and the indentation. -/
def emptyBlockLines (indent : Nat) (breaks : List Char) (c : Cursor) : List Char × Cursor :=
  let next := skipIndent indent c
  match _h : next.rest with
  | [] => (breaks, next)
  | x :: _ =>
    if isBreak x then emptyBlockLines indent (breaks ++ Cursor.breakText x) next.skipBreak
    else (breaks, next)
termination_by c.rest.length
decreasing_by
  exact Nat.lt_of_lt_of_le (Cursor.length_skipBreak_lt _h) (length_skipIndent_le indent c)

theorem length_emptyBlockLines_le (indent : Nat) (breaks : List Char) (c : Cursor) :
    (emptyBlockLines indent breaks c).2.rest.length ≤ c.rest.length := by
  fun_induction emptyBlockLines indent breaks c with
  | case1 _ c => exact length_skipIndent_le indent c
  | case2 _ c next _ _ _ _ ih =>
    exact Nat.le_trans ih (Nat.le_trans next.length_skipBreak_le (length_skipIndent_le indent c))
  | case3 _ c => exact length_skipIndent_le indent c

/-- The end of a line of a block scalar before another one.  It is folded between lines that do not
begin with a blank. -/
def lineEnd (fold : Bool) (this next : List Char) (lineBreak breaks : List Char) : List Char :=
  let startsText (s : List Char) := !(s.head?.map isBlank).getD false
  if fold && lineBreak == ['\n'] && startsText this && startsText next then
    if breaks.isEmpty then [' '] else []
  else lineBreak

/-- The end of a block scalar. -/
def chomped (chomping : Chomping) (lineBreak breaks : List Char) : List Char :=
  match chomping with
  | .strip => []
  | .clip => lineBreak
  | .keep => lineBreak ++ breaks

/-- The lines of a block scalar from a position after the indentation on.  `start` is the text
before, the last character first, and `breaks` are the ends of the empty lines in between. -/
def blockLines (fold : Bool) (chomping : Chomping) (indent : Nat) (start breaks : List Char)
    (c : Cursor) : Scanned :=
  let line := c.rest.takeWhile (fun x => !isBreak x)
  let stop := c.skip line.length
  let text := line.reverse ++ (breaks.reverse ++ start)
  match _h : stop.rest with
  | [] => ⟨text.reverse, stop, true⟩
  | x :: _ =>
    let lineBreak := Cursor.breakText x
    let gap := emptyBlockLines indent [] stop.skipBreak
    let next := gap.2
    if next.column = indent && !next.rest.isEmpty && !(indent == 0 && next.atBoundary) then
      let lineEnd := lineEnd fold c.rest next.rest lineBreak gap.1
      blockLines fold chomping indent (lineEnd.reverse ++ text) gap.1 next
    else ⟨text.reverse ++ chomped chomping lineBreak gap.1, next, true⟩
termination_by c.rest.length
decreasing_by
  exact Nat.lt_of_le_of_lt (length_emptyBlockLines_le _ _ _)
    (Nat.lt_of_lt_of_le (Cursor.length_skipBreak_lt _h) (c.length_skip_le _))

/-- A block scalar, of which the opening mark is read, in a block of an indentation. -/
def block (fold : Bool) (indent : Int) (c : Cursor) : Option Scanned :=
  match header c with
  | none => none
  | some (h, c) =>
    let least := (indent + 1).toNat
    let leading := leadingLines { after := c }
    let (indent, breaks, next) :=
      match h.increment with
      | none => (max least leading.widest, leading.breaks, leading.after)
      | some n =>
        let indent := max least 1 + n - 1
        let (breaks, next) := emptyBlockLines indent [] c
        (indent, breaks, next)
    if h.increment.isNone && leading.isUneven then none
    else if next.column = indent && !next.rest.isEmpty then
      some (blockLines fold h.chomping indent [] breaks next)
    else some ⟨chomped h.chomping [] breaks, next, true⟩

end ChipSupport.Yaml
