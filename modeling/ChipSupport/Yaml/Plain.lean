import ChipSupport.Yaml.Cursor

/-!
# Plain scalars

A plain scalar has no quotes.  It may run over several lines, which are folded: a single end of line
is a blank, and of several ends of lines the first one is dropped.

## Main definitions

* `Yaml.runLength` — the part of a plain scalar without blanks.
* `Yaml.plainGap` — blanks and ends of lines inside of a scalar.
* `Yaml.plain` — a plain scalar.
-/

namespace ChipSupport.Yaml

/-- The marks of collections in brackets. -/
def isFlowMark (c : Char) : Bool := c == ',' || c == '[' || c == ']' || c == '{' || c == '}'

/-- The number of characters that go on with a plain scalar.  A colon ends it in front of a blank,
and in brackets so do the marks of collections and, in the first edition, question marks. -/
def runLength (edition : Edition) (flow : Bool) : List Char → Nat
  | [] => 0
  | c :: rest =>
    let ends := isFlowMark c || (c == '?' && edition == .first)
    if isBlank c || isBreak c || (c == ':' && endsWord rest) || (flow && ends) then 0
    else runLength edition flow rest + 1

/-- The ends of lines and the position after blanks and empty lines.  Reading stops where a document
ends, and then there are none. -/
def emptyLines (breaks : List Char) (c : Cursor) : Option (List Char) × Cursor :=
  match _h : c.rest with
  | [] => (some breaks, c)
  | x :: _ =>
    if x == ' ' then emptyLines breaks (c.skip 1)
    else if !isBreak x then (some breaks, c)
    else if separates c.skipBreak.rest then (none, c.skipBreak)
    else emptyLines (breaks ++ Cursor.breakText x) c.skipBreak
termination_by c.rest.length
decreasing_by
  · exact Cursor.length_skip_lt _h (by decide)
  · exact Cursor.length_skipBreak_lt _h

theorem length_emptyLines_le (breaks : List Char) (c : Cursor) :
    (emptyLines breaks c).2.rest.length ≤ c.rest.length := by
  fun_induction emptyLines breaks c with
  | case1 => exact Nat.le_refl _
  | case2 _ c _ _ _ _ ih => exact Nat.le_trans ih (c.length_skip_le 1)
  | case3 => exact Nat.le_refl _
  | case4 _ c => exact c.length_skipBreak_le
  | case5 _ c _ _ _ _ _ _ ih => exact Nat.le_trans ih c.length_skipBreak_le

/-- The end of a line and the ends of empty lines after it, folded. -/
def folded (first : Char) (breaks : List Char) : List Char :=
  match Cursor.breakText first with
  | ['\n'] => if breaks.isEmpty then [' '] else breaks
  | other => other ++ breaks

/-- What stands between two parts of a plain scalar. -/
structure Gap where
  /-- The text; empty where the scalar ends. -/
  text : List Char
  /-- The position after the gap. -/
  after : Cursor
  /-- Whether a line ends in the gap. -/
  crossed : Bool

/-- The gap at a position. -/
def plainGap (c : Cursor) : Gap :=
  let blanks := c.rest.takeWhile (· == ' ')
  let next := c.skip blanks.length
  match next.rest with
  | x :: _ =>
    if isBreak x then
      let line := next.skipBreak
      if separates line.rest then ⟨[], line, true⟩
      else match emptyLines [] line with
        | (some breaks, after) => ⟨folded x breaks, after, true⟩
        | (none, after) => ⟨[], after, true⟩
    else ⟨blanks, next, false⟩
  | [] => ⟨blanks, next, false⟩

theorem length_plainGap_le (c : Cursor) : (plainGap c).after.rest.length ≤ c.rest.length := by
  have skipped := c.length_skip_le (c.rest.takeWhile (· == ' ')).length
  have line := Nat.le_trans (Cursor.length_skipBreak_le _) skipped
  have lines := Nat.le_trans (length_emptyLines_le [] _) line
  unfold plainGap
  simp only
  split
  · split
    · split
      · exact line
      · split
        · rename_i found
          rw [found] at lines
          exact lines
        · rename_i found
          rw [found] at lines
          exact lines
    · exact skipped
  · exact skipped

/-- A scalar, the position after it, and whether it ends with the end of a line. -/
structure Scanned where
  /-- The text. -/
  text : List Char
  /-- The position after the scalar. -/
  after : Cursor
  /-- Whether a line ends after the scalar. -/
  crossed : Bool := false

/-- A plain scalar, of which a text is read; `start` is the text, the last character first.  Outside
of brackets its lines must be indented. -/
def plain (edition : Edition) (flow : Bool) (indent : Int) (start : List Char) (c : Cursor) :
    Scanned :=
  let n := runLength edition flow c.rest
  let text := (c.rest.take n).reverse ++ start
  let gap := plainGap (c.skip n)
  if _h : n = 0 then ⟨start.reverse, c, false⟩
  else if gap.text.isEmpty || gap.after.at_ '#'
      || (!flow && decide (gap.after.column < indent)) then
    ⟨text.reverse, gap.after, gap.crossed⟩
  else if runLength edition flow gap.after.rest = 0 then ⟨text.reverse, gap.after, gap.crossed⟩
  else plain edition flow indent (gap.text.reverse ++ text) gap.after
termination_by c.rest.length
decreasing_by
  refine Nat.lt_of_le_of_lt (length_plainGap_le _) ?_
  cases e : c.rest with
  | nil => exact absurd (by simp [n, e, runLength]) _h
  | cons x s => exact e ▸ Cursor.length_skip_lt e (Nat.pos_of_ne_zero _h)

end ChipSupport.Yaml
