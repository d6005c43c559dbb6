import ChipSupport.Text.Lines

/-!
# Wrapping text

A line of text is broken between words so that no line is longer than a width.  The indentation of
the first line stays; white space where a line is broken goes.  A word longer than a line is broken
itself, the first piece filling up the line that has been begun.

## Main definitions

* `chunks` — a line as runs of separators and runs of other characters.
* `fillLine`, `splitLong`, `wrapChunks` — the greedy filling of lines.
* `wrapLine`, `wrapText` — one line and a whole text, in which blank lines stay.

## Main statements

* `fillLine_append`, `splitLong_flatten` — filling and breaking lose no character.
-/

namespace ChipSupport.Text

/-- The characters between which a line may be broken. -/
def isSeparator (c : Char) : Bool :=
  c == ' ' || c == '\t' || c == '\n' || c == '\x0b' || c == '\x0c' || c == '\r'

/-- Adds a character in front of chunks, to the first one if it is of the same kind. -/
def pushChunk (c : Char) : List (List Char) → List (List Char)
  | (d :: word) :: rest =>
    if isSeparator c = isSeparator d then (c :: d :: word) :: rest else [c] :: (d :: word) :: rest
  | rest => [c] :: rest

/-- The maximal runs of separators and of other characters. -/
def chunks (s : List Char) : List (List Char) := s.foldr pushChunk []

/-- The chunks that fit into the room left, and the others. -/
def fillLine (room : Nat) : List (List Char) → List (List Char) × List (List Char)
  | [] => ([], [])
  | w :: rest =>
    if w.length ≤ room then
      let filled := fillLine (room - w.length) rest
      (w :: filled.1, filled.2)
    else ([], w :: rest)

/-- When the next chunk is longer than a line, its first characters fill up the room left. -/
def splitLong (width room : Nat) : List (List Char) → List (List Char) × List (List Char)
  | [] => ([], [])
  | w :: rest => if width < w.length then ([w.take room], w.drop room :: rest) else ([], w :: rest)

/-- The chunks of a line without a blank one at the end. -/
def dropLastBlank (line : List (List Char)) : List (List Char) :=
  match line.getLast? with
  | some w => if allBlank w then line.dropLast else line
  | none => []

/-- The chunks of one line, and the chunks after it. -/
def takeLine (width : Nat) (cs : List (List Char)) : List (List Char) × List (List Char) :=
  let filled := fillLine width cs
  let used := filled.1.flatten.length
  let split := splitLong width (width - used) filled.2
  (filled.1 ++ split.1, split.2)

/-- Chunks without a blank one in front. -/
def dropFirstBlank : List (List Char) → List (List Char)
  | [] => []
  | w :: rest => if allBlank w then rest else w :: rest

/-- What is left to wrap: all characters, and the chunks they stand in. -/
def wrapSize (cs : List (List Char)) : Nat := cs.flatten.length + cs.length

theorem fillLine_append (room : Nat) (cs : List (List Char)) :
    (fillLine room cs).1 ++ (fillLine room cs).2 = cs := by
  induction cs generalizing room with
  | nil => rfl
  | cons w rest ih =>
    by_cases h : w.length ≤ room
    · simp [fillLine, h, ih]
    · simp [fillLine, h]

theorem splitLong_flatten (width room : Nat) (cs : List (List Char)) :
    (splitLong width room cs).1.flatten ++ (splitLong width room cs).2.flatten = cs.flatten := by
  cases cs with
  | nil => rfl
  | cons w rest =>
    by_cases h : width < w.length
    · simp [splitLong, h, ← List.append_assoc]
    · simp [splitLong, h]

theorem wrapSize_append (as bs : List (List Char)) :
    wrapSize (as ++ bs) = wrapSize as + wrapSize bs := by
  simp only [wrapSize, List.flatten_append, List.length_append]
  omega

theorem wrapSize_cons (w : List Char) (cs : List (List Char)) :
    wrapSize (w :: cs) = w.length + 1 + wrapSize cs := by
  simp only [wrapSize, List.flatten_cons, List.length_append, List.length_cons]
  omega

theorem wrapSize_splitLong_le (width room : Nat) (cs : List (List Char)) :
    wrapSize (splitLong width room cs).2 ≤ wrapSize cs := by
  cases cs with
  | nil => simp [splitLong]
  | cons w rest =>
    by_cases h : width < w.length
    · simp only [splitLong, if_pos h, wrapSize_cons, List.length_drop]
      omega
    · simp only [splitLong, if_neg h, Nat.le_refl]

/-- A line takes something from what is left. -/
theorem wrapSize_takeLine_lt {width : Nat} (hw : 0 < width) {w : List Char}
    {cs : List (List Char)} : wrapSize (takeLine width (w :: cs)).2 < wrapSize (w :: cs) := by
  have happ := wrapSize_append (fillLine width (w :: cs)).1 (fillLine width (w :: cs)).2
  rw [fillLine_append] at happ
  by_cases h : w.length ≤ width
  · have hpos : 0 < wrapSize (fillLine width (w :: cs)).1 := by
      rw [fillLine, if_pos h, wrapSize_cons]
      omega
    exact Nat.lt_of_le_of_lt (wrapSize_splitLong_le ..) (by omega)
  · have hlong : width < w.length := Nat.lt_of_not_le h
    have hrest : (takeLine width (w :: cs)).2 = w.drop width :: cs := by
      simp [takeLine, fillLine, h, splitLong, hlong]
    rw [hrest, wrapSize_cons, wrapSize_cons, List.length_drop]
    omega

theorem wrapSize_dropFirstBlank_le (cs : List (List Char)) :
    wrapSize (dropFirstBlank cs) ≤ wrapSize cs := by
  cases cs with
  | nil => simp [dropFirstBlank]
  | cons w rest =>
    by_cases h : allBlank w
    · simp only [dropFirstBlank, if_pos h, wrapSize_cons]
      omega
    · simp only [dropFirstBlank, if_neg h, Nat.le_refl]

/-- The lines of a list of chunks, of at most `width` characters each.  `started` says that a line
has been written, so that blanks at the start of the next one are dropped. -/
def wrapChunks (width : Nat) (hw : 0 < width) (started : Bool) (cs : List (List Char)) :
    List (List Char) :=
  match _h : if started then dropFirstBlank cs else cs with
  | [] => []
  | w :: rest =>
    let line := dropLastBlank (takeLine width (w :: rest)).1
    if line.isEmpty then wrapChunks width hw started (takeLine width (w :: rest)).2
    else line.flatten :: wrapChunks width hw true (takeLine width (w :: rest)).2
termination_by wrapSize cs
decreasing_by
  all_goals
    have hle : wrapSize (w :: rest) ≤ wrapSize cs := by
      rw [← _h]
      split
      · exact wrapSize_dropFirstBlank_le cs
      · exact Nat.le_refl _
    exact Nat.lt_of_lt_of_le (wrapSize_takeLine_lt hw) hle

/-- The lines of a line of text. -/
def wrapLine (width : Nat) (hw : 0 < width) (s : List Char) : List (List Char) :=
  if allBlank s then [[]] else wrapChunks width hw false (chunks s)

/-- The lines of a text wrapped to a positive width. -/
def wrapText (width : Nat) (hw : 0 < width) (s : String) : List String :=
  (linesFrom [] s.toList).flatMap fun line => (wrapLine width hw line).map String.ofList

end ChipSupport.Text
