import ChipSupport.Text.Blank
import ChipSupport.Text.Split

/-!
# Lines of a text

A line ends at a line feed, a carriage return, both together, or one of the other separators that
Unicode defines.  The end of the text ends a line only if something stands in it.

## Main definitions

* `linesOf` — the lines, without their ends.
* `column` — where the last character of a text stands, as line and column from one.
-/

namespace ChipSupport.Text

/-- Whether a character ends a line. -/
def isLineEnd (c : Char) : Bool :=
  inRanges [(10, 13), (0x1C, 0x1E), (0x85, 0x85), (0x2028, 0x2029)] c

/-- The lines of a text whose first line begins with the reversed characters `line`. -/
def linesFrom (line : List Char) : List Char → List (List Char)
  | [] => if line.isEmpty then [] else [line.reverse]
  | c :: rest =>
    if isLineEnd c then
      match c, rest with
      | '\r', '\n' :: rest => line.reverse :: linesFrom [] rest
      | _, rest => line.reverse :: linesFrom [] rest
    else linesFrom (c :: line) rest

/-- The lines of a text. -/
def linesOf (s : String) : List String := (linesFrom [] s.toList).map String.ofList

/-- The place after reading a text from the place given, as line and column. -/
def columnFrom : Nat × Nat → List Char → Nat × Nat
  | at_, [] => at_
  | (line, col), c :: rest =>
    if isLineEnd c then
      match c, rest with
      | '\r', '\n' :: rest => columnFrom (line + 1, 0) rest
      | _, rest => columnFrom (line + 1, 0) rest
    else columnFrom (line, col + 1) rest

/-- The line and column, both from one, at which the last character of a text stands. -/
def column (s : List Char) : Nat × Nat := columnFrom (1, 0) s

/-- The pieces of a text between line feeds; a text that ends with one has an empty last piece. -/
def feeds (s : String) : List String := split '\n' s

end ChipSupport.Text
