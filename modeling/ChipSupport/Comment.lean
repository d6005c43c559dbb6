import ChipSupport.Fault
import ChipSupport.Line
import ChipSupport.Text.Wrap

/-!
# Comment blocks

Long text stands in block comments of at most a hundred columns.

## Main definitions

* `Comment.margin` — the indentation, from zero to sixty.
* `Comment.block` — the lines of a comment.
* `wrapToWidth` — wrapping to any width, with the fault of a width that is not positive.
-/

namespace ChipSupport

/-- The lines of a text wrapped to a width.  Only text that is not blank needs a positive width. -/
def wrapToWidth (width : Int) (s : String) : Except Fault (List String) :=
  if h : 0 < width.toNat then .ok (Text.wrapText width.toNat h s)
  else if (Text.linesFrom [] s.toList).all Text.allBlank then
    .ok ((Text.linesOf s).map fun _ => "")
  else .error (.widthInvalid width)

namespace Comment

/-- The indentation of a comment, at least zero and at most sixty. -/
def margin (indent : Int) : Nat := (max 0 (min indent 60)).toNat

/-- The columns that a comment leaves for its text. -/
def room (indent : Int) : Nat := 97 - margin indent

theorem room_pos (indent : Int) : 0 < room indent := by
  unfold room margin
  omega

/-- The first line of a comment. -/
def firstLine (spaces line : String) : String :=
  if line.isEmpty then spaces ++ "/* " else Text.trimEnd (spaces ++ "/* " ++ line)

/-- A later line of a comment. -/
def laterLine (spaces line : String) : String :=
  if line.isEmpty then spaces ++ " *" else spaces ++ " * " ++ line

/-- The texts of the lines of a comment. -/
def blockText (text : String) (indent : Int := 0) : List String :=
  let spaces := String.ofList (List.replicate (margin indent) ' ')
  let body := match Text.wrapText (room indent) (room_pos indent) text with
    | [] => [spaces ++ "/* "]
    | line :: rest => firstLine spaces line :: rest.map (laterLine spaces)
  body ++ [spaces ++ " */"]

/-- The lines of a comment. -/
def block (text : String) (indent : Int := 0) : List Line := (blockText text indent).map Line.text

end Comment

end ChipSupport
