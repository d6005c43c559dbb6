/-!
# Columns

Parts of a line are aligned by spaces.  A part that ends before the column asked for is filled up
to it; any other part is followed by at least one space and ends at the next stop, a multiple of
four.

## Main definitions

* `fillTo` — a text filled to a width.
* `padTo` — a text filled to a column or a stop, so that what follows never touches it.
-/

namespace ChipSupport.Text

/-- A text filled with spaces to a width, if it is shorter. -/
def fillTo (s : String) (width : Int) : String :=
  s ++ String.ofList (List.replicate (width - s.length).toNat ' ')

/-- A text filled to a column, or to the next multiple of `stop` when it reaches the column.  The
stop must not be zero. -/
def padToStop (s : String) (column stop : Int) : String :=
  if s.length < column then fillTo s column
  else fillTo s (((s.length : Int).fdiv stop + 1) * stop)

/-- A text filled to a column or a stop; there is no stop at multiples of zero. -/
def padToStop? (s : String) (column stop : Int) : Option String :=
  if stop = 0 ∧ column ≤ s.length then none else some (padToStop s column stop)

/-- A text filled to a column, or to the next multiple of four when it reaches the column. -/
def padTo (s : String) (column : Int) : String := padToStop s column 4

end ChipSupport.Text
