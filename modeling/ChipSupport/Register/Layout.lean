import ChipSupport.Register.Field

/-!
# Layout of a struct of bits

The members of a struct of bits cover the register without holes: unused bits between the fields and
after them are gaps, and gaps next to each other are one gap.

## Main definitions

* `Field.padded` — members with gaps between them.
* `Field.mergeGaps` — neighbouring gaps as one.
* `Field.layout` — the members of a struct.
-/

namespace ChipSupport.Field

/-- Members with gaps in between, from a bit on up to the width of the struct. -/
def padded (next width : Int) : List Field → List Field
  | [] => if next < width then [.gap next (width - next)] else []
  | f :: rest =>
    (if next < f.lsb then [.gap next (f.lsb - next)] else []) ++ f :: padded (f.msb + 1) width rest

/-- A gap in front of members, as part of the first one if that is a gap that follows it. -/
def consGap (lsb width : Int) : List Field → List Field
  | .gap lsb' width' :: rest =>
    if lsb + width = lsb' then .gap lsb (width + width') :: rest
    else .gap lsb width :: .gap lsb' width' :: rest
  | rest => .gap lsb width :: rest

/-- Members in which gaps that follow each other are one. -/
def mergeGaps : List Field → List Field
  | [] => []
  | .gap lsb width :: rest => consGap lsb width (mergeGaps rest)
  | .named f :: rest => .named f :: mergeGaps rest

/-- Members in the order of their lowest bits. -/
def sorted (fields : List Field) : List Field := fields.mergeSort fun f g => decide (f.lsb ≤ g.lsb)

/-- The members of a struct of `width` bits with the given fields. -/
def layout (fields : List Field) (width : Int) : List Field :=
  mergeGaps (padded 0 width (sorted fields))

end ChipSupport.Field
