import ChipSupport.Register.Field
import ChipSupport.Text.Digit

/-!
# Vector fields

Single bits that follow each other and are numbered versions of one name (`TX0`, `TX1`, `TX2`) can
be read as one wider field (`TX`), a vector field.  Only the first vector field of a name is kept;
the later ones are left out or become gaps.

## Main definitions

* `baseName` — a name without its number.
* `Bitfield.vectors` — the maximal runs of numbered bits.
* `Duplicates`, `Field.dropDuplicates` — what becomes of a name that returns.
* `Bitfield.vectorFields` — the vector fields of a register.
-/

namespace ChipSupport

/-- What becomes of a later vector field with the name of an earlier one. -/
inductive Duplicates where
  /-- It becomes a gap. -/
  | gap
  /-- It is left out. -/
  | drop
  deriving DecidableEq, Repr, Inhabited

/-- The name of a policy. -/
def Duplicates.name : Duplicates → String
  | .gap => "gap"
  | .drop => "drop"

/-- The policy of a name; what is not a gap is left out. -/
def Duplicates.ofName (name : String) : Duplicates := if name = "gap" then .gap else .drop

/-- Characters without the number at their end, which may stand before a line feed. -/
def dropNumber (s : List Char) : List Char :=
  match s.reverse with
  | '\n' :: rest => (rest.dropWhile Text.isDecimal).reverse ++ ['\n']
  | rest => (rest.dropWhile Text.isDecimal).reverse

/-- A name without the number at its end. -/
def baseName (name : String) : String := String.ofList (dropNumber name.toList)

/-- A caption with `x` in place of every digit. -/
def blankDigits (caption : String) : String :=
  String.ofList (caption.toList.map fun c => if Text.isDecimal c then 'x' else c)

namespace Bitfield

/-- Whether a bitfield is a numbered single bit. -/
def isNumberedBit (f : Bitfield) : Bool := baseName f.name != f.name && f.width == 1

/-- The vector field that a numbered bit begins. -/
def beginVector (f : Bitfield) : NamedField := ⟨baseName f.name, f.mask, blankDigits f.caption⟩

/-- A vector field that goes on with one more bit. -/
def extendVector (v : NamedField) (f : Bitfield) : NamedField :=
  { v with mask := Bits.disj v.mask f.mask }

/-- The vector fields of bitfields in the order of their lowest bits.  `current` is the vector field
that may go on at bit `next`. -/
def vectorsFrom (current : Option NamedField) (next : Int) : List Bitfield → List NamedField
  | [] => current.toList
  | f :: rest =>
    match current with
    | some v =>
      if f.isNumberedBit && decide (f.lsb ≤ next) && v.name == baseName f.name then
        vectorsFrom (some (extendVector v f)) (f.msb + 1) rest
      else
        v :: vectorsFrom (if f.isNumberedBit then some f.beginVector else none) (f.msb + 1) rest
    | none =>
      vectorsFrom (if f.isNumberedBit then some f.beginVector else none) (f.msb + 1) rest

/-- The vector fields of a list of bitfields, equal names included. -/
def vectors (fs : List Bitfield) : List NamedField := vectorsFrom none 0 (sorted fs)

end Bitfield

namespace Field

/-- The fields whose names have not been seen, with gaps for the others if gaps are wanted. -/
def firstOfName (gaps : Bool) (seen : List String) : List Field → List Field
  | [] => []
  | f :: rest =>
    if seen.contains f.name then
      if gaps then .gap f.lsb (f.msb - f.lsb + 1) :: firstOfName gaps seen rest
      else firstOfName gaps seen rest
    else f :: firstOfName gaps (f.name :: seen) rest

/-- Joins neighbouring gaps into one that reaches from the start of the first to the end of the
last.  `open_` is the start of a gap that is not finished and its last bit. -/
def joinGaps (open_ : Option (Int × Int)) : List Field → List Field
  | [] => (open_.map fun g => Field.gap g.1 (g.2 - g.1 + 1)).toList
  | .gap lsb width :: rest =>
    match open_ with
    | some g => joinGaps (some (g.1, lsb + width - 1)) rest
    | none => joinGaps (some (lsb, lsb + width - 1)) rest
  | .named f :: rest =>
    (open_.map fun g => Field.gap g.1 (g.2 - g.1 + 1)).toList ++ .named f :: joinGaps none rest

/-- Fields of which only the first of a name is kept.  A list of nothing but one gap is empty. -/
def dropDuplicates (policy : Duplicates) (fields : List Field) : List Field :=
  match policy with
  | .drop => firstOfName false [] fields
  | .gap =>
    match joinGaps none (firstOfName true [] fields) with
    | [.gap _ _] => []
    | joined => joined

end Field

/-- The vector fields of a list of bitfields. -/
def Bitfield.vectorFields (fs : List Bitfield) (policy : Duplicates) : List Field :=
  Field.dropDuplicates policy ((Bitfield.vectors fs).map Field.named)

end ChipSupport
