import ChipSupport.Register.Layout
import ChipSupport.Register.Vector

/-!
# Fields without captions

Captions have no part in the layout of a struct of bits or in the search for vector fields: taking
the captions away before or after makes no difference.

## Main definitions

* `Field.uncaptioned` — a member of a struct without its caption.
* `Bitfield.bare` — the name and the bits of a bitfield.

## Main results

* `Field.layout_uncaptioned` — the layout of fields without captions.
* `Bitfield.vectorFields_bare` — the vector fields of bare bitfields.
-/

namespace ChipSupport

/-! ### Captions taken away -/

/-- A field without its caption. -/
def NamedField.uncaptioned (f : NamedField) : NamedField := { f with caption := "" }

/-- A member of a struct without its caption. -/
def Field.uncaptioned : Field → Field
  | .named f => .named f.uncaptioned
  | .gap lsb width => .gap lsb width

/-- A bitfield with nothing but its name and its bits, which are all that counts where bitfields are
compared. -/
def Bitfield.bare (f : Bitfield) : Bitfield := { name := f.name, mask := f.mask }

namespace NamedField

theorem uncaptioned_toNamed (f : Bitfield) : f.toNamed.uncaptioned = f.bare.toNamed := rfl

/-- Fields of the same name and bits differ in captions only. -/
theorem uncaptioned_eq_iff {f g : NamedField} :
    f.uncaptioned = g.uncaptioned ↔ f.name = g.name ∧ f.mask = g.mask := by
  simp [uncaptioned]

end NamedField

namespace Field

@[simp] theorem uncaptioned_named (f : NamedField) :
    (named f).uncaptioned = .named f.uncaptioned := rfl

@[simp] theorem uncaptioned_gap (lsb width : Int) :
    (gap lsb width).uncaptioned = .gap lsb width := rfl

@[simp] theorem name_uncaptioned (f : Field) : f.uncaptioned.name = f.name := by cases f <;> rfl

@[simp] theorem lsb_uncaptioned (f : Field) : f.uncaptioned.lsb = f.lsb := by cases f <;> rfl

@[simp] theorem msb_uncaptioned (f : Field) : f.uncaptioned.msb = f.msb := by cases f <;> rfl

/-! ### Layouts -/

theorem padded_uncaptioned (next width : Int) (fields : List Field) :
    padded next width (fields.map uncaptioned) = (padded next width fields).map uncaptioned := by
  induction fields generalizing next with
  | nil =>
    rw [List.map_nil, padded]
    split <;> rfl
  | cons f rest ih =>
    rw [List.map_cons, padded, padded, lsb_uncaptioned, msb_uncaptioned, ih, List.map_append,
      List.map_cons]
    split <;> rfl

theorem consGap_uncaptioned (lsb width : Int) (members : List Field) :
    consGap lsb width (members.map uncaptioned) = (consGap lsb width members).map uncaptioned := by
  cases members with
  | nil => rfl
  | cons f rest =>
    cases f with
    | named f => rfl
    | gap lsb' width' =>
      rw [List.map_cons, uncaptioned_gap, consGap, consGap]
      split <;> rfl

theorem mergeGaps_uncaptioned (fields : List Field) :
    mergeGaps (fields.map uncaptioned) = (mergeGaps fields).map uncaptioned := by
  induction fields with
  | nil => rfl
  | cons f rest ih =>
    cases f with
    | named f =>
      rw [List.map_cons, uncaptioned_named, mergeGaps, mergeGaps, ih]
      rfl
    | gap lsb width =>
      rw [List.map_cons, uncaptioned_gap, mergeGaps, mergeGaps, ih, consGap_uncaptioned]

theorem sorted_uncaptioned (fields : List Field) :
    sorted (fields.map uncaptioned) = (sorted fields).map uncaptioned := by
  refine (List.map_mergeSort fun f _ g _ => ?_).symm
  rw [lsb_uncaptioned, lsb_uncaptioned]

/-- The layout of fields without captions is their layout without the captions. -/
theorem layout_uncaptioned (fields : List Field) (width : Int) :
    layout (fields.map uncaptioned) width = (layout fields width).map uncaptioned := by
  rw [layout, layout, sorted_uncaptioned, padded_uncaptioned, mergeGaps_uncaptioned]

/-! ### Names that return -/

theorem firstOfName_uncaptioned (gaps : Bool) (seen : List String) (fields : List Field) :
    firstOfName gaps seen (fields.map uncaptioned)
      = (firstOfName gaps seen fields).map uncaptioned := by
  induction fields generalizing seen with
  | nil => rfl
  | cons f rest ih =>
    simp only [List.map_cons, firstOfName, name_uncaptioned, lsb_uncaptioned, msb_uncaptioned, ih]
    -- the field is kept, becomes a gap or is left out
    split
    · split <;> rfl
    · rfl

theorem joinGaps_uncaptioned (open_ : Option (Int × Int)) (fields : List Field) :
    joinGaps open_ (fields.map uncaptioned) = (joinGaps open_ fields).map uncaptioned := by
  induction fields generalizing open_ with
  | nil => cases open_ <;> rfl
  | cons f rest ih =>
    cases f with
    | named f =>
      rw [List.map_cons, uncaptioned_named, joinGaps, joinGaps, ih]
      cases open_ <;> rfl
    | gap lsb width =>
      rw [List.map_cons, uncaptioned_gap]
      cases open_ <;> exact ih _

theorem dropDuplicates_uncaptioned (policy : Duplicates) (fields : List Field) :
    dropDuplicates policy (fields.map uncaptioned)
      = (dropDuplicates policy fields).map uncaptioned := by
  cases policy with
  | drop => exact firstOfName_uncaptioned false [] fields
  | gap =>
    simp only [dropDuplicates, firstOfName_uncaptioned, joinGaps_uncaptioned]
    -- a list of one gap is the only one that is given up
    match joinGaps none (firstOfName true [] fields) with
    | [] | [.gap _ _] | .gap _ _ :: _ :: _ | .named _ :: _ => rfl

theorem namedOnly_uncaptioned (fields : List Field) :
    namedOnly (fields.map uncaptioned) = (namedOnly fields).map NamedField.uncaptioned := by
  induction fields with
  | nil => rfl
  | cons f rest ih =>
    cases f with
    | named f => exact congrArg (f.uncaptioned :: ·) ih
    | gap lsb width => exact ih

end Field

namespace Bitfield

/-! ### Vector fields -/

theorem sorted_bare (fs : List Bitfield) : sorted (fs.map bare) = (sorted fs).map bare := by
  refine (List.map_mergeSort fun f _ g _ => ?_).symm
  rfl

theorem maskOf_bare (fs : List Bitfield) : maskOf (fs.map bare) = maskOf fs := by
  rw [maskOf, maskOf, List.map_map]
  rfl

theorem vectorsFrom_bare (current : Option NamedField) (next : Int) (fs : List Bitfield) :
    vectorsFrom (current.map NamedField.uncaptioned) next (fs.map bare)
      = (vectorsFrom current next fs).map NamedField.uncaptioned := by
  induction fs generalizing current next with
  | nil => cases current <;> rfl
  | cons f rest ih =>
    -- what a bitfield begins or extends has no caption if the bitfield has none
    have hbegin : (if f.bare.isNumberedBit then some f.bare.beginVector else none)
        = (if f.isNumberedBit then some f.beginVector else none).map NamedField.uncaptioned := by
      cases hbit : f.isNumberedBit with
      | false => exact if_neg (by rw [show f.bare.isNumberedBit = false from hbit]; decide)
      | true => exact if_pos hbit
    have hextend (v : NamedField) :
        extendVector v.uncaptioned f.bare = (extendVector v f).uncaptioned := rfl
    cases current with
    | none => rw [List.map_cons, Option.map_none, vectorsFrom, vectorsFrom, hbegin, ih]; rfl
    | some v =>
      rw [List.map_cons, Option.map_some, vectorsFrom, vectorsFrom, hbegin, hextend,
        ← Option.map_some, ih, ih]
      by_cases hext : (f.isNumberedBit && decide (f.lsb ≤ next) && v.name == baseName f.name) = true
      · rw [if_pos hext]
        exact if_pos hext
      · rw [if_neg hext]
        exact if_neg hext

/-- The vector fields of bare bitfields are the vector fields without captions. -/
theorem vectorFields_bare (fs : List Bitfield) (policy : Duplicates) :
    vectorFields (fs.map bare) policy = (vectorFields fs policy).map Field.uncaptioned := by
  have hvectors : vectors (fs.map bare) = (vectors fs).map NamedField.uncaptioned := by
    rw [vectors, vectors, sorted_bare]
    exact vectorsFrom_bare none 0 (sorted fs)
  have hnamed : ((vectors fs).map NamedField.uncaptioned).map Field.named
      = ((vectors fs).map Field.named).map Field.uncaptioned := by
    rw [List.map_map, List.map_map]
    rfl
  rw [vectorFields, vectorFields, hvectors, hnamed, Field.dropDuplicates_uncaptioned]

end Bitfield

end ChipSupport
