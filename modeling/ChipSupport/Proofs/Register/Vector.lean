import ChipSupport.Register.Vector
import ChipSupport.Proofs.Bits
import ChipSupport.Proofs.Register.Layout
import ChipSupport.Proofs.Sorting

/-!
# Vector fields of separate bitfields

Bitfields that share no bit have vector fields that lie one behind the other, whatever the names
are.  The two policies for a name that returns then differ in gaps only, which the layout of a
struct does not show.

## Main definitions

* `Bitfield.Separate` — bitfields of a register that share no bit.
* `Bitfield.OpenVector` — a vector field that later bitfields may extend.

## Main results

* `Bitfield.laid_vectors` — the vector fields lie one behind the other.
* `Bitfield.vectorFields_drop` — leaving a returning name out is making it a gap and leaving out
  the gaps.
* `Bitfield.layout_vectorFields` — both policies have the same layout.
-/

namespace ChipSupport

namespace Bitfield

/-! ### Separate bitfields -/

/-- Bitfields below bit `width` that share no bit. -/
structure Separate (width : Nat) (fs : List Bitfield) : Prop where
  /-- Every bitfield has a bit. -/
  pos : ∀ f ∈ fs, 0 < f.mask
  /-- Every bitfield lies below bit `width`. -/
  below : ∀ f ∈ fs, f.mask < Bits.bit width
  /-- No two bitfields have a bit in common. -/
  disjoint : fs.Pairwise fun f g => Bits.conj f.mask g.mask = 0

instance (width : Nat) (fs : List Bitfield) : Decidable (Separate width fs) :=
  decidable_of_iff ((∀ f ∈ fs, 0 < f.mask) ∧ (∀ f ∈ fs, f.mask < Bits.bit width)
      ∧ fs.Pairwise fun f g => Bits.conj f.mask g.mask = 0)
    ⟨fun h => ⟨h.1, h.2.1, h.2.2⟩, fun h => ⟨h.pos, h.below, h.disjoint⟩⟩

variable {width : Nat} {fs : List Bitfield}

theorem mem_sorted {f : Bitfield} : f ∈ sorted fs ↔ f ∈ fs := List.mem_mergeSort

theorem pairwise_sorted (fs : List Bitfield) : (sorted fs).Pairwise fun f g => f.lsb ≤ g.lsb :=
  Sorting.pairwise_mergeSort lsb fs

theorem Separate.disjoint_sorted (h : Separate width fs) :
    (sorted fs).Pairwise fun f g => Bits.conj f.mask g.mask = 0 :=
  Bits.pairwise_conj_of_perm (List.mergeSort_perm fs _).symm h.disjoint

/-- Separate bitfields begin above the ones before them when sorted. -/
theorem Separate.ascending (h : Separate width fs) :
    (sorted fs).Pairwise fun f g => f.lsb < g.lsb := by
  refine ((pairwise_sorted fs).and h.disjoint_sorted).imp_of_mem fun hf hg hfg => ?_
  -- separate bitfields do not begin at the same bit
  have hne := Bits.lowest_ne (h.pos _ (mem_sorted.mp hf)) (h.pos _ (mem_sorted.mp hg)) hfg.2
  exact Int.lt_iff_le_and_ne.mpr ⟨hfg.1, hne⟩

/-- Bitfields that share no bit lie below some bit. -/
theorem exists_separate (hpos : ∀ f ∈ fs, 0 < f.mask)
    (hdisjoint : fs.Pairwise fun f g => Bits.conj f.mask g.mask = 0) :
    ∃ width, Separate width fs := by
  refine ⟨(fs.map fun f => f.mask.toNat).sum, hpos, fun f hf => ?_, hdisjoint⟩
  have hle : f.mask.toNat ≤ (fs.map fun f => f.mask.toNat).sum :=
    List.le_sum_of_mem (List.mem_map_of_mem hf)
  have hlt : f.mask.toNat < 2 ^ (fs.map fun f => f.mask.toNat).sum :=
    Nat.lt_of_le_of_lt hle Nat.lt_two_pow_self
  have hbit : Bits.bit (fs.map fun f => f.mask.toNat).sum
      = ((2 ^ (fs.map fun f => f.mask.toNat).sum : Nat) : Int) := rfl
  rw [hbit]
  omega

/-- A numbered bit begins where it ends. -/
theorem msb_of_isNumberedBit {f : Bitfield} (hpos : 0 < f.mask) (h : f.isNumberedBit = true) :
    f.msb = f.lsb := by
  rw [isNumberedBit, Bool.and_eq_true, beq_iff_eq] at h
  exact Bits.highest_eq_lowest hpos h.2

/-! ### The order of the vector fields -/

/-- A vector field from bit `start` on that ends below bit `width` and below the bitfields `fs`,
which may extend it. -/
structure OpenVector (start width : Int) (fs : List Bitfield) (v : NamedField) : Prop where
  /-- The vector field has a bit. -/
  pos : 0 < v.mask
  /-- The vector field begins at bit `start` or above. -/
  start_le : start ≤ v.lsb
  /-- The vector field ends below bit `width`. -/
  msb_lt : v.msb < width
  /-- The vector field ends below every bitfield that follows. -/
  before : ∀ f ∈ fs, v.msb < f.lsb

/-- What a numbered bit begins ends below the bitfields that follow it. -/
theorem openVector_beginVector {start width : Int} {f : Bitfield} {rest : List Bitfield}
    (hpos : 0 < f.mask) (hbit : f.isNumberedBit = true) (hstart : start ≤ f.lsb)
    (hwidth : f.msb < width) (hrest : ∀ g ∈ rest, f.lsb < g.lsb) :
    OpenVector start width rest f.beginVector := by
  refine ⟨hpos, hstart, hwidth, fun g hg => ?_⟩
  have hmsb := msb_of_isNumberedBit hpos hbit
  have hlt := hrest g hg
  have hbegin : f.beginVector.msb = f.msb := rfl
  omega

/-- A vector field that goes on with a numbered bit ends below the bitfields after that bit. -/
theorem OpenVector.extend {start width : Int} {f : Bitfield} {rest : List Bitfield} {v : NamedField}
    (h : OpenVector start width (f :: rest) v) (hpos : 0 < f.mask) (hbit : f.isNumberedBit = true)
    (hwidth : f.msb < width) (hrest : ∀ g ∈ rest, f.lsb < g.lsb) :
    OpenVector start width rest (extendVector v f) := by
  have hbefore : Bits.highest v.mask < Bits.lowest f.mask := h.before f List.mem_cons_self
  have hlsb : (extendVector v f).lsb = v.lsb := Bits.lowest_disj h.pos hpos hbefore
  have hmsb : (extendVector v f).msb = f.msb := Bits.highest_disj h.pos hpos hbefore
  refine ⟨Bits.disj_pos h.pos hpos, hlsb ▸ h.start_le, hmsb ▸ hwidth, fun g hg => ?_⟩
  have hbegin := msb_of_isNumberedBit hpos hbit
  have hlt := hrest g hg
  omega

/-- The vector fields of ascending bitfields lie one behind the other. -/
theorem laid_vectorsFrom {start width next : Int} {fs : List Bitfield}
    {current : Option NamedField} (hpos : ∀ f ∈ fs, 0 < f.mask)
    (hwidth : ∀ f ∈ fs, f.msb < width) (hasc : fs.Pairwise fun f g => f.lsb < g.lsb)
    (hstart : ∀ f ∈ fs, start ≤ f.lsb) (hcurrent : ∀ v ∈ current, OpenVector start width fs v) :
    Field.Laid start width ((vectorsFrom current next fs).map .named) := by
  induction fs generalizing current next start with
  | nil =>
    cases current with
    | none => exact Field.laid_nil start width
    | some v =>
      have hv := hcurrent v rfl
      exact ⟨hv.start_le, Bits.lowest_le_highest hv.pos, hv.msb_lt, Field.laid_nil _ width⟩
  | cons f rest ih =>
    rw [List.forall_mem_cons] at hpos hwidth hstart
    rw [List.pairwise_cons] at hasc
    -- a bitfield that extends nothing begins a vector field or none
    have hbegin : ∀ {start : Int}, start ≤ f.lsb → ∀ v ∈ (if f.isNumberedBit then
        some f.beginVector else none), OpenVector start width rest v := by
      intro start hle v hv
      split at hv
      · rename_i hbit
        rw [Option.mem_some_iff] at hv
        exact hv ▸ openVector_beginVector hpos.1 hbit hle hwidth.1 hasc.1
      · cases hv
    -- the vector field so far is extended, or ends here and is laid in front of what follows
    cases current with
    | none => exact ih hpos.2 hwidth.2 hasc.2 hstart.2 (hbegin hstart.1)
    | some v =>
      have hv := hcurrent v rfl
      rw [vectorsFrom]
      split
      · rename_i hextend
        rw [Bool.and_eq_true, Bool.and_eq_true] at hextend
        refine ih hpos.2 hwidth.2 hasc.2 hstart.2 fun v' hv' => ?_
        rw [Option.mem_some_iff] at hv'
        exact hv' ▸ hv.extend hpos.1 hextend.1.1 hwidth.1 hasc.1
      · have hvf := hv.before f List.mem_cons_self
        refine ⟨hv.start_le, Bits.lowest_le_highest hv.pos, hv.msb_lt, ?_⟩
        refine ih hpos.2 hwidth.2 hasc.2 (fun g hg => ?_) (hbegin hvf)
        have hlt := hasc.1 g hg
        exact Int.lt_trans hvf hlt

/-- **The vector fields of separate bitfields lie one behind the other.** -/
theorem laid_vectors (h : Separate width fs) : Field.Laid 0 width ((vectors fs).map .named) := by
  refine laid_vectorsFrom (fun f hf => h.pos f (mem_sorted.mp hf)) (fun f hf => ?_) h.ascending
    (fun f hf => Bits.lowest_nonneg (h.pos f (mem_sorted.mp hf))) (fun v hv => by cases hv)
  have hmem := mem_sorted.mp hf
  exact Bits.highest_lt (h.pos f hmem) (h.below f hmem)

end Bitfield

namespace Field

/-! ### Names that return -/

theorem firstOfName_drop (seen : List String) (fs : List NamedField) :
    firstOfName false seen (fs.map .named)
      = (namedOnly (firstOfName true seen (fs.map .named))).map .named := by
  induction fs generalizing seen with
  | nil => rfl
  | cons f rest ih =>
    rw [List.map_cons, firstOfName, firstOfName]
    split
    · rw [if_neg Bool.false_ne_true, if_pos rfl, namedOnly_gap, ih]
    · rw [namedOnly_named, List.map_cons, ih]

/-- A gap that is described by its first and its last bit, in front of fields that lie behind it. -/
theorem laid_cons_gap {next first last width : Int} {fields : List Field} (hfirst : next ≤ first)
    (hle : first ≤ last) (hlast : last < width) (h : Laid (last + 1) width fields) :
    Laid next width (.gap first (last - first + 1) :: fields) := by
  rw [laid_cons, lsb_gap, msb_gap, show first + (last - first + 1) - 1 = last by omega]
  exact ⟨hfirst, hle, hlast, h⟩

/-- A gap lies where the field was whose place it takes. -/
theorem Laid.firstOfName {next width : Int} {fields : List Field} (h : Laid next width fields)
    (seen : List String) : Laid next width (firstOfName true seen fields) := by
  induction fields generalizing next seen with
  | nil => exact laid_nil next width
  | cons f rest ih =>
    obtain ⟨hle, hwidth, hlt, hrest⟩ := h
    rw [Field.firstOfName]
    split
    · rw [if_pos rfl]
      exact laid_cons_gap hle hwidth hlt (ih hrest seen)
    · exact ⟨hle, hwidth, hlt, ih hrest _⟩

theorem namedOnly_joinGaps (open_ : Option (Int × Int)) (fields : List Field) :
    namedOnly (joinGaps open_ fields) = namedOnly fields := by
  induction fields generalizing open_ with
  | nil => cases open_ <;> rfl
  | cons f rest ih =>
    cases f with
    | named f => cases open_ <;> simp [joinGaps, ih]
    | gap lsb n => cases open_ <;> simp [joinGaps, ih]

/-- Joined gaps lie where the gaps were, with what is between them. -/
theorem laid_joinGaps {next width : Int} {open_ : Option (Int × Int)} {fields : List Field}
    (hopen : ∀ g ∈ open_, next ≤ g.1 ∧ g.1 ≤ g.2 ∧ g.2 < width)
    (h : Laid ((open_.map fun g => g.2 + 1).getD next) width fields) :
    Laid next width (joinGaps open_ fields) := by
  induction fields generalizing open_ next with
  | nil =>
    cases open_ with
    | none => exact laid_nil next width
    | some g =>
      obtain ⟨hfirst, hle, hlast⟩ := hopen g rfl
      exact laid_cons_gap hfirst hle hlast (laid_nil _ width)
  | cons f rest ih =>
    obtain ⟨hle, hwidth, hlt, hrest⟩ := h
    cases f with
    | named f =>
      have hjoined : Laid (f.msb + 1) width (joinGaps none rest) := ih (by simp) hrest
      cases open_ with
      | none => exact ⟨hle, hwidth, hlt, hjoined⟩
      | some g =>
        obtain ⟨hfirst, hg, hlast⟩ := hopen g rfl
        exact laid_cons_gap hfirst hg hlast ⟨hle, hwidth, hlt, hjoined⟩
    | gap lsb n =>
      rw [lsb_gap] at hle hwidth
      rw [msb_gap] at hwidth hlt hrest
      cases open_ with
      | none =>
        refine ih (fun g hg => ?_) hrest
        cases hg
        exact ⟨hle, hwidth, hlt⟩
      | some g =>
        obtain ⟨hfirst, hg, -⟩ := hopen g rfl
        refine ih (fun g' hg' => ?_) hrest
        cases hg'
        have hbehind : g.2 + 1 ≤ lsb := hle
        exact ⟨hfirst, by omega, hlt⟩

/-- The first vector field has a name that no vector field had before it, so that what becomes of
the others is never a gap alone. -/
theorem dropDuplicates_gap (fs : List NamedField) :
    dropDuplicates .gap (fs.map .named)
      = joinGaps none (firstOfName true [] (fs.map .named)) := by
  cases fs with
  | nil => rfl
  | cons f rest => rfl

/-- Some field is kept of every list of fields. -/
theorem isEmpty_dropDuplicates (policy : Duplicates) (fs : List NamedField) :
    (dropDuplicates policy (fs.map .named)).isEmpty = fs.isEmpty := by
  cases policy with
  | gap =>
    rw [dropDuplicates_gap]
    cases fs <;> rfl
  | drop => cases fs <;> rfl

theorem mem_of_mem_firstOfName {gaps : Bool} {seen : List String} {fields : List Field}
    {f : NamedField} (h : f ∈ namedOnly (firstOfName gaps seen fields)) : f ∈ namedOnly fields := by
  induction fields generalizing seen with
  | nil => exact h
  | cons g rest ih =>
    rw [firstOfName] at h
    rw [mem_namedOnly, List.mem_cons, ← mem_namedOnly]
    split at h
    · split at h
      · exact .inr (ih h)
      · exact .inr (ih h)
    · rw [mem_namedOnly, List.mem_cons, ← mem_namedOnly] at h
      exact h.imp_right ih

theorem mem_of_mem_dropDuplicates {policy : Duplicates} {fields : List Field} {f : NamedField}
    (h : f ∈ namedOnly (dropDuplicates policy fields)) : f ∈ namedOnly fields := by
  unfold dropDuplicates at h
  split at h
  · exact mem_of_mem_firstOfName h
  · split at h
    · cases h
    · rw [namedOnly_joinGaps] at h
      exact mem_of_mem_firstOfName h

end Field

namespace Bitfield

open ChipSupport.Field

/-! ### Both policies -/

/-- **Leaving a returning name out is making it a gap and leaving out the gaps.** -/
theorem vectorFields_drop (fs : List Bitfield) :
    vectorFields fs .drop = (namedOnly (vectorFields fs .gap)).map .named := by
  unfold vectorFields
  rw [dropDuplicates_gap, namedOnly_joinGaps, ← firstOfName_drop]
  rfl

theorem namedOnly_vectorFields (fs : List Bitfield) :
    namedOnly (vectorFields fs .gap) = namedOnly (vectorFields fs .drop) := by
  rw [vectorFields_drop, namedOnly_map_named]

theorem isEmpty_vectorFields (fs : List Bitfield) :
    (vectorFields fs .gap).isEmpty = (vectorFields fs .drop).isEmpty := by
  unfold vectorFields
  rw [isEmpty_dropDuplicates, isEmpty_dropDuplicates]

theorem laid_vectorFields {width : Nat} {fs : List Bitfield} (h : Separate width fs) :
    Laid 0 width (vectorFields fs .gap) := by
  unfold vectorFields
  rw [dropDuplicates_gap]
  exact laid_joinGaps (by simp) ((laid_vectors h).firstOfName [])

/-- **The struct of the vector fields is the same under both policies.** -/
theorem layout_vectorFields {width : Nat} {fs : List Bitfield} (h : Separate width fs) :
    layout (vectorFields fs .gap) width = layout (vectorFields fs .drop) width := by
  rw [vectorFields_drop, layout_named (Int.natCast_nonneg width) (laid_vectorFields h)]

/-- No vector field comes from leaving out others. -/
theorem mem_vectors {policy : Duplicates} {v : NamedField}
    (h : v ∈ namedOnly (vectorFields fs policy)) : v ∈ vectors fs := by
  have hmem := mem_of_mem_dropDuplicates h
  rwa [namedOnly_map_named] at hmem

end Bitfield

end ChipSupport
