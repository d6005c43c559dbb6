import ChipSupport.Register.Layout

/-!
# Structs of bits and their gaps

The layout of a struct fills what lies between the named fields with gaps and joins touching gaps.
A gap among the fields that are laid out is joined with the bits around it, and leaves no trace.

## Main definitions

* `Field.Laid` — fields that lie one behind the other below a bit.
* `Field.gapTo` — members behind the gap that leads to them.

## Main results

* `Field.layout_named` — the layout of fields depends on the named ones only.
-/

namespace ChipSupport.Field

@[simp] theorem lsb_named (f : NamedField) : (named f).lsb = f.lsb := rfl

@[simp] theorem msb_named (f : NamedField) : (named f).msb = f.msb := rfl

@[simp] theorem lsb_gap (lsb width : Int) : (gap lsb width).lsb = lsb := rfl

@[simp] theorem msb_gap (lsb width : Int) : (gap lsb width).msb = lsb + width - 1 := rfl

/-! ### Fields one behind the other -/

/-- Fields that lie one behind the other, the first one not below bit `next` and the last one below
bit `width`.  Each has at least one bit. -/
def Laid (next width : Int) : List Field → Prop
  | [] => True
  | f :: rest => next ≤ f.lsb ∧ f.lsb ≤ f.msb ∧ f.msb < width ∧ Laid (f.msb + 1) width rest

@[simp] theorem laid_nil (next width : Int) : Laid next width [] := trivial

@[simp] theorem laid_cons (next width : Int) (f : Field) (rest : List Field) :
    Laid next width (f :: rest)
      ↔ next ≤ f.lsb ∧ f.lsb ≤ f.msb ∧ f.msb < width ∧ Laid (f.msb + 1) width rest := Iff.rfl

/-- Fields that lie above a bit lie above every lower bit. -/
theorem Laid.mono {next next' width : Int} {fields : List Field} (h : Laid next width fields)
    (hle : next' ≤ next) : Laid next' width fields := by
  cases fields with
  | nil => exact laid_nil next' width
  | cons f rest => exact ⟨Int.le_trans hle h.1, h.2⟩

theorem Laid.le_lsb {next width : Int} {fields : List Field} (h : Laid next width fields)
    {f : Field} (hf : f ∈ fields) : next ≤ f.lsb := by
  induction fields generalizing next with
  | nil => cases hf
  | cons g rest ih =>
    obtain ⟨hle, hwidth, -, hrest⟩ := h
    rcases List.mem_cons.mp hf with rfl | hmem
    · exact hle
    · have hlsb := ih hrest hmem
      omega

/-- Every field of a list ends below the ones behind it. -/
theorem Laid.pairwise {next width : Int} {fields : List Field} (h : Laid next width fields) :
    fields.Pairwise fun f g => f.msb < g.lsb := by
  induction fields generalizing next with
  | nil => exact List.Pairwise.nil
  | cons f rest ih =>
    obtain ⟨-, -, -, hrest⟩ := h
    exact List.Pairwise.cons (fun g hg => hrest.le_lsb hg) (ih hrest)

/-- Fields of which each one ends below the ones behind it lie one behind the other. -/
theorem laid_of_pairwise {next width : Int} {fields : List Field}
    (hfits : ∀ f ∈ fields, next ≤ f.lsb ∧ f.lsb ≤ f.msb ∧ f.msb < width)
    (h : fields.Pairwise fun f g => f.msb < g.lsb) : Laid next width fields := by
  induction fields generalizing next with
  | nil => exact laid_nil next width
  | cons f rest ih =>
    rw [List.forall_mem_cons] at hfits
    rw [List.pairwise_cons] at h
    obtain ⟨⟨hlsb, hle, hmsb⟩, hrest⟩ := hfits
    exact ⟨hlsb, hle, hmsb, ih (fun g hg => ⟨h.1 g hg, (hrest g hg).2⟩) h.2⟩

/-- Sorting leaves fields in place that lie one behind the other. -/
theorem Laid.sorted_eq {next width : Int} {fields : List Field} (h : Laid next width fields) :
    sorted fields = fields := by
  refine List.mergeSort_of_pairwise ?_
  induction fields generalizing next with
  | nil => exact List.Pairwise.nil
  | cons f rest ih =>
    obtain ⟨-, hwidth, -, hrest⟩ := h
    refine List.Pairwise.cons (fun g hg => ?_) (ih hrest)
    have hlsb := hrest.le_lsb hg
    exact decide_eq_true (by omega)

/-! ### The named fields -/

@[simp] theorem namedOnly_nil : namedOnly [] = [] := rfl

@[simp] theorem namedOnly_named (f : NamedField) (rest : List Field) :
    namedOnly (.named f :: rest) = f :: namedOnly rest := rfl

@[simp] theorem namedOnly_gap (lsb width : Int) (rest : List Field) :
    namedOnly (.gap lsb width :: rest) = namedOnly rest := rfl

@[simp] theorem namedOnly_map_named (fs : List NamedField) : namedOnly (fs.map .named) = fs := by
  induction fs with
  | nil => rfl
  | cons f rest ih => rw [List.map_cons, namedOnly_named, ih]

theorem mem_namedOnly {fields : List Field} {f : NamedField} :
    f ∈ namedOnly fields ↔ .named f ∈ fields := by
  induction fields with
  | nil => simp
  | cons g rest ih => cases g <;> simp [ih]

theorem namedOnly_append (fields fields' : List Field) :
    namedOnly (fields ++ fields') = namedOnly fields ++ namedOnly fields' :=
  List.filterMap_append

theorem namedOnly_padded (next width : Int) (fields : List Field) :
    namedOnly (padded next width fields) = namedOnly fields := by
  induction fields generalizing next with
  | nil => rw [padded]; split <;> rfl
  | cons f rest ih =>
    have hgap : namedOnly (if next < f.lsb then [.gap next (f.lsb - next)] else []) = [] := by
      split <;> rfl
    rw [padded, namedOnly_append, hgap, List.nil_append]
    cases f with
    | named f => rw [namedOnly_named, namedOnly_named, ih]
    | gap lsb n => rw [namedOnly_gap, namedOnly_gap, ih]

theorem namedOnly_consGap (lsb width : Int) (members : List Field) :
    namedOnly (consGap lsb width members) = namedOnly members := by
  unfold consGap
  split
  · split <;> rfl
  · rfl

theorem namedOnly_mergeGaps (fields : List Field) :
    namedOnly (mergeGaps fields) = namedOnly fields := by
  induction fields with
  | nil => rfl
  | cons f rest ih =>
    cases f with
    | named f => rw [mergeGaps, namedOnly_named, namedOnly_named, ih]
    | gap lsb n => rw [mergeGaps, namedOnly_consGap, namedOnly_gap, ih]

/-- The named members of a struct are the fields that it is made for, lowest bit first. -/
theorem namedOnly_layout (fields : List Field) (width : Int) :
    namedOnly (layout fields width) = namedOnly (sorted fields) := by
  rw [layout, namedOnly_mergeGaps, namedOnly_padded]

theorem mem_namedOnly_layout {fields : List Field} {width : Int} {f : NamedField} :
    f ∈ namedOnly (layout fields width) ↔ f ∈ namedOnly fields := by
  rw [namedOnly_layout, mem_namedOnly, mem_namedOnly, sorted, List.mem_mergeSort]

/-- Without its gaps a list lies one behind the other as before. -/
theorem Laid.named {next width : Int} {fields : List Field} (h : Laid next width fields) :
    Laid next width ((namedOnly fields).map .named) := by
  induction fields generalizing next with
  | nil => exact laid_nil next width
  | cons f rest ih =>
    obtain ⟨hle, hwidth, hlt, hrest⟩ := h
    cases f with
    | named f => exact ⟨hle, hwidth, hlt, ih hrest⟩
    | gap lsb n => exact (ih hrest).mono (by omega)

/-! ### Gaps that touch -/

/-- Members from bit `stop` on, behind the gap that leads from bit `start` to them. -/
def gapTo (start stop : Int) (members : List Field) : List Field :=
  if start < stop then consGap start (stop - start) members else members

/-- A gap that touches a gap in front of members is one gap with it. -/
theorem consGap_consGap (start n k : Int) (members : List Field) :
    consGap start n (consGap (start + n) k members) = consGap start (n + k) members := by
  have hassoc : start + (n + k) = start + n + k := (Int.add_assoc start n k).symm
  cases members with
  | nil => simp only [consGap, if_true]
  | cons f rest =>
    cases f with
    | named f => simp only [consGap, if_true]
    | gap lsb width =>
      by_cases htouch : start + n + k = lsb
      · simp only [consGap, hassoc, htouch, if_true, Int.add_assoc]
      · simp only [consGap, hassoc, htouch, if_true, if_false]

/-- A gap that leads to a gap is one gap with it. -/
theorem gapTo_consGap {start stop : Int} (h : start ≤ stop) (n : Int) (members : List Field) :
    gapTo start stop (consGap stop n members) = consGap start (stop - start + n) members := by
  unfold gapTo
  split
  · have hstop := consGap_consGap start (stop - start) n members
    rwa [show start + (stop - start) = stop by omega] at hstop
  · have heq : start = stop := by omega
    rw [heq, Int.sub_self, Int.zero_add]

/-- A gap that touches the gap to members leads to them itself. -/
theorem consGap_gapTo {start n stop : Int} (hn : 0 < n) (h : start + n ≤ stop)
    (members : List Field) :
    consGap start n (gapTo (start + n) stop members) = gapTo start stop members := by
  unfold gapTo
  rw [if_pos (show start < stop by omega)]
  split
  · rw [consGap_consGap]
    congr 1
    omega
  · congr 1
    omega

/-! ### Layouts without gaps -/

/-- Behind the last field the layout ends with the gap to the width of the struct. -/
theorem mergeGaps_padded_nil (next width : Int) :
    mergeGaps (padded next width []) = gapTo next width [] := by
  unfold gapTo
  rw [padded]
  split <;> rfl

/-- In front of a field the layout has the gap that leads to it. -/
theorem mergeGaps_padded_cons (next width : Int) (f : Field) (rest : List Field) :
    mergeGaps (padded next width (f :: rest))
      = gapTo next f.lsb (mergeGaps (f :: padded (f.msb + 1) width rest)) := by
  unfold gapTo
  rw [padded]
  split <;> rfl

/-- A gap in front of a layout that begins where the gap ends is a part of the layout from the
start of the gap on. -/
theorem consGap_mergeGaps_padded {start n width : Int} {fields : List Field} (hn : 0 < n)
    (hle : start + n ≤ width) (h : Laid (start + n) width fields) :
    consGap start n (mergeGaps (padded (start + n) width fields))
      = mergeGaps (padded start width fields) := by
  cases fields with
  | nil => rw [mergeGaps_padded_nil, mergeGaps_padded_nil, consGap_gapTo hn hle]
  | cons f rest => rw [mergeGaps_padded_cons, mergeGaps_padded_cons, consGap_gapTo hn h.1]

/-- The layout from a bit on depends on the named fields only. -/
theorem mergeGaps_padded_named {next width : Int} {fields : List Field} (hle : next ≤ width)
    (h : Laid next width fields) :
    mergeGaps (padded next width ((namedOnly fields).map .named))
      = mergeGaps (padded next width fields) := by
  induction fields generalizing next with
  | nil => rfl
  | cons f rest ih =>
    obtain ⟨hlsb, hwidth, hlt, hrest⟩ := h
    cases f with
    | named f =>
      rw [namedOnly_named, List.map_cons, mergeGaps_padded_cons, mergeGaps_padded_cons, mergeGaps,
        mergeGaps, ih hlt hrest]
    | gap lsb n =>
      rw [lsb_gap] at hlsb hwidth
      rw [msb_gap] at hwidth hlt
      have hstop : lsb + n - 1 + 1 = next + (lsb - next + n) := by omega
      rw [msb_gap, hstop] at hrest
      -- the gap and the bits in front of it are one gap, which the layout of the rest begins with
      rw [namedOnly_gap, ih hle (hrest.mono (by omega)), mergeGaps_padded_cons, lsb_gap, msb_gap,
        hstop, mergeGaps, gapTo_consGap hlsb, consGap_mergeGaps_padded (by omega) (by omega) hrest]

/-- **The layout of fields that lie one behind the other depends on the named ones only.** -/
theorem layout_named {width : Int} {fields : List Field} (hwidth : 0 ≤ width)
    (h : Laid 0 width fields) :
    layout ((namedOnly fields).map .named) width = layout fields width := by
  unfold layout
  rw [h.named.sorted_eq, h.sorted_eq, mergeGaps_padded_named hwidth h]

end ChipSupport.Field
