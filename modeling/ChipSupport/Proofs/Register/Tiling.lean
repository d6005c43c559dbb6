import ChipSupport.Proofs.Bits.Block
import ChipSupport.Proofs.Register.Layout
import ChipSupport.Proofs.Sorting

/-!
# Structs of bits without holes

The fields that are laid out may be given in any order, and gaps may be among them.  Once they are
sorted, a gap that is given leaves no trace, so that the members are the named fields and one gap in
each place where no named field lies.  They cover the register bit by bit.

## Main definitions

* `Field.Separate` — fields of neighbouring bits, of which no two share one.
* `Field.Tiles` — members that lie one behind the other without holes.

## Main results

* `Field.Separate.laid` — separate fields lie one behind the other when sorted.
* `Field.layout_eq_padded` — the layout is the named fields with gaps in between.
* `Field.tiles_padded` — one field after the other is a step of a tiling.
* `Field.tiles_layout`, `Field.exists_gap_iff` — the members and the bits of the layout.
* `Field.layout_tiles` — **the layout of separate fields tiles the register.**
-/

namespace ChipSupport.Field

/-! ### Separate fields -/

/-- A field of the `w` bits from bit `p` on. -/
structure IsBlock (f : Field) (p w : Nat) : Prop where
  /-- There is a bit. -/
  pos : 0 < w
  lsb : f.lsb = p
  msb : f.msb = p + w - 1
  width : f.width = w
  mask : f.mask = Bits.block p w

theorem isBlock_named {f : NamedField} {p w : Nat} (hw : 0 < w) (hmask : f.mask = Bits.block p w) :
    (named f).IsBlock p w where
  pos := hw
  lsb := by rw [lsb_named, NamedField.lsb, hmask, Bits.lowest_block hw]
  msb := by
    rw [msb_named, NamedField.msb, hmask, Bits.highest_block hw]
    omega
  width := by rw [Field.width, NamedField.width, hmask, Bits.population_block hw]
  mask := hmask

theorem isBlock_gap {p w : Nat} (hw : 0 < w) : (gap p w).IsBlock p w where
  pos := hw
  lsb := rfl
  msb := rfl
  width := rfl
  mask := rfl

theorem exists_isBlock_gap {lsb n : Int} (hlsb : 0 ≤ lsb) (hn : 1 ≤ n) :
    ∃ p w, (gap lsb n).IsBlock p w := by
  obtain ⟨p, rfl⟩ := Int.eq_ofNat_of_zero_le hlsb
  obtain ⟨w, rfl⟩ := Int.eq_ofNat_of_zero_le (Int.le_trans Int.one_nonneg hn)
  exact ⟨p, w, isBlock_gap (by omega)⟩

/-- Fields below bit `width` that share no bit.  A named field has neighbouring bits, and a gap has
a bit and does not begin below bit `0`. -/
structure Separate (width : Int) (fields : List Field) : Prop where
  /-- Every named field is a block of bits. -/
  named : ∀ f, .named f ∈ fields → ∃ p w : Nat, 0 < w ∧ f.mask = Bits.block p w
  /-- Every gap is a block of bits. -/
  gap : ∀ lsb n, .gap lsb n ∈ fields → 0 ≤ lsb ∧ 1 ≤ n
  /-- Every field ends below bit `width`. -/
  below : ∀ f ∈ fields, f.msb < width
  /-- No two fields have a bit in common. -/
  disjoint : fields.Pairwise fun f g => Bits.conj f.mask g.mask = 0

namespace Separate

variable {width : Int} {fields : List Field} (h : Separate width fields)
include h

theorem exists_isBlock {f : Field} (hf : f ∈ fields) : ∃ p w, f.IsBlock p w := by
  cases f with
  | named f =>
    obtain ⟨p, w, hw, hmask⟩ := h.named f hf
    exact ⟨p, w, isBlock_named hw hmask⟩
  | gap lsb n =>
    obtain ⟨hlsb, hn⟩ := h.gap lsb n hf
    exact exists_isBlock_gap hlsb hn

theorem exists_isBlock_sorted {f : NamedField} (hf : f ∈ namedOnly (Field.sorted fields)) :
    ∃ p w, (Field.named f).IsBlock p w := by
  rw [mem_namedOnly, sorted, List.mem_mergeSort] at hf
  exact h.exists_isBlock hf

/-- When sorted, every field ends below the ones behind it. -/
theorem pairwise_sorted : (sorted fields).Pairwise fun f g => f.msb < g.lsb := by
  have hdisjoint : (sorted fields).Pairwise fun f g => Bits.conj f.mask g.mask = 0 :=
    Bits.pairwise_conj_of_perm (List.mergeSort_perm fields _).symm h.disjoint
  refine ((Sorting.pairwise_mergeSort lsb fields).and hdisjoint).imp_of_mem ?_
  rintro f g hf hg ⟨hle, hfg⟩
  obtain ⟨p, w, hp⟩ := h.exists_isBlock (List.mem_mergeSort.mp hf)
  obtain ⟨q, v, hq⟩ := h.exists_isBlock (List.mem_mergeSort.mp hg)
  rw [hp.mask, hq.mask, Bits.conj_block_eq_zero_iff hp.pos hq.pos] at hfg
  have hpos := hp.pos
  have hpos' := hq.pos
  rw [hp.lsb, hq.lsb] at hle
  rw [hp.msb, hq.lsb]
  omega

/-- Separate fields lie one behind the other when sorted. -/
theorem laid : Laid 0 width (sorted fields) := by
  refine laid_of_pairwise ?_ h.pairwise_sorted
  intro f hf
  rw [sorted, List.mem_mergeSort] at hf
  obtain ⟨p, w, hp⟩ := h.exists_isBlock hf
  have hpos := hp.pos
  have hbelow := h.below f hf
  rw [hp.lsb]
  rw [hp.msb] at hbelow ⊢
  omega

end Separate

/-! ### Gaps between named fields -/

/-- The gaps that lead to named fields do not touch each other. -/
theorem mergeGaps_padded_map_named (next width : Int) (fs : List NamedField) :
    mergeGaps (padded next width (fs.map .named)) = padded next width (fs.map .named) := by
  induction fs generalizing next with
  | nil =>
    rw [List.map_nil, padded]
    split <;> rfl
  | cons f rest ih =>
    rw [List.map_cons, padded]
    split
    · rw [List.singleton_append, mergeGaps, mergeGaps, ih, consGap]
      simp
    · rw [List.nil_append, mergeGaps, ih]

/-- **The layout of separate fields is the named ones, lowest bit first, with gaps in between.** -/
theorem layout_eq_padded {width : Int} {fields : List Field} (h : Separate width fields) :
    layout fields width = padded 0 width ((namedOnly (sorted fields)).map .named) := by
  have hlaid := h.laid
  rw [layout]
  cases hsorted : sorted fields with
  | nil => exact mergeGaps_padded_map_named 0 width []
  | cons f rest =>
    rw [hsorted] at hlaid
    have hwidth : 0 ≤ width := by
      obtain ⟨hlsb, hle, hmsb, -⟩ := hlaid
      omega
    rw [← mergeGaps_padded_named hwidth hlaid, mergeGaps_padded_map_named]

/-- Whether a member is a gap. -/
def isGap : Field → Bool
  | .named _ => false
  | .gap _ _ => true

/-- Of two members next to each other one is named. -/
theorem isChain_padded (next width : Int) (fs : List NamedField) :
    (padded next width (fs.map .named)).IsChain fun f g => f.isGap = false ∨ g.isGap = false := by
  induction fs generalizing next with
  | nil =>
    rw [List.map_nil, padded]
    split <;> simp
  | cons f rest ih =>
    have hnamed : (named f :: padded ((named f).msb + 1) width (rest.map .named)).IsChain
        fun f g => f.isGap = false ∨ g.isGap = false :=
      List.isChain_cons.mpr ⟨by intros; exact .inl rfl, ih _⟩
    rw [List.map_cons, padded]
    split
    · exact List.isChain_cons_cons.mpr ⟨.inr rfl, hnamed⟩
    · exact hnamed

/-! ### Tilings -/

/-- Members that lie one behind the other without holes, from bit `start` on and up to bit
`stop`. -/
def Tiles (start stop : Int) : List Field → Prop
  | [] => start = stop
  | f :: rest => f.lsb = start ∧ f.lsb ≤ f.msb ∧ f.width = f.msb - f.lsb + 1 ∧
      Tiles (f.msb + 1) stop rest

/-- A gap leads from a bit to the members behind it. -/
theorem tiles_cons_gap {start next stop : Int} {members : List Field} (hlt : start < next)
    (h : Tiles next stop members) : Tiles start stop (.gap start (next - start) :: members) := by
  have hmsb : start + (next - start) - 1 = next - 1 := by omega
  rw [Tiles, lsb_gap, msb_gap, hmsb, Int.sub_add_cancel]
  exact ⟨rfl, by omega, by rw [width]; omega, h⟩

/-- **Fields that lie one behind the other tile the register with the gaps in between.** -/
theorem tiles_padded {next width : Int} {fs : List NamedField}
    (hblocks : ∀ f ∈ fs, ∃ p w, (named f).IsBlock p w) (h : Laid next width (fs.map .named)) :
    Tiles next (max next width) (padded next width (fs.map .named)) := by
  induction fs generalizing next with
  | nil =>
    rw [List.map_nil, padded]
    split
    next hlt =>
      rw [max_eq_right hlt.le]
      exact tiles_cons_gap hlt rfl
    next hle => exact (max_eq_left (not_lt.mp hle)).symm
  | cons f rest ih =>
    rw [List.forall_mem_cons] at hblocks
    obtain ⟨hlsb, hle, hmsb, hrest⟩ := h
    obtain ⟨p, w, hf⟩ := hblocks.1
    have hfit : max ((named f).msb + 1) width = max next width := by omega
    have hfirst : Tiles (named f).lsb (max next width)
        (named f :: padded ((named f).msb + 1) width (rest.map .named)) := by
      refine ⟨rfl, hle, ?_, hfit ▸ ih hblocks.2 hrest⟩
      rw [hf.width, hf.msb, hf.lsb]
      omega
    rw [List.map_cons, padded]
    split
    next hlt => exact tiles_cons_gap hlt hfirst
    next hnot =>
      obtain rfl : (named f).lsb = next := by omega
      exact hfirst

namespace Tiles

variable {start stop : Int} {members : List Field}

theorem lsb_head (h : Tiles start stop members) : ∀ f ∈ members.head?, f.lsb = start := by
  intro f hf
  cases members with
  | nil => cases hf
  | cons g rest =>
    obtain rfl : g = f := by simpa using hf
    exact h.1

theorem isChain (h : Tiles start stop members) :
    members.IsChain fun f g => g.lsb = f.msb + 1 := by
  induction members generalizing start with
  | nil => exact List.isChain_nil
  | cons f rest ih =>
    obtain ⟨-, -, -, hrest⟩ := h
    exact List.isChain_cons.mpr ⟨hrest.lsb_head, ih hrest⟩

/-- The members are as wide as the bits from the first one to the last one. -/
theorem sum_width (h : Tiles start stop members) :
    (members.map Field.width).sum = stop - start := by
  induction members generalizing start with
  | nil =>
    obtain rfl : start = stop := h
    simp
  | cons f rest ih =>
    obtain ⟨hlsb, -, hwidth, hrest⟩ := h
    rw [List.map_cons, List.sum_cons, ih hrest]
    omega

theorem one_le_width (h : Tiles start stop members) {f : Field} (hf : f ∈ members) :
    1 ≤ f.width := by
  induction members generalizing start with
  | nil => cases hf
  | cons g rest ih =>
    obtain ⟨-, hle, hwidth, hrest⟩ := h
    rcases List.mem_cons.mp hf with rfl | hf
    · omega
    · exact ih hrest hf

theorem le_lsb (h : Tiles start stop members) {f : Field} (hf : f ∈ members) : start ≤ f.lsb := by
  induction members generalizing start with
  | nil => cases hf
  | cons g rest ih =>
    obtain ⟨hlsb, hle, -, hrest⟩ := h
    rcases List.mem_cons.mp hf with rfl | hf
    · exact hlsb.ge
    · have hbehind := ih hrest hf
      omega

/-- Every bit is a bit of one member. -/
theorem exists_covers (h : Tiles start stop members) {k : Int} (hstart : start ≤ k)
    (hstop : k < stop) : ∃ f ∈ members, f.lsb ≤ k ∧ k ≤ f.msb := by
  induction members generalizing start with
  | nil =>
    obtain rfl : start = stop := h
    omega
  | cons f rest ih =>
    obtain ⟨hlsb, -, -, hrest⟩ := h
    by_cases hk : k ≤ f.msb
    · exact ⟨f, List.mem_cons_self, by omega, hk⟩
    · obtain ⟨g, hg, hcovers⟩ := ih hrest (by omega)
      exact ⟨g, List.mem_cons_of_mem f hg, hcovers⟩

/-- No bit is a bit of two members. -/
theorem eq_of_covers (h : Tiles start stop members) {f g : Field} {k : Int} (hf : f ∈ members)
    (hg : g ∈ members) (hfk : f.lsb ≤ k ∧ k ≤ f.msb) (hgk : g.lsb ≤ k ∧ k ≤ g.msb) : f = g := by
  induction members generalizing start with
  | nil => cases hf
  | cons first rest ih =>
    obtain ⟨-, -, -, hrest⟩ := h
    rcases List.mem_cons.mp hf with hfirst | hf'
    · rcases List.mem_cons.mp hg with hfirst' | hg'
      · rw [hfirst, hfirst']
      · have hbehind := hrest.le_lsb hg'
        subst hfirst
        omega
    · rcases List.mem_cons.mp hg with hfirst' | hg'
      · have hbehind := hrest.le_lsb hf'
        subst hfirst'
        omega
      · exact ih hrest hf' hg'

end Tiles

/-- The bits of a block are the set bits of its mask. -/
theorem IsBlock.testBit_iff {f : Field} {p w : Nat} (h : f.IsBlock p w) (k : Nat) :
    f.mask.testBit k = true ↔ f.lsb ≤ k ∧ k ≤ f.msb := by
  have hpos := h.pos
  rw [h.mask, Bits.testBit_block, decide_eq_true_eq, h.lsb, h.msb]
  omega

/-! ### The layout -/

section Layout

variable {width : Int} {fields : List Field} (h : Separate width fields)

/-- The named members are the named fields in the order of their bits. -/
theorem perm_namedOnly_layout (fields : List Field) (width : Int) :
    (namedOnly (layout fields width)).Perm (namedOnly fields) := by
  rw [namedOnly_layout]
  exact (List.mergeSort_perm fields _).filterMap _

include h

/-- The members of the layout go from bit `0` to the end of the register. -/
theorem tiles_layout : Tiles 0 (max 0 width) (layout fields width) := by
  rw [layout_eq_padded h]
  exact tiles_padded (fun _ hf => h.exists_isBlock_sorted hf) h.laid.named

/-- The named members begin one above the other. -/
theorem pairwise_namedOnly_layout :
    (namedOnly (layout fields width)).Pairwise fun f g => f.lsb < g.lsb := by
  rw [namedOnly_layout]
  refine (List.pairwise_map.mp h.laid.named.pairwise).imp_of_mem ?_
  intro f g hf _ hlt
  obtain ⟨p, w, hp⟩ := h.exists_isBlock_sorted hf
  have hpos := hp.pos
  have hlsb := hp.lsb
  have hmsb := hp.msb
  rw [lsb_named] at hlsb hlt
  omega

/-- A bit of the register lies in a gap exactly if it belongs to no named field. -/
theorem exists_gap_iff {k : Nat} (hk : k < width) :
    (∃ lsb n : Int, .gap lsb n ∈ layout fields width ∧ lsb ≤ k ∧ k < lsb + n) ↔
      ¬ ∃ f, .named f ∈ fields ∧ f.mask.testBit k = true := by
  have htiles := tiles_layout h
  have hnamed : ∀ f, .named f ∈ layout fields width ↔ .named f ∈ fields := by
    intro f
    rw [← mem_namedOnly, mem_namedOnly_layout, mem_namedOnly]
  have hcovers : ∀ f, .named f ∈ fields →
      (f.mask.testBit k = true ↔ (named f).lsb ≤ k ∧ k ≤ (named f).msb) := by
    intro f hf
    obtain ⟨p, w, hblock⟩ := h.exists_isBlock hf
    exact hblock.testBit_iff k
  constructor
  · rintro ⟨lsb, n, hgap, hle, hlt⟩ ⟨f, hf, hbit⟩
    -- the bit would be a bit of two members
    have heq := htiles.eq_of_covers hgap ((hnamed f).mpr hf) ⟨hle, by rw [msb_gap]; omega⟩
      ((hcovers f hf).mp hbit)
    cases heq
  · intro hnone
    obtain ⟨f, hf, hle, hlast⟩ := htiles.exists_covers (Int.natCast_nonneg k) (by omega)
    cases f with
    | named f =>
      have hmem := (hnamed f).mp hf
      exact absurd ⟨f, hmem, (hcovers f hmem).mpr ⟨hle, hlast⟩⟩ hnone
    | gap lsb n =>
      rw [msb_gap] at hlast
      exact ⟨lsb, n, hf, hle, by omega⟩

end Layout

/-- **The layout of separate fields tiles the register.**  The first member begins at bit `0`, every
other one behind the member before it, and together they are as wide as the register; a register of
negative width has no members.  The named members are the named fields, lowest bit first.  No two
gaps are next to each other, and a bit lies in a gap exactly if it belongs to no named field.  A
bitfield is laid out as a named field of its name and its bits. -/
theorem layout_tiles {width : Int} {fields : List Field} (h : Separate width fields) :
    (∀ f ∈ (layout fields width).head?, f.lsb = 0) ∧
    (layout fields width).IsChain (fun f g => g.lsb = f.msb + 1) ∧
    (∀ f ∈ layout fields width, 1 ≤ f.width) ∧
    ((layout fields width).map Field.width).sum = max 0 width ∧
    (namedOnly (layout fields width)).Perm (namedOnly fields) ∧
    (namedOnly (layout fields width)).Pairwise (fun f g => f.lsb < g.lsb) ∧
    (layout fields width).IsChain (fun f g => f.isGap = false ∨ g.isGap = false) ∧
    ∀ k : Nat, k < width →
      ((∃ lsb n : Int, .gap lsb n ∈ layout fields width ∧ lsb ≤ k ∧ k < lsb + n) ↔
        ¬ ∃ f, .named f ∈ fields ∧ f.mask.testBit k = true) := by
  have htiles := tiles_layout h
  refine ⟨htiles.lsb_head, htiles.isChain, fun f => htiles.one_le_width, ?_,
    perm_namedOnly_layout fields width, pairwise_namedOnly_layout h, ?_, ?_⟩
  · rw [htiles.sum_width, Int.sub_zero]
  · rw [layout_eq_padded h]
    exact isChain_padded 0 width _
  · intro k hk
    exact exists_gap_iff h hk

/-- The fields of a control register, not in their order, with gaps behind them. -/
def controlFields : List Field :=
  [.gap 12 4, .named ⟨"VAL", 0xF0, "Value"⟩, .gap 8 2, .named ⟨"EN", 0x1, "Enable"⟩]

theorem separate_controlFields : Separate 32 controlFields where
  named := by
    intro f hf
    simp only [controlFields, List.mem_cons, List.not_mem_nil, reduceCtorEq, false_or, or_false,
      named.injEq] at hf
    rcases hf with rfl | rfl
    · exact ⟨4, 4, by decide, rfl⟩
    · exact ⟨0, 1, by decide, rfl⟩
  gap := by
    intro lsb n hf
    simp only [controlFields, List.mem_cons, List.not_mem_nil, reduceCtorEq, false_or, or_false,
      gap.injEq] at hf
    omega
  below := by decide
  disjoint := by decide

/-- The control register is tiled: the gaps that are given are parts of the last gap, in which bit
`9` lies. -/
theorem layout_tiles_control :
    Separate 32 controlFields ∧
    layout controlFields 32
      = [.named ⟨"EN", 0x1, "Enable"⟩, .gap 1 3, .named ⟨"VAL", 0xF0, "Value"⟩, .gap 8 24] ∧
    ((layout controlFields 32).map Field.width).sum = 32 ∧
    ((∃ lsb n : Int, .gap lsb n ∈ layout controlFields 32 ∧ lsb ≤ (9 : Nat) ∧ (9 : Nat) < lsb + n) ↔
      ¬ ∃ f, .named f ∈ controlFields ∧ f.mask.testBit 9 = true) := by
  obtain ⟨-, -, -, hsum, -, -, -, hgaps⟩ := layout_tiles separate_controlFields
  have hsorted : sorted controlFields
      = [.named ⟨"EN", 0x1, "Enable"⟩, .named ⟨"VAL", 0xF0, "Value"⟩, .gap 8 2, .gap 12 4] := by cbv
  refine ⟨separate_controlFields, ?_, hsum.trans (by decide), hgaps 9 (by decide)⟩
  rw [layout, hsorted]
  decide +kernel

end ChipSupport.Field
