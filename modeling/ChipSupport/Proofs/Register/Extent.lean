import ChipSupport.Proofs.Bits.Extent
import ChipSupport.Proofs.Register.Tiling

/-!
# The extent of a field

The bounds and the width of a field are read off its mask.  Those of a gap are given, and its mask
is made from them, so that a named field of the same mask shows the bounds and the width of the gap.

## Main results

* `Field.extent_of_mask` — **the bounds and the width of a field are the extent of its mask.**
-/

namespace ChipSupport.Field

/-- A gap that does not begin below bit `0` has a mask. -/
theorem mask?_gap {lsb n : Int} (hlsb : 0 ≤ lsb) (hn : 1 ≤ n) :
    (gap lsb n).mask? = .ok (gap lsb n).mask :=
  if_neg (by omega)

/-- A named field with the mask of a block has the bounds and the width of the block. -/
theorem IsBlock.eq_named {g : Field} {p w : Nat} (h : g.IsBlock p w) {f : NamedField}
    (hmask : f.mask = g.mask) : f.lsb = g.lsb ∧ f.msb = g.msb ∧ f.width = g.width := by
  have hnamed := isBlock_named h.pos (hmask.trans h.mask)
  exact ⟨hnamed.lsb.trans h.lsb.symm, hnamed.msb.trans h.msb.symm, hnamed.width.trans h.width.symm⟩

/-- **The bounds and the width of a field are the extent of its mask.**  The lowest and the highest
bit of a positive mask are set, and no bit lies outside of them.  The width is the number of the
bits: at least one, at most the number of places from the lowest to the highest one, and that number
exactly if the mask is a block.  A gap of at least one bit has a mask, and a named field of this
mask has the bounds and the width of the gap. -/
theorem extent_of_mask :
    (∀ f : Bitfield, 0 < f.mask → Bits.Extent f.mask f.lsb f.msb f.width) ∧
    (∀ f : NamedField, 0 < f.mask → Bits.Extent f.mask f.lsb f.msb f.width) ∧
    ∀ lsb n : Int, 0 ≤ lsb → 1 ≤ n →
      (gap lsb n).mask? = .ok (gap lsb n).mask ∧
      ∀ f : NamedField, f.mask = (gap lsb n).mask →
        f.lsb = (gap lsb n).lsb ∧ f.msb = (gap lsb n).msb ∧ f.width = (gap lsb n).width := by
  refine ⟨fun f => Bits.extent_of_pos, fun f => Bits.extent_of_pos, fun lsb n hlsb hn => ?_⟩
  obtain ⟨p, w, hblock⟩ := exists_isBlock_gap hlsb hn
  exact ⟨mask?_gap hlsb hn, fun f => hblock.eq_named⟩

/-- A field with a hole at bit `6`, and a gap whose mask has none. -/
theorem extent_of_mask_hole :
    let hole : Bitfield := { name := "MODE", mask := 0xB0 }
    let reserved : NamedField := ⟨"RESERVED", 0xF8, ""⟩
    (0 < hole.mask ∧ Bits.Extent 0xB0 4 7 3) ∧
    (0 < hole.toNamed.mask ∧ Bits.Extent hole.toNamed.mask hole.lsb hole.msb hole.width) ∧
    ((0 : Int) ≤ 3 ∧ (1 : Int) ≤ 5 ∧ (gap 3 5).mask? = .ok 0xF8) ∧
    reserved.mask = (gap 3 5).mask ∧ reserved.lsb = 3 ∧ reserved.msb = 7 ∧ reserved.width = 5 := by
  intro hole reserved
  obtain ⟨hbitfield, hnamed, hgap⟩ := extent_of_mask
  have hpos : 0 < hole.mask := by decide
  have hextent := hbitfield hole hpos
  have hfirst : hole.lsb = 4 := by decide +kernel
  have hlast : hole.msb = 7 := by decide +kernel
  have hcount : hole.width = 3 := by decide +kernel
  rw [hfirst, hlast, hcount] at hextent
  have hmask : reserved.mask = (gap 3 5).mask := by decide
  obtain ⟨hgapMask, hbounds⟩ := hgap 3 5 (by decide) (by decide)
  obtain ⟨hlsb, hmsb, hwidth⟩ := hbounds reserved hmask
  exact ⟨⟨hpos, hextent⟩, ⟨hpos, hnamed hole.toNamed hpos⟩,
    ⟨by decide, by decide, hgapMask⟩, hmask, hlsb, hmsb, Int.ofNat.inj hwidth⟩

end ChipSupport.Field
