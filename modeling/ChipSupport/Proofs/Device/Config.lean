import ChipSupport.Device.Config
import ChipSupport.Proofs.Bits.Block
import ChipSupport.Register.Field

/-!
# Fields of configuration registers

A field is given by its position and width, and its mask is the block of these bits.  Where fields
have no bit in common and stand by position, each ends where the next one begins or before.

## Main definitions

* `ConfigField.Placed` — fields that have a place in a register.
* `ConfigField.toMember` — a field as a member of a struct, known from its mask alone.

## Main results

* `ConfigField.lsb_toMember`, `msb_toMember`, `width_toMember` — place and width read off the mask.
* `ConfigField.pairwise_end_le` — **disjoint fields by position lie one behind the other.**
-/

namespace ChipSupport.ConfigField

/-- A field that has a place in a register: a lowest bit and at least one bit. -/
structure Placed (f : ConfigField) : Prop where
  position_nonneg : 0 ≤ f.position
  width_pos : 1 ≤ f.width

/-- A field as a member of a struct, which has a name and a mask. -/
def toMember (f : ConfigField) : Field := .named ⟨f.name, f.mask, ""⟩

variable {f g : ConfigField}

theorem mask_eq (f : ConfigField) : f.mask = Bits.block f.position.toNat f.width.toNat := rfl

@[simp] theorem name_toMember (f : ConfigField) : f.toMember.name = f.name := rfl

theorem lsb_toMember (hf : f.Placed) : f.toMember.lsb = f.position := by
  have hposition := hf.position_nonneg
  have hwidth := hf.width_pos
  change Bits.lowest (Bits.block f.position.toNat f.width.toNat) = f.position
  rw [Bits.lowest_block (by omega)]
  omega

theorem msb_toMember (hf : f.Placed) : f.toMember.msb = f.position + f.width - 1 := by
  have hposition := hf.position_nonneg
  have hwidth := hf.width_pos
  change Bits.highest (Bits.block f.position.toNat f.width.toNat) = f.position + f.width - 1
  rw [Bits.highest_block (by omega)]
  omega

theorem width_toMember (hf : f.Placed) : f.toMember.width = f.width := by
  have hwidth := hf.width_pos
  change ((Bits.population (Bits.block f.position.toNat f.width.toNat) : Nat) : Int) = f.width
  rw [Bits.population_block (by omega)]
  omega

/-- Fields have no bit in common if one ends before the other one begins. -/
theorem conj_mask_eq_zero_iff (hf : f.Placed) (hg : g.Placed) :
    Bits.conj f.mask g.mask = 0
      ↔ f.position + f.width ≤ g.position ∨ g.position + g.width ≤ f.position := by
  obtain ⟨hfposition, hfwidth⟩ := hf
  obtain ⟨hgposition, hgwidth⟩ := hg
  rw [mask_eq, mask_eq, Bits.conj_block_eq_zero_iff (by omega) (by omega)]
  omega

/-- **Disjoint fields by position lie one behind the other.** -/
theorem pairwise_end_le {fs : List ConfigField} (hplaced : ∀ f ∈ fs, f.Placed)
    (hdisjoint : fs.Pairwise fun f g => Bits.conj f.mask g.mask = 0)
    (hsorted : fs.Pairwise fun f g => f.position ≤ g.position) :
    fs.Pairwise fun f g => f.position + f.width ≤ g.position := by
  refine (hdisjoint.and hsorted).imp_of_mem fun {f g} hf hg h => ?_
  obtain ⟨hzero, hle⟩ := h
  rcases (conj_mask_eq_zero_iff (hplaced f hf) (hplaced g hg)).mp hzero with hend | hend
  · exact hend
  · -- the upper one cannot end where the lower one begins, as it has a bit
    have hwidth := (hplaced g hg).width_pos
    omega

end ChipSupport.ConfigField
