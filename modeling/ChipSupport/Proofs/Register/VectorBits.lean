import ChipSupport.Proofs.Register.VectorRuns

/-!
# The bits of a vector field

A vector field begins with a numbered bit and goes on with the numbered bits behind it.  Bit `i` of
a value that is put into the vector field is the numbered bit that comes `i` places after the first
one.

## Main definitions

* `Bitfield.MadeOf` — a vector field and the numbered bits that it is made of.
* `Bitfield.bitsOf` — the bitfields that share bits with a field.

## Main results

* `Bitfield.IsRun.exists_madeOf` — the vector field of a run is made of its bits.
* `Bitfield.exists_madeOf` — every vector field is made of the bits that share bits with it.
* `Bitfield.MadeOf.placed_eq` — **a value in a vector field is the union of the numbered bits for
  which the value has a bit.**
-/

namespace ChipSupport

namespace Bitfield

open ChipSupport.Field

variable {fs : List Bitfield}

/-! ### The bits that a vector field is made of -/

/-- A vector field that is made of numbered bits, which lie one behind the other from bit `start`
on. -/
structure MadeOf (v : NamedField) (start : Nat) (bits : List Bitfield) : Prop where
  /-- The vector field has a bit. -/
  length_pos : 0 < bits.length
  /-- Its bits lie one behind the other. -/
  mask_eq : ∀ {i f}, bits[i]? = some f → f.mask = Bits.block (start + i) 1
  /-- It is the block of its bits. -/
  block : v.mask = Bits.block start bits.length
  /-- Its bits are numbered versions of its name. -/
  numbered : ∀ f ∈ bits, f.isNumberedBit = true ∧ baseName f.name = v.name

/-- A numbered bit is a block. -/
theorem block_of_isNumberedBit {f : Bitfield} (hpos : 0 < f.mask) (hbit : f.isNumberedBit = true) :
    ∃ k : Nat, f.lsb = k ∧ f.mask = Bits.block k 1 := by
  rw [isNumberedBit, Bool.and_eq_true, beq_iff_eq] at hbit
  exact Bits.eq_block_of_population hpos hbit.2

/-- A vector field that begins is made of the bit that it begins with. -/
theorem madeOf_beginVector {f : Bitfield} {k : Nat} (hmask : f.mask = Bits.block k 1)
    (hbit : f.isNumberedBit = true) : MadeOf (ofRun [f]) k [f] := by
  rw [ofRun_singleton]
  refine ⟨by simp, ?_, hmask, List.forall_mem_singleton.mpr ⟨hbit, rfl⟩⟩
  intro i g hg
  obtain ⟨hi, rfl⟩ := List.getElem?_eq_some_iff.mp hg
  obtain rfl : i = 0 := by simpa using hi
  exact hmask

namespace MadeOf

variable {v : NamedField} {start : Nat} {bits : List Bitfield} (h : MadeOf v start bits)
include h

/-- A vector field that goes on with the bit behind it. -/
theorem extend {f : Bitfield} (hmask : f.mask = Bits.block (start + bits.length) 1)
    (hbit : f.isNumberedBit = true) (hname : v.name = baseName f.name) :
    MadeOf (extendVector v f) start (bits ++ [f]) := by
  refine ⟨by simp, fun {i g} hg => ?_, ?_, ?_⟩
  · rcases Nat.lt_trichotomy i bits.length with hlt | rfl | hlt
    · rw [List.getElem?_append_left hlt] at hg
      exact h.mask_eq hg
    · rw [List.getElem?_concat_length] at hg
      exact Option.some.inj hg ▸ hmask
    · rw [List.getElem?_eq_none (by simpa using hlt)] at hg
      cases hg
  · rw [extendVector, h.block, hmask, Bits.disj_block, List.length_append, List.length_singleton]
  · rw [List.forall_mem_append, List.forall_mem_singleton]
    exact ⟨h.numbered, hbit, hname.symm⟩

theorem mask_pos : 0 < v.mask := h.block ▸ Bits.block_pos h.length_pos

theorem conj_mask_ne_zero {f : Bitfield} (hf : f ∈ bits) : Bits.conj f.mask v.mask ≠ 0 := by
  obtain ⟨i, hi⟩ := List.mem_iff_getElem?.mp hf
  obtain ⟨hlt, -⟩ := List.getElem?_eq_some_iff.mp hi
  have hbit : f.mask.testBit (start + i) = true := by
    rw [h.mask_eq hi, Bits.testBit_block, decide_eq_true_eq]
    omega
  have hmask : v.mask.testBit (start + i) = true := by
    rw [h.block, Bits.testBit_block, decide_eq_true_eq]
    omega
  intro hzero
  rw [Bits.testBit_of_conj_eq_zero hzero hbit] at hmask
  cases hmask

/-- **A value in a vector field is the union of the numbered bits for which the value has a
bit.** -/
theorem placed_eq (n : Nat) : Bits.placed v.mask n
    = Bits.union ((bits.zipIdx.filter fun b => n.testBit b.2).map fun b => b.1.mask) := by
  have hmasks : ∀ b ∈ bits.zipIdx, b.1.mask = Bits.block (start + b.2) 1 := fun b hb =>
    h.mask_eq (List.mem_zipIdx_iff_getElem?.mp hb)
  refine Bits.eq_of_testBit_eq (Bits.placed_nonneg h.mask_pos.le n)
    (Bits.union_nonneg (List.forall_mem_map.mpr fun b hb => ?_)) fun k => ?_
  · rw [hmasks b (List.mem_of_mem_filter hb)]
    exact Bits.block_nonneg
  · rw [h.block, Bits.testBit_placed_block h.length_pos, Bits.testBit_union, List.any_map,
      Bool.eq_iff_iff, Bool.and_eq_true, decide_eq_true_eq, List.any_eq_true]
    constructor
    · rintro ⟨hk, hn⟩
      have hi : k - start < bits.length := by omega
      have hmem : (bits[k - start], k - start) ∈ bits.zipIdx :=
        List.mem_zipIdx_iff_getElem?.mpr (List.getElem?_eq_getElem hi)
      refine ⟨_, List.mem_filter.mpr ⟨hmem, hn⟩, ?_⟩
      rw [Function.comp_apply, hmasks _ hmem, Bits.testBit_block, decide_eq_true_eq]
      omega
    · rintro ⟨b, hb, hk⟩
      obtain ⟨hmem, hn⟩ := List.mem_filter.mp hb
      obtain ⟨hlt, -⟩ := List.getElem?_eq_some_iff.mp (List.mem_zipIdx_iff_getElem?.mp hmem)
      rw [Function.comp_apply, hmasks b hmem, Bits.testBit_block, decide_eq_true_eq] at hk
      obtain rfl : k = start + b.2 := by omega
      exact ⟨by omega, by rwa [Nat.add_sub_cancel_left]⟩

end MadeOf

/-! ### The vector fields of a list -/

/-- **The vector field of a run is made of its bits.** -/
theorem IsRun.exists_madeOf {run : List Bitfield} (h : IsRun run) (hpos : ∀ f ∈ run, 0 < f.mask) :
    ∃ start, MadeOf (ofRun run) start run := by
  induction run using List.reverseRecOn with
  | nil => exact absurd rfl h.ne_nil
  | append_singleton front f ih =>
    have hbit := h.numbered f (by simp)
    obtain ⟨k, hlsb, hmask⟩ := block_of_isNumberedBit (hpos f (by simp)) hbit
    rcases List.eq_nil_or_concat front with rfl | ⟨front, last, rfl⟩
    · exact ⟨k, madeOf_beginVector hmask hbit⟩
    · rw [List.concat_eq_append] at h hpos ih ⊢
      obtain ⟨hfront, hfollows⟩ := h.of_concat
      obtain ⟨start, hmade⟩ := ih hfront fun g hg => hpos g (List.mem_append_left [f] hg)
      -- the last bit of the front stands in front of `f`
      have hlast : last.mask = Bits.block (start + front.length) 1 := by
        refine hmade.mask_eq ?_
        rw [List.getElem?_concat_length]
      have hnext := (follows_iff.mp hfollows).2.2.2
      rw [hlsb, lsb, hlast, Bits.lowest_block Nat.one_pos] at hnext
      obtain rfl : k = start + (front ++ [last]).length := by
        rw [List.length_append, List.length_singleton]
        omega
      rw [← extendVector_ofRun]
      exact ⟨start, hmade.extend hmask hbit
        (hfront.name_ofRun.trans (follows_iff.mp hfollows).2.2.1)⟩

/-- The bitfields that share bits with a field, lowest bit first. -/
def bitsOf (fs : List Bitfield) (v : NamedField) : List Bitfield :=
  (sorted fs).filter fun f => decide (Bits.conj f.mask v.mask ≠ 0)

/-- **Every vector field is made of the numbered bits that share bits with it.** -/
theorem exists_madeOf {width : Nat} (h : Separate width fs) {v : NamedField} (hv : v ∈ vectors fs) :
    ∃ start, MadeOf v start (bitsOf fs v) := by
  rw [vectors_eq_map_ofRun h] at hv
  obtain ⟨bits, hbits, rfl⟩ := List.mem_map.mp hv
  have hrun := isRun_of_mem_runsOf hbits
  obtain ⟨front, back, hsorted⟩ := exists_append_of_mem_runsOf hbits
  have hpos : ∀ f ∈ bits, 0 < f.mask := by
    intro f hf
    exact h.pos f (mem_sorted.mp (mem_of_mem_runsOf hbits hf))
  obtain ⟨start, hmade⟩ := hrun.exists_madeOf hpos
  refine ⟨start, ?_⟩
  have hdisjoint := h.disjoint_sorted
  rw [hsorted, List.pairwise_append, List.pairwise_append] at hdisjoint
  obtain ⟨⟨-, -, hfront⟩, -, hback⟩ := hdisjoint
  -- nothing in front of the bits or behind them shares a bit with the vector field
  have hbefore : front.filter (fun f => decide (Bits.conj f.mask (ofRun bits).mask ≠ 0)) = [] := by
    rw [List.filter_eq_nil_iff]
    intro f hf
    simpa using hrun.conj_mask_eq_zero hpos (hfront f hf)
  have hbehind : back.filter (fun f => decide (Bits.conj f.mask (ofRun bits).mask ≠ 0)) = [] := by
    rw [List.filter_eq_nil_iff]
    intro f hf
    simpa using hrun.conj_mask_eq_zero hpos fun g hg => by
      rw [Bits.conj_comm]
      exact hback g (List.mem_append_right _ hg) f hf
  have hself : bits.filter (fun f => decide (Bits.conj f.mask (ofRun bits).mask ≠ 0)) = bits :=
    List.filter_eq_self.mpr fun f hf => decide_eq_true (hmade.conj_mask_ne_zero hf)
  rwa [bitsOf, hsorted, List.filter_append, List.filter_append, hbefore, hself, hbehind,
    List.nil_append, List.append_nil]

end Bitfield

end ChipSupport
