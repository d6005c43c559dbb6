import ChipSupport.Proofs.Bits.Block

/-!
# The extent of a mask

A mask extends from its lowest to its highest bit.  Between the two it may have holes, so that the
number of its bits is at most that of the places, and it is that number exactly if the mask is a
block.

## Main definitions

* `Extent` — a mask with its bounds and the number of its bits.

## Main results

* `bounds_of_testBit` — a mask has no bit outside of its bounds.
* `ncard_testBit` — the population is the number of the bits.
* `population_le`, `eq_block_of_population_eq` — a mask with as many bits as places is a block.
* `extent_of_pos` — **the extent of a positive mask: its bounds and its population.**
-/

namespace ChipSupport.Bits

/-- A mask that extends from bit `first` to bit `last` and has `count` bits. -/
structure Extent (m first last : Int) (count : Nat) : Prop where
  first_nonneg : 0 ≤ first
  testBit_first : m.testBit first.toNat = true
  testBit_last : m.testBit last.toNat = true
  /-- No bit lies outside. -/
  bounds : ∀ k : Nat, m.testBit k = true → first ≤ k ∧ k ≤ last
  /-- The bits are counted. -/
  ncard : {k : Nat | m.testBit k = true}.ncard = count
  one_le : 1 ≤ count
  le_places : (count : Int) ≤ last - first + 1
  /-- Only blocks have no holes. -/
  eq_places_iff : (count : Int) = last - first + 1 ↔ m = (2 ^ count - 1) * 2 ^ first.toNat

variable {m : Int}

/-! ### Bounds -/

/-- A mask has no bit outside of its bounds. -/
theorem bounds_of_testBit (hm : 0 < m) {k : Nat} (hk : m.testBit k = true) :
    lowest m ≤ k ∧ k ≤ highest m := by
  obtain ⟨s, hs, -, hlow⟩ := exists_lowest hm
  obtain ⟨t, ht, -, hhigh⟩ := exists_highest hm
  constructor
  · by_contra hlt
    rw [hlow k (by omega)] at hk
    cases hk
  · by_contra hlt
    rw [hhigh k (by omega)] at hk
    cases hk

theorem testBit_lowest (hm : 0 < m) : m.testBit (lowest m).toNat = true := by
  obtain ⟨s, hs, hset, -⟩ := exists_lowest hm
  rwa [hs, Int.toNat_natCast]

theorem testBit_highest (hm : 0 < m) : m.testBit (highest m).toNat = true := by
  obtain ⟨t, ht, hset, -⟩ := exists_highest hm
  rwa [ht, Int.toNat_natCast]

/-! ### The number of bits -/

/-- No bit is counted twice. -/
theorem card_positions (m : Int) : (positions m).toFinset.card = population m :=
  List.toFinset_card_of_nodup (List.nodup_range.filter _)

/-- The population of a mask is the number of its bits. -/
theorem ncard_testBit (hm : 0 < m) : {k : Nat | m.testBit k = true}.ncard = population m := by
  have hset : {k : Nat | m.testBit k = true} = ((positions m).toFinset : Set Nat) := by
    ext k
    rw [Set.mem_ofPred_eq, Finset.mem_coe, List.mem_toFinset, mem_positions hm]
  rw [hset, Set.ncard_coe_finset, card_positions]

theorem one_le_population (hm : 0 < m) : 1 ≤ population m :=
  List.length_pos_of_mem ((mem_positions hm).mpr (testBit_lowest hm))

/-- The bits of a mask are among the places from the lowest to the highest one. -/
theorem positions_subset_Icc (hm : 0 < m) {s t : Nat} (hs : lowest m = s) (ht : highest m = t) :
    (positions m).toFinset ⊆ Finset.Icc s t := by
  intro k hk
  rw [List.mem_toFinset, mem_positions hm] at hk
  have hbounds := bounds_of_testBit hm hk
  rw [Finset.mem_Icc]
  omega

theorem population_le (hm : 0 < m) : (population m : Int) ≤ highest m - lowest m + 1 := by
  obtain ⟨s, hs, -⟩ := exists_lowest hm
  obtain ⟨t, ht, -⟩ := exists_highest hm
  have hle := lowest_le_highest hm
  have hcard := Finset.card_le_card (positions_subset_Icc hm hs ht)
  rw [card_positions, Nat.card_Icc] at hcard
  omega

/-- A mask with as many bits as places is a block: a bit is missing at none of the places. -/
theorem eq_block_of_population_eq (hm : 0 < m)
    (h : (population m : Int) = highest m - lowest m + 1) :
    m = block (lowest m).toNat (population m) := by
  obtain ⟨s, hs, -⟩ := exists_lowest hm
  obtain ⟨t, ht, -⟩ := exists_highest hm
  have hfull : (positions m).toFinset = Finset.Icc s t := by
    refine Finset.eq_of_subset_of_card_le (positions_subset_Icc hm hs ht) ?_
    rw [card_positions, Nat.card_Icc]
    omega
  refine eq_of_testBit_eq hm.le block_nonneg fun k => ?_
  rw [testBit_block, Bool.eq_iff_iff, decide_eq_true_eq, ← mem_positions hm, ← List.mem_toFinset,
    hfull, Finset.mem_Icc]
  omega

/-! ### Blocks -/

/-- A block as a number: as many ones as it is wide, moved to its position. -/
theorem block_eq_mul (p w : Nat) : block p w = (2 ^ w - 1) * 2 ^ p := by
  have hbit (k : Nat) : bit k = 2 ^ k := Int.natCast_pow 2 k
  rw [block, shiftLeft, ones, hbit, hbit]

/-- **A positive mask extends from its lowest to its highest bit, and has its population as the
number of its bits.** -/
theorem extent_of_pos (hm : 0 < m) : Extent m (lowest m) (highest m) (population m) where
  first_nonneg := lowest_nonneg hm
  testBit_first := testBit_lowest hm
  testBit_last := testBit_highest hm
  bounds _ := bounds_of_testBit hm
  ncard := ncard_testBit hm
  one_le := one_le_population hm
  le_places := population_le hm
  eq_places_iff := by
    have hlowest := lowest_nonneg hm
    rw [← block_eq_mul]
    refine ⟨eq_block_of_population_eq hm, fun hblock => ?_⟩
    have hcount := one_le_population hm
    have hhighest := (congrArg highest hblock).trans (highest_block hcount)
    omega

end ChipSupport.Bits
