import ChipSupport.Proofs.Bits

/-!
# Blocks of bits

A field of a configuration register is a block of neighbouring bits, given by its position and its
width.  The mask of a block shows both, and a value is put into a block and read off it by shifting.

## Main results

* `testBit_ones`, `testBit_shiftLeft`, `testBit_compl` — the bits of an operation.
* `conj_ones` — the lowest bits are the rest of a division.
* `testBit_block` — the bits of a block are those from its position on, as many as its width.
* `lowest_block`, `highest_block`, `population_block` — **a block is known from its mask.**
-/

namespace ChipSupport.Bits

/-! ### Bits of the operations -/

theorem ones_eq (k : Nat) : ones k = ((2 ^ k - 1 : Nat) : Int) := by
  have hpos : 0 < 2 ^ k := Nat.two_pow_pos k
  have hbit : bit k = ((2 ^ k : Nat) : Int) := rfl
  rw [ones, hbit]
  omega

theorem shiftLeft_natCast (n k : Nat) : shiftLeft n k = ((n <<< k : Nat) : Int) := by
  have hbit : bit k = ((2 ^ k : Nat) : Int) := rfl
  rw [shiftLeft, hbit, Nat.shiftLeft_eq, Int.natCast_mul]

@[simp] theorem testBit_ones (k i : Nat) : (ones k).testBit i = decide (i < k) := by
  rw [ones_eq, testBit_natCast, Nat.testBit_two_pow_sub_one]

@[simp] theorem testBit_shiftLeft (n k i : Nat) :
    (shiftLeft n k).testBit i = (decide (k ≤ i) && n.testBit (i - k)) := by
  rw [shiftLeft_natCast, testBit_natCast, Nat.testBit_shiftLeft]

@[simp] theorem testBit_compl (a : Int) (i : Nat) : (compl a).testBit i = !a.testBit i := by
  cases a with
  | ofNat n =>
    have hcompl : compl (Int.ofNat n) = Int.negSucc n := by
      rw [compl, Int.negSucc_eq, Int.ofNat_eq_natCast]
      omega
    rw [hcompl]
    rfl
  | negSucc n =>
    have hcompl : compl (Int.negSucc n) = Int.ofNat n := by
      rw [compl, Int.negSucc_eq, Int.ofNat_eq_natCast]
      omega
    rw [hcompl]
    exact (Bool.not_not _).symm

theorem conj_nonneg (a : Int) {b : Int} (hb : 0 ≤ b) : 0 ≤ conj a b := by
  lift b to Nat using hb
  cases a <;> exact Int.natCast_nonneg _

theorem disj_nonneg {a b : Int} (ha : 0 ≤ a) (hb : 0 ≤ b) : 0 ≤ disj a b := by
  lift a to Nat using ha
  lift b to Nat using hb
  exact Int.natCast_nonneg _

/-- A natural number is known from its bits. -/
theorem eq_of_testBit_eq {a b : Int} (ha : 0 ≤ a) (hb : 0 ≤ b)
    (h : ∀ i, a.testBit i = b.testBit i) : a = b := by
  lift a to Nat using ha
  lift b to Nat using hb
  exact congrArg Nat.cast (Nat.eq_of_testBit_eq h)

/-- The lowest bits of an integer are the rest of its division by a power of two. -/
theorem conj_ones (a : Int) (w : Nat) : conj a (ones w) = a % 2 ^ w := by
  rw [ones_eq]
  cases a with
  | ofNat a =>
    have hconj : conj (Int.ofNat a) ((2 ^ w - 1 : Nat) : Int)
        = ((a &&& 2 ^ w - 1 : Nat) : Int) := rfl
    rw [hconj, Nat.and_two_pow_sub_one_eq_mod]
    push_cast
    rfl
  | negSucc a =>
    have hlt : a % 2 ^ w < 2 ^ w := Nat.mod_lt a (Nat.two_pow_pos w)
    have hmod : Int.negSucc a % 2 ^ w = ((2 ^ w - (a % 2 ^ w + 1) : Nat) : Int) := by
      rw [Int.negSucc_emod a (by positivity), Nat.cast_sub hlt]
      push_cast
      ring
    rw [hmod]
    refine congrArg Int.ofNat (Nat.eq_of_testBit_eq fun i => ?_)
    rw [Nat.testBit_xor, Nat.testBit_and, Nat.testBit_two_pow_sub_succ hlt,
      Nat.testBit_two_pow_sub_one, Nat.testBit_mod_two_pow]
    by_cases hi : i < w <;> simp [hi]

/-! ### Blocks -/

/-- The mask of the block of a position and a width. -/
def block (position width : Nat) : Int := shiftLeft (ones width) position

variable {p w : Nat}

theorem block_eq (p w : Nat) : block p w = (((2 ^ w - 1) <<< p : Nat) : Int) := by
  rw [block, ones_eq, shiftLeft_natCast]

@[simp] theorem testBit_block (i : Nat) :
    (block p w).testBit i = decide (p ≤ i ∧ i < p + w) := by
  rw [block, ones_eq, testBit_shiftLeft, Nat.testBit_two_pow_sub_one, ← Bool.decide_and]
  exact decide_eq_decide.mpr (by omega)

theorem block_nonneg : 0 ≤ block p w := by
  rw [block_eq]
  exact Int.natCast_nonneg _

theorem block_pos (hw : 0 < w) : 0 < block p w := by
  refine lt_of_le_of_ne block_nonneg fun h => ?_
  -- the lowest bit of the block is set
  have hbit : (block p w).testBit p = true := by
    rw [testBit_block, decide_eq_true_eq]
    omega
  rw [← h] at hbit
  simp [Int.testBit] at hbit

/-- A block begins at its position. -/
theorem lowest_block (hw : 0 < w) : lowest (block p w) = p := by
  rw [lowest_eq_iff (block_pos hw)]
  refine ⟨?_, fun i hi => ?_⟩
  · rw [testBit_block, decide_eq_true_eq]
    omega
  · rw [testBit_block, decide_eq_false_iff_not]
    omega

/-- A block ends where its width ends. -/
theorem highest_block (hw : 0 < w) : highest (block p w) = (p + w - 1 : Nat) := by
  rw [highest_eq_iff (block_pos hw)]
  refine ⟨?_, fun i hi => ?_⟩
  · rw [testBit_block, decide_eq_true_eq]
    omega
  · rw [testBit_block, decide_eq_false_iff_not]
    omega

/-- A block has as many bits as its width. -/
theorem population_block (hw : 0 < w) : population (block p w) = w := by
  have hpos := block_pos (p := p) hw
  have hlength : bitLength (block p w) = p + w := by
    have hhighest := highest_block (p := p) hw
    rw [highest, if_neg hpos.ne'] at hhighest
    omega
  have hbits (i : Nat) : (block p w).natAbs.testBit i = decide (p ≤ i ∧ i < p + w) := by
    rw [← testBit_block, block_eq]
    rfl
  -- none of the bits below the position is set, and all of the others are
  have hbelow : (List.range p).filter (block p w).natAbs.testBit = [] := by
    rw [List.filter_eq_nil_iff]
    intro i hi
    rw [List.mem_range] at hi
    rw [hbits, decide_eq_true_eq]
    omega
  have hinside : ((List.range w).map (p + ·)).filter (block p w).natAbs.testBit
      = (List.range w).map (p + ·) := by
    rw [List.filter_eq_self]
    intro i hi
    obtain ⟨k, hk, rfl⟩ := List.mem_map.mp hi
    rw [List.mem_range] at hk
    rw [hbits, decide_eq_true_eq]
    omega
  rw [population, positions, hlength, List.range_add, List.filter_append, hbelow, hinside,
    List.nil_append, List.length_map, List.length_range]

/-- Blocks without a common bit lie one behind the other. -/
theorem conj_block_eq_zero_iff {q v : Nat} (hw : 0 < w) (hv : 0 < v) :
    conj (block p w) (block q v) = 0 ↔ p + w ≤ q ∨ q + v ≤ p := by
  constructor
  · intro h
    by_contra hover
    -- the higher one of the two positions is in both blocks
    have hleft : (block p w).testBit (max p q) = true := by
      rw [testBit_block, decide_eq_true_eq]
      omega
    have hright := testBit_of_conj_eq_zero h hleft
    rw [testBit_block, decide_eq_false_iff_not] at hright
    omega
  · intro h
    refine eq_of_testBit_eq (conj_nonneg _ block_nonneg) le_rfl fun i => ?_
    rw [testBit_conj, testBit_block, testBit_block, ← Bool.decide_and]
    have hnone : ¬ ((p ≤ i ∧ i < p + w) ∧ q ≤ i ∧ i < q + v) := by omega
    rw [decide_eq_false hnone]
    exact (Nat.zero_testBit i).symm

/-! ### Values in blocks -/

/-- What stands in a block is read off it by shifting it back. -/
theorem testBit_shiftRight (a : Int) (k i : Nat) : (a >>> k).testBit i = a.testBit (k + i) := by
  cases a with
  | ofNat n => exact Nat.testBit_shiftRight n
  | negSucc n =>
    change (!(n >>> k).testBit i) = !n.testBit (k + i)
    rw [Nat.testBit_shiftRight]

end ChipSupport.Bits
