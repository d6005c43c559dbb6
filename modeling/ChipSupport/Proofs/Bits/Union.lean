import ChipSupport.Proofs.Bits.Extent

/-!
# Words put together from blocks

Values that stand in blocks without a common bit are put together into a word, from which each of
them can be read again.

## Main definitions

* `placed` — a value in the block of a mask.

## Main results

* `ext_testBit` — integers with the same bits.
* `testBit_union` — the bits of a union.
* `eq_block_of_population` — a mask of one bit is a block.
* `conj_shiftRight_union` — **what was put into a block is read from it.**
-/

namespace ChipSupport.Bits

/-! ### Unions -/

/-- An integer is known from its bits, as far up they are all equal to its sign. -/
theorem ext_testBit {a b : Int} (h : ∀ k, a.testBit k = b.testBit k) : a = b := by
  -- at bit `m + n` a natural number `m` has no bit, and the complement of `n` has one
  have hsign : ∀ m n : Nat, (Int.ofNat m).testBit (m + n) ≠ (Int.negSucc n).testBit (m + n) := by
    intro m n heq
    have hlow : m.testBit (m + n) = false :=
      Nat.testBit_lt_two_pow
        (Nat.lt_two_pow_self.trans_le (Nat.pow_le_pow_right (by decide) (by omega)))
    have hhigh : n.testBit (m + n) = false :=
      Nat.testBit_lt_two_pow
        (Nat.lt_two_pow_self.trans_le (Nat.pow_le_pow_right (by decide) (by omega)))
    simp only [Int.testBit, hlow, hhigh] at heq
    cases heq
  cases a with
  | ofNat m =>
    cases b with
    | ofNat n => exact congrArg Int.ofNat (Nat.eq_of_testBit_eq h)
    | negSucc n => exact absurd (h _) (hsign m n)
  | negSucc m =>
    cases b with
    | ofNat n => exact absurd (h _).symm (hsign n m)
    | negSucc n =>
      refine congrArg Int.negSucc (Nat.eq_of_testBit_eq fun k => ?_)
      exact Bool.not_inj (h k)

@[simp] theorem testBit_union (masks : List Int) (k : Nat) :
    (union masks).testBit k = masks.any fun m => m.testBit k := by
  have hfold (start : Int) :
      (masks.foldl disj start).testBit k = (start.testBit k || masks.any fun m => m.testBit k) := by
    induction masks generalizing start with
    | nil => rw [List.foldl_nil, List.any_nil, Bool.or_false]
    | cons m masks ih => rw [List.foldl_cons, ih, testBit_disj, List.any_cons, Bool.or_assoc]
  have hzero : (0 : Int).testBit k = false := Nat.zero_testBit k
  rw [union, hfold, hzero, Bool.false_or]

theorem union_nonneg {masks : List Int} (h : ∀ m ∈ masks, 0 ≤ m) : 0 ≤ union masks := by
  have hfold {start : Int} (hstart : 0 ≤ start) : 0 ≤ masks.foldl disj start := by
    induction masks generalizing start with
    | nil => exact hstart
    | cons m masks ih =>
      rw [List.forall_mem_cons] at h
      exact ih h.2 (disj_nonneg hstart h.1)
  exact hfold le_rfl

/-- A mask has no bits in common with a union if it has none with any of its masks. -/
theorem conj_union_eq_zero {m : Int} {masks : List Int} (hpos : ∀ x ∈ masks, 0 ≤ x)
    (h : ∀ x ∈ masks, conj m x = 0) : conj m (union masks) = 0 := by
  refine eq_of_testBit_eq (conj_nonneg m (union_nonneg hpos)) le_rfl fun k => ?_
  have hzero : (0 : Int).testBit k = false := Nat.zero_testBit k
  rw [hzero, testBit_conj, Bool.and_eq_false_imp, testBit_union]
  intro hk
  rw [List.any_eq_false]
  intro x hx hxk
  rw [testBit_of_conj_eq_zero (h x hx) hk] at hxk
  cases hxk

/-- Masks without a common bit are known from their bits. -/
theorem eq_of_testBit_mask {α : Type} {mask : α → Int} {xs : List α}
    (hdisjoint : xs.Pairwise fun x y => conj (mask x) (mask y) = 0) {x y : α} (hx : x ∈ xs)
    (hy : y ∈ xs) {k : Nat} (hxk : (mask x).testBit k = true) (hyk : (mask y).testBit k = true) :
    x = y := by
  by_contra hne
  have hnone := testBit_of_conj_eq_zero (conj_eq_zero_of_pairwise hdisjoint hx hy hne) hxk
  rw [hyk] at hnone
  cases hnone

/-! ### Blocks side by side -/

/-- A mask of one bit is a block. -/
theorem eq_block_of_population {m : Int} (hm : 0 < m) (h : population m = 1) :
    ∃ k : Nat, lowest m = k ∧ m = block k 1 := by
  obtain ⟨k, hk, -⟩ := exists_lowest hm
  have hends := highest_eq_lowest hm h
  have hblock := eq_block_of_population_eq hm (by omega)
  rw [hk, h, Int.toNat_natCast] at hblock
  exact ⟨k, hk, hblock⟩

/-- A block and the one behind it are one block. -/
theorem disj_block (p w v : Nat) : disj (block p w) (block (p + w) v) = block p (w + v) := by
  refine eq_of_testBit_eq (disj_nonneg block_nonneg block_nonneg) block_nonneg fun i => ?_
  rw [testBit_disj, testBit_block, testBit_block, testBit_block, ← Bool.decide_or]
  exact decide_eq_decide.mpr (by omega)

/-! ### Values in blocks -/

/-- A value in the block of a mask: the value begins at the lowest bit, and what the block is too
short for is left out. -/
def placed (mask : Int) (v : Nat) : Int := conj mask (shiftLeft v (lowest mask).toNat)

theorem placed_nonneg {mask : Int} (h : 0 ≤ mask) (v : Nat) : 0 ≤ placed mask v := by
  rw [placed, conj_comm]
  exact conj_nonneg _ h

theorem testBit_placed_le {mask : Int} {v i : Nat} (h : (placed mask v).testBit i = true) :
    mask.testBit i = true := by
  rw [placed, testBit_conj, Bool.and_eq_true] at h
  exact h.1

theorem testBit_placed_block {p w : Nat} (hw : 0 < w) (v i : Nat) :
    (placed (block p w) v).testBit i = (decide (p ≤ i ∧ i < p + w) && v.testBit (i - p)) := by
  rw [placed, testBit_conj, lowest_block hw, Int.toNat_natCast, testBit_shiftLeft, testBit_block]
  by_cases hi : p ≤ i <;> simp [hi]

section Words

variable {α : Type} {mask : α → Int} {xs : List α}

/-- A word is put together from bits of the masks. -/
theorem conj_union_compl (hpos : ∀ x ∈ xs, 0 ≤ mask x) (v : α → Nat) :
    conj (union (xs.map fun x => placed (mask x) (v x))) (compl (union (xs.map mask))) = 0 := by
  have hword : 0 ≤ union (xs.map fun x => placed (mask x) (v x)) :=
    union_nonneg (List.forall_mem_map.mpr fun x hx => placed_nonneg (hpos x hx) (v x))
  refine eq_of_testBit_eq ?_ le_rfl fun i => ?_
  · rw [conj_comm]
    exact conj_nonneg _ hword
  · have hzero : (0 : Int).testBit i = false := Nat.zero_testBit i
    rw [hzero, testBit_conj, testBit_compl, Bool.and_eq_false_imp, Bool.not_eq_false',
      testBit_union, testBit_union, List.any_map, List.any_map, List.any_eq_true, List.any_eq_true]
    rintro ⟨x, hx, hbit⟩
    exact ⟨x, hx, testBit_placed_le hbit⟩

/-- **What was put into a block is read from it,** whatever was put into the other ones. -/
theorem conj_shiftRight_union (hdisjoint : xs.Pairwise fun x y => conj (mask x) (mask y) = 0)
    (v : α → Nat) {x : α} (hx : x ∈ xs) {p w : Nat} (hw : 0 < w) (hmask : mask x = block p w) :
    conj (union (xs.map fun x => placed (mask x) (v x)) >>> p) (ones w) = (v x % 2 ^ w : Nat) := by
  have hones : 0 ≤ ones w := by
    rw [ones_eq]
    exact Int.natCast_nonneg _
  refine eq_of_testBit_eq (conj_nonneg _ hones) (Int.natCast_nonneg _) fun i => ?_
  rw [testBit_conj, testBit_ones, testBit_shiftRight, testBit_natCast, Nat.testBit_mod_two_pow,
    Bool.and_comm]
  by_cases hi : i < w
  · have hinside : (mask x).testBit (p + i) = true := by
      rw [hmask, testBit_block, decide_eq_true_eq]
      omega
    have hplaced : (placed (mask x) (v x)).testBit (p + i) = (v x).testBit i := by
      have hi' : p ≤ p + i ∧ p + i < p + w := by omega
      rw [hmask, testBit_placed_block hw, decide_eq_true hi', Bool.true_and,
        Nat.add_sub_cancel_left]
    rw [decide_eq_true hi, Bool.true_and, Bool.true_and, testBit_union, List.any_map,
      Bool.eq_iff_iff, List.any_eq_true]
    constructor
    · -- a bit in the block of `x` comes from no other mask
      rintro ⟨y, hy, hbit⟩
      have hxy := eq_of_testBit_mask hdisjoint hx hy hinside (testBit_placed_le hbit)
      subst hxy
      exact hplaced ▸ hbit
    · intro hbit
      exact ⟨x, hx, hplaced.trans hbit⟩
  · rw [decide_eq_false hi, Bool.false_and, Bool.false_and]

end Words

end ChipSupport.Bits
