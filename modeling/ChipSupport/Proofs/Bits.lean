import ChipSupport.Bits
import Mathlib

/-!
# The bits of a mask

Every operation on masks is described by the bits of its result, and the lowest and the highest bit
of a mask by the bits that are not set below and above them.

## Main results

* `testBit_conj`, `testBit_disj` — the bits of an operation.
* `lowest_eq_iff`, `highest_eq_iff` — the bits that bound a mask.
* `lowest_disj`, `highest_disj` — the bounds of two masks one above the other.
* `highest_eq_lowest` — a mask of one bit begins where it ends.
-/

namespace ChipSupport.Bits

/-! ### Bits of the operations -/

@[simp] theorem testBit_conj (a b : Int) (k : Nat) :
    (conj a b).testBit k = (a.testBit k && b.testBit k) := by
  cases a <;> cases b <;> simp only [conj, Int.testBit, Int.ofNat_eq_natCast, Nat.testBit_and,
    Nat.testBit_or, Nat.testBit_xor] <;> grind

@[simp] theorem testBit_disj (a b : Int) (k : Nat) :
    (disj a b).testBit k = (a.testBit k || b.testBit k) := by
  cases a <;> cases b <;> simp only [disj, Int.testBit, Int.ofNat_eq_natCast, Nat.testBit_and,
    Nat.testBit_or, Nat.testBit_xor] <;> grind

@[simp] theorem testBit_natCast (n k : Nat) : (n : Int).testBit k = n.testBit k := rfl

/-- Masks without a common bit. -/
theorem testBit_of_conj_eq_zero {a b : Int} (h : conj a b = 0) {k : Nat} (ha : a.testBit k = true) :
    b.testBit k = false := by
  have hk : (conj a b).testBit k = false := by
    rw [h]
    exact Nat.zero_testBit k
  rw [testBit_conj, ha, Bool.true_and] at hk
  exact hk

theorem conj_comm (a b : Int) : conj a b = conj b a := by
  cases a <;> cases b <;> simp only [conj, Nat.and_comm, Nat.or_comm]

/-- Masks that have no bits in common have none in another order. -/
theorem pairwise_conj_of_perm {α : Type} {mask : α → Int} {xs ys : List α} (hperm : xs.Perm ys)
    (h : xs.Pairwise fun x y => conj (mask x) (mask y) = 0) :
    ys.Pairwise fun x y => conj (mask x) (mask y) = 0 := by
  refine (hperm.pairwise_iff ?_).mp h
  intro x y hxy
  rwa [conj_comm]

/-- Of masks that have no bits in common two different ones have none. -/
theorem conj_eq_zero_of_pairwise {α : Type} {mask : α → Int} {xs : List α}
    (h : xs.Pairwise fun x y => conj (mask x) (mask y) = 0) {x y : α} (hx : x ∈ xs) (hy : y ∈ xs)
    (hne : x ≠ y) : conj (mask x) (mask y) = 0 := by
  have : Std.Symm fun x y => conj (mask x) (mask y) = 0 := ⟨fun x y hxy => by rwa [conj_comm]⟩
  exact h.forall hx hy hne

theorem disj_pos {a b : Int} (ha : 0 < a) (hb : 0 < b) : 0 < disj a b := by
  lift a to Nat using Int.le_of_lt ha
  lift b to Nat using Int.le_of_lt hb
  have hle : a ≤ a ||| b := Nat.left_le_or
  have hdisj : disj (a : Int) b = ((a ||| b : Nat) : Int) := rfl
  rw [hdisj]
  omega

/-! ### The lowest bit -/

/-- Every positive number is a bit and something above that bit. -/
theorem exists_two_pow_mul_add {n : Nat} (hn : 0 < n) : ∃ t q, n = 2 ^ (t + 1) * q + 2 ^ t := by
  induction n using Nat.strongRecOn with
  | _ n ih =>
    rcases Nat.mod_two_eq_zero_or_one n with heven | hodd
    · obtain ⟨t, q, hq⟩ := ih (n / 2) (by omega) (by omega)
      refine ⟨t + 1, q, ?_⟩
      have hn2 : n = 2 * (n / 2) := by omega
      rw [hn2, hq]
      ring
    · exact ⟨0, n / 2, by rw [Nat.pow_zero]; omega⟩

/-- A number and its negative have the lowest bit in common and no other. -/
theorem conj_neg {t q : Nat} :
    conj ((2 ^ (t + 1) * q + 2 ^ t : Nat) : Int) (-((2 ^ (t + 1) * q + 2 ^ t : Nat) : Int))
      = ((2 ^ t : Nat) : Int) := by
  have hpos : 0 < 2 ^ t := Nat.two_pow_pos t
  have hlt : 2 ^ t < 2 ^ (t + 1) := Nat.pow_lt_pow_right (by decide) (by omega)
  have hpred : 2 ^ t - 1 < 2 ^ (t + 1) := by omega
  -- below bit `t` only the predecessor has bits, above it both numbers have the same
  have hneg : -((2 ^ (t + 1) * q + 2 ^ t : Nat) : Int)
      = Int.negSucc (2 ^ (t + 1) * q + (2 ^ t - 1)) := by
    rw [Int.negSucc_eq]
    omega
  rw [hneg]
  -- compare bit by bit, at `t` and on both sides of it
  refine congrArg Int.ofNat (Nat.eq_of_testBit_eq fun k => ?_)
  rw [Nat.testBit_xor, Nat.testBit_and, Nat.testBit_two_pow_mul_add _ hlt,
    Nat.testBit_two_pow_mul_add _ hpred, Nat.testBit_two_pow, Nat.testBit_two_pow_sub_one]
  by_cases hk : k < t + 1
  · rw [if_pos hk, if_pos hk]
    by_cases htk : t = k <;> simp [htk]
  · rw [if_neg hk, if_neg hk]
    have htk : t ≠ k := by omega
    simp [htk]

/-- The lowest bit of a mask is set, and no bit below it is. -/
theorem exists_lowest {m : Int} (hm : 0 < m) :
    ∃ t : Nat, lowest m = t ∧ m.testBit t = true ∧ ∀ k < t, m.testBit k = false := by
  lift m to Nat using Int.le_of_lt hm
  obtain ⟨t, q, rfl⟩ := exists_two_pow_mul_add (Int.natCast_pos.mp hm)
  have hlt : 2 ^ t < 2 ^ (t + 1) := Nat.pow_lt_pow_right (by decide) (by omega)
  have htwo : ((2 ^ t : Nat) : Int) ≠ 0 := by
    have := Nat.two_pow_pos t
    omega
  refine ⟨t, ?_, ?_, fun k hk => ?_⟩
  · rw [lowest, if_neg (by omega), conj_neg, bitLength, if_neg htwo, Int.natAbs_natCast,
      Nat.log2_two_pow]
    omega
  · rw [testBit_natCast, Nat.testBit_two_pow_mul_add _ hlt, if_pos (by omega),
      Nat.testBit_two_pow_self]
  · rw [testBit_natCast, Nat.testBit_two_pow_mul_add _ hlt, if_pos (by omega),
      Nat.testBit_two_pow_of_ne (by omega)]

/-- **The lowest bit of a mask is the set bit below which no bit is set.** -/
theorem lowest_eq_iff {m : Int} (hm : 0 < m) {t : Nat} :
    lowest m = t ↔ m.testBit t = true ∧ ∀ k < t, m.testBit k = false := by
  obtain ⟨s, hs, hset, hlow⟩ := exists_lowest hm
  constructor
  · intro h
    -- the bit of `exists_lowest` is the only one with this property
    have hst : s = t := by omega
    exact hst ▸ ⟨hset, hlow⟩
  · rintro ⟨ht, htlow⟩
    rcases Nat.lt_trichotomy s t with hlt | heq | hlt
    · rw [htlow s hlt] at hset
      cases hset
    · rw [hs, heq]
    · rw [hlow t hlt] at ht
      cases ht

/-! ### The highest bit -/

/-- The highest bit of a mask is set, and no bit above it is. -/
theorem exists_highest {m : Int} (hm : 0 < m) :
    ∃ t : Nat, highest m = t ∧ m.testBit t = true ∧ ∀ k > t, m.testBit k = false := by
  lift m to Nat using Int.le_of_lt hm
  have hm' : m ≠ 0 := by omega
  refine ⟨m.log2, ?_, Nat.testBit_log2 hm', fun k hk => ?_⟩
  · rw [highest, if_neg (by omega), bitLength, if_neg (by omega), Int.natAbs_natCast]
    omega
  · exact Nat.testBit_lt_two_pow ((Nat.log2_lt hm').mp hk)

/-- **The highest bit of a mask is the set bit above which no bit is set.** -/
theorem highest_eq_iff {m : Int} (hm : 0 < m) {t : Nat} :
    highest m = t ↔ m.testBit t = true ∧ ∀ k > t, m.testBit k = false := by
  obtain ⟨s, hs, hset, hhigh⟩ := exists_highest hm
  constructor
  · intro h
    have hst : s = t := by omega
    exact hst ▸ ⟨hset, hhigh⟩
  · rintro ⟨ht, hthigh⟩
    rcases Nat.lt_trichotomy s t with hlt | heq | hlt
    · rw [hhigh t hlt] at ht
      cases ht
    · rw [hs, heq]
    · rw [hthigh s hlt] at hset
      cases hset

theorem highest_lt {m : Int} {w : Nat} (hm : 0 < m) (hw : m < bit w) : highest m < w := by
  obtain ⟨t, ht, hset, -⟩ := exists_highest hm
  lift m to Nat using Int.le_of_lt hm
  have hle : 2 ^ t ≤ m := Nat.ge_two_pow_of_testBit hset
  have hlt : m < 2 ^ w := Int.ofNat_lt.mp hw
  have htw : t < w := (Nat.pow_lt_pow_iff_right (by decide)).mp (Nat.lt_of_le_of_lt hle hlt)
  omega

/-! ### The bounds of a mask -/

theorem lowest_nonneg {m : Int} (hm : 0 < m) : 0 ≤ lowest m := by
  obtain ⟨t, ht, -⟩ := exists_lowest hm
  omega

theorem lowest_le_highest {m : Int} (hm : 0 < m) : lowest m ≤ highest m := by
  obtain ⟨s, hs, -, hlow⟩ := exists_lowest hm
  obtain ⟨t, ht, hset, -⟩ := exists_highest hm
  rcases Nat.lt_or_ge t s with hlt | hle
  · rw [hlow t hlt] at hset
    cases hset
  · omega

/-- Masks without a common bit do not begin at the same bit. -/
theorem lowest_ne {a b : Int} (ha : 0 < a) (hb : 0 < b) (h : conj a b = 0) :
    lowest a ≠ lowest b := by
  obtain ⟨s, hs, hset, -⟩ := exists_lowest ha
  obtain ⟨t, ht, hset', -⟩ := exists_lowest hb
  intro heq
  have hst : s = t := by omega
  have hfalse := testBit_of_conj_eq_zero h (hst ▸ hset)
  rw [hset'] at hfalse
  cases hfalse

/-- A mask and one above it begin where the lower one begins. -/
theorem lowest_disj {a b : Int} (ha : 0 < a) (hb : 0 < b) (h : highest a < lowest b) :
    lowest (disj a b) = lowest a := by
  obtain ⟨s, hs, hset, hlow⟩ := exists_lowest ha
  obtain ⟨t, ht, -, hlow'⟩ := exists_lowest hb
  have hst := lowest_le_highest ha
  rw [hs, lowest_eq_iff (disj_pos ha hb)]
  refine ⟨by rw [testBit_disj, hset, Bool.true_or], fun k hk => ?_⟩
  rw [testBit_disj, hlow k hk, hlow' k (by omega), Bool.or_false]

/-- A mask and one above it end where the upper one ends. -/
theorem highest_disj {a b : Int} (ha : 0 < a) (hb : 0 < b) (h : highest a < lowest b) :
    highest (disj a b) = highest b := by
  obtain ⟨s, hs, -, hhigh⟩ := exists_highest ha
  obtain ⟨t, ht, hset, hhigh'⟩ := exists_highest hb
  have hst := lowest_le_highest hb
  rw [ht, highest_eq_iff (disj_pos ha hb)]
  refine ⟨by rw [testBit_disj, hset, Bool.or_true], fun k hk => ?_⟩
  rw [testBit_disj, hhigh k (by omega), hhigh' k hk, Bool.or_false]

/-! ### The number of bits -/

/-- The positions of a positive mask are its set bits. -/
theorem mem_positions {m : Int} (hm : 0 < m) {k : Nat} : k ∈ positions m ↔ m.testBit k = true := by
  lift m to Nat using Int.le_of_lt hm
  rw [positions, List.mem_filter, List.mem_range, Int.natAbs_natCast, testBit_natCast,
    and_iff_right_iff_imp]
  intro hk
  have hle : 2 ^ k ≤ m := Nat.ge_two_pow_of_testBit hk
  have hlog : k ≤ m.log2 := (Nat.le_log2 (by omega)).mpr hle
  rw [bitLength, if_neg (by omega), Int.natAbs_natCast]
  omega

/-- A mask of one bit begins where it ends. -/
theorem highest_eq_lowest {m : Int} (hm : 0 < m) (h : population m = 1) : highest m = lowest m := by
  obtain ⟨s, hs, hset, -⟩ := exists_lowest hm
  obtain ⟨t, ht, hset', -⟩ := exists_highest hm
  obtain ⟨k, hk⟩ := List.length_eq_one_iff.mp h
  rw [← mem_positions hm, hk, List.mem_singleton] at hset hset'
  omega

end ChipSupport.Bits
