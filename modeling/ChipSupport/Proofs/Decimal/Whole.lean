import ChipSupport.Decimal.Shortest
import Mathlib

/-!
# Whole numbers among the numbers with a fraction

A number with a fraction is stored as a sign, an exponent and a mantissa.  Its magnitude is a
multiple of the smallest one, and no two pairs of exponent and mantissa have the same magnitude.
A whole number is therefore stored in one way only, except for zero, which has two signs.

## Main definitions

* `Decimal.scaled` — the magnitude in multiples of the smallest one.

## Main results

* `Decimal.scaled_inj` — exponent and mantissa are known from the magnitude.
* `Decimal.eq_or_eq_zero_of_integral?` — **a whole number is stored in one way, unless it is zero.**
* `Decimal.integral?_of_isZero`, `Decimal.isZero_of_integral?` — zero is stored in two ways.
-/

namespace ChipSupport.Decimal

/-! ### Magnitudes -/

/-- The magnitude that an exponent and a mantissa stand for, in multiples of the smallest one. -/
def scaled (biased low : Nat) : Nat :=
  if biased = 0 then low else (2 ^ 52 + low) * 2 ^ (biased - 1)

theorem scaled_lt {biased low : Nat} (h : low < 2 ^ 52) :
    scaled biased low < 2 ^ 52 * 2 ^ biased := by
  rw [scaled]
  split
  · next hzero =>
    rw [hzero, pow_zero, mul_one]
    exact h
  · next hbiased =>
    obtain ⟨k, rfl⟩ := Nat.exists_eq_succ_of_ne_zero hbiased
    rw [Nat.succ_eq_add_one, Nat.add_sub_cancel, pow_succ' 2 k, ← mul_assoc]
    exact Nat.mul_lt_mul_of_pos_right (by omega) (Nat.two_pow_pos k)

theorem le_scaled {biased low : Nat} (h : biased ≠ 0) :
    2 ^ 52 * 2 ^ (biased - 1) ≤ scaled biased low := by
  rw [scaled, if_neg h]
  exact Nat.mul_le_mul_right _ (Nat.le_add_right _ _)

/-- A larger exponent makes a larger magnitude, whatever the mantissas are. -/
theorem scaled_lt_scaled {biased biased' low low' : Nat} (hlow : low < 2 ^ 52)
    (h : biased < biased') : scaled biased low < scaled biased' low' := by
  calc scaled biased low < 2 ^ 52 * 2 ^ biased := scaled_lt hlow
    _ ≤ 2 ^ 52 * 2 ^ (biased' - 1) :=
      Nat.mul_le_mul_left _ (Nat.pow_le_pow_right (by decide) (by omega))
    _ ≤ scaled biased' low' := le_scaled (by omega)

/-- Exponent and mantissa are known from the magnitude. -/
theorem scaled_inj {biased biased' low low' : Nat} (hlow : low < 2 ^ 52) (hlow' : low' < 2 ^ 52)
    (h : scaled biased low = scaled biased' low') : biased = biased' ∧ low = low' := by
  rcases lt_trichotomy biased biased' with hlt | rfl | hgt
  · exact absurd h (scaled_lt_scaled hlow hlt).ne
  · refine ⟨rfl, ?_⟩
    rw [scaled, scaled] at h
    split at h
    · exact h
    · have hsum := Nat.eq_of_mul_eq_mul_right (Nat.two_pow_pos _) h
      omega
  · exact absurd h (scaled_lt_scaled hlow' hgt).ne'

/-! ### Whole numbers -/

/-- A number without a fraction in the parts that it is stored in. -/
theorem natAbs_of_parts {x : Float} {n : Int} {negative : Bool} {m : Nat} {e : Int}
    (hparts : Parts.ofFloat x = .finite negative m e) (he : -1074 ≤ e)
    (h : integral? x = some n) :
    n.natAbs * 2 ^ 1074 = m * 2 ^ (e + 1074).toNat ∧ (n ≠ 0 → (negative = true ↔ n < 0)) := by
  rw [integral?, hparts] at h
  dsimp only at h
  obtain ⟨_, hcast, rfl⟩ := Option.map_eq_some_iff.mp h
  obtain ⟨size, hsize, hcast⟩ := Option.bind_eq_some_iff.mp hcast
  cases hcast
  have habs : (if negative = true then -(size : Int) else size).natAbs = size := by
    split <;> simp
  refine ⟨?_, ?_⟩
  · rw [habs]
    split at hsize
    · next hwhole =>
      obtain ⟨k, rfl⟩ := Int.eq_ofNat_of_zero_le hwhole
      cases hsize
      rw [Int.toNat_natCast, Nat.pow_eq, mul_assoc, ← pow_add]
      rfl
    · next hneg =>
      split at hsize
      · next hdvd =>
        cases hsize
        -- the mantissa is a multiple of what the exponent divides by
        have hmul : m / Nat.pow 2 (-e).toNat * 2 ^ (-e).toNat = m :=
          Nat.div_mul_cancel (Nat.dvd_of_mod_eq_zero hdvd)
        have hexp : (1074 : Nat) = (-e).toNat + (e + 1074).toNat := by omega
        rw [hexp, pow_add, ← mul_assoc, hmul]
      · cases hsize
  · intro hne
    cases negative with
    | false => simp
    | true =>
      rw [if_pos rfl] at hne ⊢
      exact iff_of_true rfl (by omega)

/-- The bits of a whole number, and its magnitude. -/
theorem exists_of_integral? {x : Float} {n : Int} (h : integral? x = some n) :
    ∃ negative : Bool, ∃ biased low : Nat, low < 2 ^ 52 ∧
      x.toBits.toNat = (if negative then 2 ^ 63 else 0) + biased * 2 ^ 52 + low ∧
      n.natAbs * 2 ^ 1074 = scaled biased low ∧ (n ≠ 0 → (negative = true ↔ n < 0)) := by
  have hbits : x.toBits.toNat < 2 ^ 64 := x.toBits.toNat_lt
  generalize hb : x.toBits.toNat = bits at hbits ⊢
  have hparts : Parts.ofFloat x = Parts.ofFloat x := rfl
  conv_rhs at hparts => rw [Parts.ofFloat, hb]
  refine ⟨decide (Nat.pow 2 63 ≤ bits), bits / Nat.pow 2 52 % Nat.pow 2 11, bits % Nat.pow 2 52,
    Nat.mod_lt _ (by decide), ?_, ?_⟩
  · simp only [Nat.pow_eq, decide_eq_true_eq]
    split <;> omega
  · split at hparts
    · split at hparts
      · rw [integral?, hparts] at h
        cases h
      · rw [integral?, hparts] at h
        cases h
    · split at hparts
      · next hzero =>
        obtain ⟨hsize, hsign⟩ := natAbs_of_parts hparts (by omega) h
        refine ⟨?_, hsign⟩
        have hexp : (-1074 + 1074 : Int).toNat = 0 := rfl
        rw [hsize, scaled, if_pos hzero, hexp, pow_zero, mul_one]
      · next hbiased =>
        obtain ⟨hsize, hsign⟩ := natAbs_of_parts hparts (by omega) h
        refine ⟨?_, hsign⟩
        have hexp : ((bits / Nat.pow 2 52 % Nat.pow 2 11 : Nat) - 1075 + 1074 : Int).toNat
            = bits / Nat.pow 2 52 % Nat.pow 2 11 - 1 := by omega
        rw [hsize, scaled, if_neg hbiased, hexp]
        rfl

/-- The two ways in which zero is stored. -/
def IsZero (x : Float) : Prop := x = 0 ∨ x = -0

theorem integral?_of_isZero {x : Float} (h : IsZero x) : integral? x = some 0 := by
  rcases h with rfl | rfl
  · decide +kernel
  · decide +kernel

/-- Zero is stored with the smallest exponent and mantissa, and one of the two signs. -/
theorem isZero_of_integral? {x : Float} (h : integral? x = some 0) : IsZero x := by
  obtain ⟨negative, biased, low, hlow, hbits, hsize, -⟩ := exists_of_integral? h
  have hzero : scaled biased low = scaled 0 0 := by
    rw [← hsize, Int.natAbs_zero, Nat.zero_mul]
    rfl
  obtain ⟨rfl, rfl⟩ := scaled_inj hlow (by decide) hzero
  have hcode : (0 : Float).toBits.toNat = 0 := by decide +kernel
  have hcode' : (-0 : Float).toBits.toNat = 2 ^ 63 := by decide +kernel
  rw [IsZero, ← Float.toBits_inj, ← Float.toBits_inj, ← UInt64.toNat_inj, ← UInt64.toNat_inj, hcode,
    hcode', hbits]
  cases negative <;> simp

/-- **A whole number is stored in one way, unless it is zero.** -/
theorem eq_or_eq_zero_of_integral? {x y : Float} {n : Int} (hx : integral? x = some n)
    (hy : integral? y = some n) : x = y ∨ n = 0 := by
  by_cases hn : n = 0
  · exact .inr hn
  · refine .inl ?_
    obtain ⟨negative, biased, low, hlow, hbits, hsize, hsign⟩ := exists_of_integral? hx
    obtain ⟨negative', biased', low', hlow', hbits', hsize', hsign'⟩ := exists_of_integral? hy
    obtain ⟨rfl, rfl⟩ := scaled_inj hlow hlow' (hsize.symm.trans hsize')
    have hsame : negative = negative' := by
      rw [Bool.eq_iff_iff, hsign hn, hsign' hn]
    rw [← Float.toBits_inj, ← UInt64.toNat_inj, hbits, hbits', hsame]

end ChipSupport.Decimal
