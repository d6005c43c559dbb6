import ChipSupport.Proofs.Layouts
import Mathlib

/-!
# Numerals read back

The characters of a number are the digits that a reader of digits takes them for, so that a number
that was written is read again, with zeros in front of it or without.

## Main definitions

* `Numeral.Reads` — characters that are read as digits.

## Main results

* `Numeral.readDigits_of_reads` — digits are read as the number that they spell.
* `Numeral.readDigits_hex`, `Numeral.readDigits_decimal` — **a number that was written is read.**
-/

namespace ChipSupport.Numeral

/-! ### Digits -/

theorem digits_ne_nil (base n : Nat) : digits base n ≠ [] := by
  fun_cases digits base n with
  | case1 h => exact List.append_ne_nil_of_right_ne_nil _ (List.cons_ne_nil _ _)
  | case2 h => exact List.cons_ne_nil _ _

/-- The first digit of a number in base ten. -/
theorem exists_digits_eq_cons (n : Nat) : ∃ d ds, digits 10 n = d :: ds ∧ d < 10 := by
  obtain ⟨d, ds, hds⟩ := List.exists_cons_of_ne_nil (digits_ne_nil 10 n)
  exact ⟨d, ds, hds, digits_lt (by decide) n d (by rw [hds]; exact List.mem_cons_self)⟩

theorem length_digits_le (base n : Nat) : (digits base n).length ≤ n + 1 := by
  fun_induction digits base n with
  | case1 n h ih =>
    have hquotient : n / base < n := Nat.div_lt_self (by omega) (by omega)
    rw [List.length_append, List.length_singleton]
    omega
  | case2 n h => rw [List.length_singleton]; omega

/-- A zero in front of digits does not count. -/
@[simp] theorem value_zero_cons (base : Nat) (ds : List Nat) :
    value base (0 :: ds) = value base ds := by
  rw [value, List.foldl_cons, Nat.zero_mul, Nat.zero_add, value]

/-- The digits of a number are below the base, also with zeros in front. -/
theorem lt_of_mem_replicate_append {base : Nat} (hlow : 2 ≤ base) {zeros n : Nat} :
    ∀ d ∈ List.replicate zeros 0 ++ digits base n, d < base := by
  intro d hd
  rcases List.mem_append.mp hd with hzero | hdigit
  · rw [List.eq_of_mem_replicate hzero]
    omega
  · exact digits_lt hlow n d hdigit

theorem value_replicate_zero_append (base k : Nat) (ds : List Nat) :
    value base (List.replicate k 0 ++ ds) = value base ds := by
  induction k with
  | zero => rfl
  | succ k ih => rw [List.replicate_succ, List.cons_append, value_zero_cons, ih]

theorem digitBelow_digitChar {base d : Nat} (hd : d < base) (hbase : base ≤ 16) :
    digitBelow base (digitChar d) = some d := by
  rw [digitBelow, digitValue_digitChar d (by omega), Option.filter_some, if_pos (decide_eq_true hd)]

/-- The characters of a digit are letters and digits of the common script. -/
theorem isAlphanum_digitChar : ∀ d < 16, (digitChar d).isAlphanum = true := by decide

/-! ### Reading -/

/-- A digit moves the value that was read up by one place. -/
theorem readOn_cons {base v : Nat} {c : Char} (hc : c ≠ '_') (rest : List Char) :
    readOn base v (c :: rest)
      = (digitBelow base c).bind fun k => readOn base (v * base + k) rest := by
  rw [readOn.eq_def]
  exact if_neg hc

/-- Characters that are read as the digits of a base. -/
def Reads (base : Nat) : List Char → List Nat → Prop :=
  List.Forall₂ fun c d => digitBelow base c = some d

theorem reads_map_digitChar {base : Nat} (hbase : base ≤ 16) {ds : List Nat}
    (hds : ∀ d ∈ ds, d < base) : Reads base (ds.map digitChar) ds := by
  rw [Reads, List.forall₂_map_left_iff, List.forall₂_same]
  exact fun d hd => digitBelow_digitChar (hds d hd) hbase

theorem ne_underscore_of_digitBelow {base d : Nat} {c : Char} (h : digitBelow base c = some d) :
    c ≠ '_' := by
  rintro rfl
  have hnone : digitValue '_' = none := by decide
  rw [digitBelow, hnone, Option.filter_none] at h
  cases h

theorem readOn_of_reads {base : Nat} {s : List Char} {ds : List Nat} (h : Reads base s ds)
    (v : Nat) : readOn base v s = some (ds.foldl (fun v d => v * base + d) v) := by
  induction h generalizing v with
  | nil => rfl
  | cons hc _ ih =>
    rw [readOn_cons (ne_underscore_of_digitBelow hc), hc, Option.bind_some, ih, List.foldl_cons]

/-- Digits are read as the number that they spell. -/
theorem readDigits_of_reads {base : Nat} {s : List Char} {ds : List Nat} (h : Reads base s ds)
    (hne : ds ≠ []) : readDigits base s = some (value base ds) := by
  cases h with
  | nil => exact absurd rfl hne
  | cons hc hrest =>
    rw [readDigits, hc, Option.bind_some, readOn_of_reads hrest, value, List.foldl_cons,
      Nat.zero_mul, Nat.zero_add]

/-! ### Numbers that were written -/

@[simp] theorem sign_natCast (n : Nat) : sign n = "" := if_neg (by omega)

theorem decimal_natCast (n : Nat) : decimal n = natural n := by
  rw [decimal, sign_natCast, String.empty_append, Int.natAbs_natCast]

/-- The digits in which a natural number is written in base sixteen. -/
def hexDigits (n width : Nat) : List Nat :=
  List.replicate (width - (digits 16 n).length) 0 ++ digits 16 n

theorem hexDigits_lt (n width : Nat) : ∀ d ∈ hexDigits n width, d < 16 :=
  lt_of_mem_replicate_append (by decide)

theorem toList_hex_natCast (n width : Nat) :
    (hex n width).toList = (hexDigits n width).map digitChar := by
  have hzero : digitChar 0 = '0' := rfl
  simp only [hex, sign_natCast, String.length_empty, Nat.zero_add, String.toList_append,
    String.toList_empty, List.nil_append, fill, String.toList_ofList, List.length_map,
    Int.natAbs_natCast, hexDigits, List.map_append, List.map_replicate, hzero]

theorem toList_natural (n : Nat) : (natural n).toList = (digits 10 n).map digitChar :=
  String.toList_ofList

theorem toList_decimal_natCast (n : Nat) :
    (decimal n).toList = (digits 10 n).map digitChar := by
  rw [decimal_natCast, toList_natural]

/-- A number in base sixteen is read, whatever the width to which it is filled with zeros. -/
theorem readDigits_hex (n width : Nat) : readDigits 16 (hex n width).toList = some n := by
  have hne : hexDigits n width ≠ [] :=
    List.append_ne_nil_of_right_ne_nil _ (digits_ne_nil 16 n)
  have hreads := reads_map_digitChar le_rfl (hexDigits_lt n width)
  rw [toList_hex_natCast, readDigits_of_reads hreads hne, hexDigits, value_replicate_zero_append,
    value_digits]

/-- A natural number is known from its digits in base sixteen. -/
theorem hex_natCast_injective {m n : Nat} (h : hex m = hex n) : m = n := by
  have hm := readDigits_hex m 0
  rw [h, readDigits_hex] at hm
  exact (Option.some.inj hm).symm

/-- A number in base ten is read. -/
theorem readDigits_natural (n : Nat) : readDigits 10 (natural n).toList = some n := by
  have hlt : ∀ d ∈ digits 10 n, d < 10 := digits_lt (by decide) n
  have hreads := reads_map_digitChar (by decide) hlt
  rw [toList_natural, readDigits_of_reads hreads (digits_ne_nil 10 n), value_digits]

theorem readDigits_decimal (n : Nat) : readDigits 10 (decimal n).toList = some n := by
  rw [decimal_natCast, readDigits_natural]

/-- A natural number is known from its digits in base ten. -/
theorem natural_injective : Function.Injective natural := by
  intro m n h
  have hm := readDigits_natural m
  rw [h, readDigits_natural] at hm
  exact (Option.some.inj hm).symm

/-- The characters of a number make one word. -/
theorem isAlphanum_of_mem_hex {n width : Nat} {c : Char} (hc : c ∈ (hex n width).toList) :
    c.isAlphanum = true := by
  rw [toList_hex_natCast] at hc
  obtain ⟨d, hd, rfl⟩ := List.mem_map.mp hc
  exact isAlphanum_digitChar d (hexDigits_lt n width d hd)

/-- A property of the digits in base ten holds of the characters of a number. -/
theorem forall_mem_natural {P : Char → Prop} (hP : ∀ d < 10, P (digitChar d)) (n : Nat) :
    ∀ c ∈ (natural n).toList, P c := by
  rw [toList_natural]
  exact List.forall_mem_map.mpr fun d hd => hP d (digits_lt (by decide) n d hd)

theorem isAlphanum_of_mem_natural {n : Nat} : ∀ c ∈ (natural n).toList, c.isAlphanum = true :=
  forall_mem_natural (fun d hd => isAlphanum_digitChar d (by omega)) n

theorem isAlphanum_of_mem_decimal {n : Nat} {c : Char} (hc : c ∈ (decimal n).toList) :
    c.isAlphanum = true := by
  rw [decimal_natCast] at hc
  exact isAlphanum_of_mem_natural c hc

end ChipSupport.Numeral
