import ChipSupport.Proofs.Interrupt.Slots
import ChipSupport.Proofs.Text.Numeral

/-!
# Completeness of the vector table

The vector table is laid out in one walk over the sorted vectors.  In front of each vector the walk
reserves the numbers from the one that it expects next, which is the successor of the vector before.
Vectors may share a number, so that the walk may meet a number that is one less than the expected
one; it then reserves nothing.

## Main definitions

* `VectorSlot.reserved?`, `reservedNumbers` — the numbers that have no vector.
* `InterruptList.LeftOut` — a number between those of vectors that no vector has.

## Main results

* `mem_reservedNumbers_vectorSlotsFrom` — what the walk reserves from a number on.
* `VectorSlot.memberName_reserved_inj` — reserved slots have names of their own.
* `InterruptList.slots_complete` — **the vector table holds every vector, and reserves exactly the
  numbers that are left out.**
-/

namespace ChipSupport

/-! ### Numbers between others -/

theorem mem_numbersBetween {first last n : Int} :
    n ∈ numbersBetween first last ↔ first ≤ n ∧ n < last := by
  simp only [numbersBetween, List.mem_map, List.mem_range]
  constructor
  · rintro ⟨k, hk, rfl⟩
    omega
  · rintro ⟨hfirst, hlast⟩
    exact ⟨(n - first).toNat, by omega, by omega⟩

theorem pairwise_numbersBetween (first last : Int) :
    (numbersBetween first last).Pairwise (· < ·) := by
  rw [numbersBetween, List.pairwise_map]
  refine List.pairwise_lt_range.imp ?_
  intro j k hjk
  omega

/-! ### Reserved slots -/

/-- The number of a slot without a vector. -/
def VectorSlot.reserved? : VectorSlot → Option Int
  | .reserved n => some n
  | .handler _ => none

/-- The numbers of the slots without a vector. -/
def reservedNumbers (slots : List VectorSlot) : List Int := slots.filterMap VectorSlot.reserved?

@[simp] theorem reservedNumbers_nil : reservedNumbers [] = [] := rfl

@[simp] theorem reservedNumbers_handler (v : Interrupt) (slots : List VectorSlot) :
    reservedNumbers (.handler v :: slots) = reservedNumbers slots := rfl

@[simp] theorem reservedNumbers_reserved_append (numbers : List Int) (slots : List VectorSlot) :
    reservedNumbers (numbers.map .reserved ++ slots) = numbers ++ reservedNumbers slots := by
  induction numbers with
  | nil => rfl
  | cons n rest ih =>
    have hn : VectorSlot.reserved? (.reserved n) = some n := rfl
    rw [List.map_cons, List.cons_append, reservedNumbers, List.filterMap_cons_some hn,
      ← reservedNumbers, ih, List.cons_append]

/-- The slots without a vector are known from their numbers. -/
theorem filter_isNone_vector? (slots : List VectorSlot) :
    slots.filter (fun s => s.vector?.isNone) = (reservedNumbers slots).map .reserved := by
  induction slots with
  | nil => rfl
  | cons s rest ih =>
    cases s with
    | reserved n =>
      have hn : VectorSlot.reserved? (.reserved n) = some n := rfl
      rw [List.filter_cons_of_pos rfl, ih, reservedNumbers, reservedNumbers,
        List.filterMap_cons_some hn, List.map_cons]
    | handler v => rw [List.filter_cons_of_neg Bool.false_ne_true, ih, reservedNumbers_handler]

/-- The name of a reserved slot tells its number.  Negative numbers are marked by a letter, which no
digit is. -/
theorem VectorSlot.memberName_reserved_inj {m n : Int}
    (h : memberName (.reserved m) = memberName (.reserved n)) : m = n := by
  have hmark (k l : Nat) :
      "pvReservedM" ++ Numeral.decimal k ≠ "pvReserved" ++ Numeral.decimal l := by
    intro hkl
    have hletter : "pvReservedM" = "pvReserved" ++ "M" := by decide +kernel
    rw [hletter, String.append_assoc, String.append_right_inj] at hkl
    have hmem : 'M' ∈ (Numeral.decimal (l : Int)).toList := by
      rw [← hkl]
      simp
    rcases Numeral.mem_decimal hmem with hsign | ⟨d, hd, hdigit⟩
    · cases hsign
    · have hdigits : ∀ d < 10, 'M' ≠ Numeral.digitChar d := by decide
      exact hdigits d hd hdigit
  simp only [memberName] at h
  by_cases hm : m < 0
  · obtain ⟨k, hk⟩ := Int.eq_ofNat_of_zero_le (show 0 ≤ -m by omega)
    by_cases hn : n < 0
    · obtain ⟨l, hl⟩ := Int.eq_ofNat_of_zero_le (show 0 ≤ -n by omega)
      rw [if_pos hm, if_pos hn, String.append_right_inj, hk, hl, Numeral.decimal_natCast,
        Numeral.decimal_natCast] at h
      have hkl := Numeral.natural_injective h
      omega
    · lift n to Nat using Int.not_lt.mp hn
      rw [if_pos hm, if_neg hn, hk] at h
      exact absurd h (hmark k n)
  · lift m to Nat using Int.not_lt.mp hm
    by_cases hn : n < 0
    · obtain ⟨l, hl⟩ := Int.eq_ofNat_of_zero_le (show 0 ≤ -n by omega)
      rw [if_neg hm, if_pos hn, hl] at h
      exact absurd h.symm (hmark l m)
    · lift n to Nat using Int.not_lt.mp hn
      rw [if_neg hm, if_neg hn, String.append_right_inj, Numeral.decimal_natCast,
        Numeral.decimal_natCast] at h
      rw [Numeral.natural_injective h]

/-! ### The walk -/

/-- The vectors of the slots are those of the walk. -/
theorem vectors_vectorSlotsFrom (next : Int) (vs : List Interrupt) :
    (vectorSlotsFrom next vs).filterMap VectorSlot.vector? = vs := by
  induction vs generalizing next with
  | nil => rfl
  | cons v rest ih =>
    have hreserved : ∀ numbers : List Int,
        (numbers.map VectorSlot.reserved).filterMap VectorSlot.vector? = [] := by
      intro numbers
      rw [List.filterMap_map, List.filterMap_eq_nil_iff]
      intro n _
      rfl
    have hhandler : VectorSlot.vector? (.handler v) = some v := rfl
    rw [vectorSlotsFrom, List.filterMap_append, hreserved, List.nil_append,
      List.filterMap_cons_some hhandler, ih]

/-- Behind a vector no number is more than one below the expected one. -/
theorem succ_le_of_pairwise {v : Interrupt} {rest : List Interrupt}
    (hvs : (v :: rest).Pairwise fun v w => v.number ≤ w.number) :
    ∀ w ∈ rest, v.number + 1 ≤ w.number + 1 := by
  intro w hw
  have := (List.pairwise_cons.mp hvs).1 w hw
  omega

/-- **The walk reserves the numbers from the expected one on, below the number of some vector, that
no vector has.**  The vectors ascend, and none of them is more than one below the expected number.
-/
theorem mem_reservedNumbers_vectorSlotsFrom {next n : Int} {vs : List Interrupt}
    (hnext : ∀ v ∈ vs, next ≤ v.number + 1) (hvs : vs.Pairwise fun v w => v.number ≤ w.number) :
    n ∈ reservedNumbers (vectorSlotsFrom next vs) ↔
      next ≤ n ∧ (∃ v ∈ vs, n < v.number) ∧ ∀ v ∈ vs, v.number ≠ n := by
  induction vs generalizing next with
  | nil => simp [vectorSlotsFrom]
  | cons v rest ih =>
    obtain ⟨hbehind, hrest⟩ := List.pairwise_cons.mp hvs
    have hv := hnext v List.mem_cons_self
    rw [vectorSlotsFrom, reservedNumbers_reserved_append, reservedNumbers_handler, List.mem_append,
      mem_numbersBetween, ih (succ_le_of_pairwise hvs) hrest]
    constructor
    · rintro (⟨hfirst, hlast⟩ | ⟨hfirst, ⟨w, hw, hlast⟩, hnone⟩)
      · -- in front of the vector, and so in front of all others
        refine ⟨hfirst, ⟨v, List.mem_cons_self, hlast⟩, ?_⟩
        intro w hw
        rcases List.mem_cons.mp hw with rfl | hw
        · omega
        · have := hbehind w hw
          omega
      · refine ⟨by omega, ⟨w, List.mem_cons_of_mem v hw, hlast⟩, ?_⟩
        rw [List.forall_mem_cons]
        exact ⟨by omega, hnone⟩
    · rintro ⟨hfirst, ⟨w, hw, hlast⟩, hnone⟩
      rw [List.forall_mem_cons] at hnone
      by_cases hn : n < v.number
      · exact .inl ⟨hfirst, hn⟩
      · right
        rcases List.mem_cons.mp hw with rfl | hw
        · exact absurd hlast hn
        · exact ⟨by omega, ⟨w, hw, hlast⟩, hnone.2⟩

/-- The walk reserves no number twice, in ascending order. -/
theorem pairwise_reservedNumbers_vectorSlotsFrom (next : Int) {vs : List Interrupt}
    (hvs : vs.Pairwise fun v w => v.number ≤ w.number) :
    (reservedNumbers (vectorSlotsFrom next vs)).Pairwise (· < ·) := by
  induction vs generalizing next with
  | nil => exact List.Pairwise.nil
  | cons v rest ih =>
    have hrest := (List.pairwise_cons.mp hvs).2
    rw [vectorSlotsFrom, reservedNumbers_reserved_append, reservedNumbers_handler,
      List.pairwise_append]
    refine ⟨pairwise_numbersBetween next v.number, ih _ hrest, ?_⟩
    intro m hm n hn
    have hlast := (mem_numbersBetween.mp hm).2
    have hfirst :=
      ((mem_reservedNumbers_vectorSlotsFrom (succ_le_of_pairwise hvs) hrest).mp hn).1
    omega

/-- The numbers of the slots do not descend, and none of them is more than one below the expected
number. -/
theorem pairwise_vectorSlotsFrom {next : Int} {vs : List Interrupt}
    (hnext : ∀ v ∈ vs, next ≤ v.number + 1) (hvs : vs.Pairwise fun v w => v.number ≤ w.number) :
    (∀ slot ∈ vectorSlotsFrom next vs, next ≤ slot.number + 1) ∧
      (vectorSlotsFrom next vs).Pairwise fun s t => s.number ≤ t.number := by
  induction vs generalizing next with
  | nil => exact ⟨fun slot hslot => absurd hslot List.not_mem_nil, List.Pairwise.nil⟩
  | cons v rest ih =>
    have hv := hnext v List.mem_cons_self
    obtain ⟨hlow, hpairwise⟩ := ih (succ_le_of_pairwise hvs) (List.pairwise_cons.mp hvs).2
    have hreserved : ∀ slot ∈ (numbersBetween next v.number).map VectorSlot.reserved,
        next ≤ slot.number ∧ slot.number < v.number := by
      intro slot hslot
      obtain ⟨n, hn, rfl⟩ := List.mem_map.mp hslot
      exact mem_numbersBetween.mp hn
    have htail : ∀ slot ∈ VectorSlot.handler v :: vectorSlotsFrom (v.number + 1) rest,
        v.number ≤ slot.number := by
      intro slot hslot
      rcases List.mem_cons.mp hslot with rfl | hslot
      · exact le_refl _
      · have := hlow slot hslot
        omega
    rw [vectorSlotsFrom]
    constructor
    · intro slot hslot
      rcases List.mem_append.mp hslot with hslot | hslot
      · have := (hreserved slot hslot).1
        omega
      · have := htail slot hslot
        omega
    · rw [List.pairwise_append, List.pairwise_map, List.pairwise_cons]
      refine ⟨(pairwise_numbersBetween _ _).imp fun hmn => le_of_lt hmn,
        ⟨fun slot hslot => htail slot (List.mem_cons_of_mem _ hslot), hpairwise⟩, ?_⟩
      intro s hs t ht
      have := (hreserved s hs).2
      have := htail t ht
      omega

/-- The table of sorted vectors is a walk that expects the smallest of their numbers. -/
theorem exists_vectorSlots_eq {vs : List Interrupt}
    (hvs : vs.Pairwise fun v w => v.number ≤ w.number) :
    ∃ next, vectorSlots vs = vectorSlotsFrom next vs ∧ (∀ v ∈ vs, next ≤ v.number) ∧
      (vs ≠ [] → ∃ v ∈ vs, v.number = next) := by
  cases vs with
  | nil => exact ⟨0, rfl, by simp, by simp⟩
  | cons v rest =>
    have hempty : numbersBetween v.number v.number = [] := by rw [numbersBetween, Int.sub_self]; rfl
    refine ⟨v.number, ?_, ?_, fun _ => ⟨v, List.mem_cons_self, rfl⟩⟩
    · rw [vectorSlotsFrom, hempty]
      rfl
    · rw [List.forall_mem_cons]
      exact ⟨le_refl _, (List.pairwise_cons.mp hvs).1⟩

/-! ### The vector table -/

namespace InterruptList

/-- A number between those of two vectors that no vector has. -/
def LeftOut (l : InterruptList) (n : Int) : Prop :=
  (∃ v ∈ l.vectors, v.number < n) ∧ (∃ v ∈ l.vectors, n < v.number) ∧
    ∀ v ∈ l.vectors, v.number ≠ n

/-- Vectors of one number stay in their order. -/
theorem filter_sortedVectors (l : InterruptList) (n : Int) :
    l.sortedVectors.filter (fun v => decide (v.number = n))
      = l.vectors.filter fun v => decide (v.number = n) :=
  Sorting.filter_mergeSort Interrupt.number n l.vectors

theorem mem_sortedVectors {l : InterruptList} {v : Interrupt} :
    v ∈ l.sortedVectors ↔ v ∈ l.vectors := l.perm_sortedVectors.mem_iff

/-- The reserved numbers of a table are those that are left out. -/
theorem mem_reservedNumbers_iff (l : InterruptList) (n : Int) :
    n ∈ reservedNumbers (vectorSlots l.sortedVectors) ↔ l.LeftOut n := by
  have hsorted := l.pairwise_sortedVectors
  obtain ⟨next, heq, hnext, hfirst⟩ := exists_vectorSlots_eq hsorted
  simp only [LeftOut, ← mem_sortedVectors]
  rw [heq, mem_reservedNumbers_vectorSlotsFrom (fun v hv => by have := hnext v hv; omega) hsorted]
  constructor
  · rintro ⟨hle, ⟨w, hw, hlast⟩, hnone⟩
    obtain ⟨v, hv, rfl⟩ := hfirst (List.ne_nil_of_mem hw)
    have hne := hnone v hv
    exact ⟨⟨v, hv, by omega⟩, ⟨w, hw, hlast⟩, hnone⟩
  · rintro ⟨⟨v, hv, hlt⟩, hlast, hnone⟩
    have hle := hnext v hv
    exact ⟨by omega, hlast, hnone⟩

/-- **The vector table holds every vector, and reserves exactly the numbers that are left out.**
Its vectors are all vectors, each once, in the order of their numbers, and those of one number stay
in their order.  Its reserved slots are the numbers between those of two vectors that no vector has,
each once, and have different names.  The numbers of all slots do not descend. -/
theorem slots_complete (l : InterruptList) :
    (vectorSlots l.sortedVectors).filterMap VectorSlot.vector? = l.sortedVectors ∧
    l.sortedVectors.Perm l.vectors ∧
    l.sortedVectors.Pairwise (fun v w => v.number ≤ w.number) ∧
    (∀ n, l.sortedVectors.filter (fun v => decide (v.number = n))
      = l.vectors.filter fun v => decide (v.number = n)) ∧
    (∀ n, n ∈ reservedNumbers (vectorSlots l.sortedVectors) ↔ l.LeftOut n) ∧
    (reservedNumbers (vectorSlots l.sortedVectors)).Pairwise (· < ·) ∧
    (vectorSlots l.sortedVectors).Pairwise (fun s t => s.number ≤ t.number) ∧
    (((vectorSlots l.sortedVectors).filter fun s => s.vector?.isNone).map
      VectorSlot.memberName).Nodup := by
  have hsorted := l.pairwise_sortedVectors
  obtain ⟨next, heq, hnext, -⟩ := exists_vectorSlots_eq hsorted
  have hvectors := vectors_vectorSlotsFrom next l.sortedVectors
  have hreserved := pairwise_reservedNumbers_vectorSlotsFrom next hsorted
  have hlow : ∀ v ∈ l.sortedVectors, next ≤ v.number + 1 := by
    intro v hv
    have := hnext v hv
    omega
  have hslots := (pairwise_vectorSlotsFrom hlow hsorted).2
  rw [← heq] at hvectors hreserved hslots
  refine ⟨hvectors, l.perm_sortedVectors, hsorted, l.filter_sortedVectors,
    l.mem_reservedNumbers_iff, hreserved, hslots, ?_⟩
  rw [filter_isNone_vector?, List.map_map]
  refine List.Nodup.map ?_ (hreserved.imp fun hmn => ne_of_lt hmn)
  intro m n hmn
  exact VectorSlot.memberName_reserved_inj hmn

/-- Three numbers are left out between those of an exception of the core and of four vectors. -/
example : reservedNumbers (vectorSlots [{ number := -1, name := "SysTick" },
    { number := 0, name := "PM" }, { number := 2, name := "RTC" }, { number := 2, name := "WDT" },
    { number := 5, name := "NVM" }]) = [1, 3, 4] := rfl

end InterruptList

end ChipSupport
