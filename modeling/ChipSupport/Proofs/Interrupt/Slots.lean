import ChipSupport.Device.Interrupt
import ChipSupport.Proofs.Sorting

/-!
# Slots of the vector table

The processor finds a handler by the place of its slot, counted from the first one.  The slots are
laid out in the order of their numbers, with a slot for every number that no vector has, so that
places and numbers go along with each other as long as no number returns.

## Main definitions

* `InterruptList.InPlace` — every slot is at the place of its number.

## Main results

* `numbers_vectorSlotsFrom` — vectors in strictly ascending order fill a block of numbers.
* `InterruptList.inPlace_iff` — **all slots are in place exactly if no vector number repeats.**
-/

namespace ChipSupport

/-! ### Blocks of numbers -/

theorem getElem?_numbersBetween (first last : Int) (k : Nat) :
    (numbersBetween first last)[k]?
      = if k < (last - first).toNat then some (first + k) else none := by
  rw [numbersBetween, List.getElem?_map]
  split
  · next h => rw [List.getElem?_range h, Option.map_some]
  · next h => rw [List.getElem?_eq_none (by rwa [List.length_range, ← Nat.not_lt]), Option.map_none]

theorem numbersBetween_cons {first last : Int} (h : first < last) :
    numbersBetween first last = first :: numbersBetween (first + 1) last := by
  apply List.ext_getElem?
  rintro (_ | k)
  · rw [getElem?_numbersBetween, if_pos (by omega), List.getElem?_cons_zero]
    simp
  · rw [List.getElem?_cons_succ, getElem?_numbersBetween, getElem?_numbersBetween]
    have hlength : k + 1 < (last - first).toNat ↔ k < (last - (first + 1)).toNat := by omega
    rw [if_congr hlength rfl rfl]
    congr 2
    push_cast
    ring

theorem numbersBetween_append {first middle last : Int} (hfirst : first ≤ middle)
    (hlast : middle ≤ last) :
    numbersBetween first middle ++ numbersBetween middle last = numbersBetween first last := by
  -- by recursion on the numbers in front of the middle one
  obtain ⟨n, hn⟩ := Int.eq_ofNat_of_zero_le (Int.sub_nonneg_of_le hfirst)
  induction n generalizing first with
  | zero =>
    have hempty : numbersBetween first middle = [] := by rw [numbersBetween, hn]; rfl
    rw [hempty, List.nil_append, show middle = first by omega]
  | succ n ih =>
    rw [numbersBetween_cons (show first < middle by omega),
      numbersBetween_cons (show first < last by omega), List.cons_append,
      ih (by omega) (by omega)]

/-! ### Numbers of slots -/

theorem map_number_reserved (numbers : List Int) :
    (numbers.map VectorSlot.reserved).map VectorSlot.number = numbers := by
  rw [List.map_map]
  exact List.map_id numbers

/-- Vectors in strictly ascending order from a number on fill a block of numbers. -/
theorem numbers_vectorSlotsFrom {next : Int} {vs : List Interrupt}
    (hnext : ∀ v ∈ vs, next ≤ v.number) (hvs : vs.Pairwise fun v w => v.number < w.number) :
    ∃ last, next ≤ last ∧
      (vectorSlotsFrom next vs).map VectorSlot.number = numbersBetween next last := by
  induction vs generalizing next with
  | nil => exact ⟨next, le_refl _, by rw [vectorSlotsFrom, numbersBetween, Int.sub_self]; rfl⟩
  | cons v vs ih =>
    rw [List.forall_mem_cons] at hnext
    obtain ⟨hbehind, hrest⟩ := List.pairwise_cons.mp hvs
    obtain ⟨last, hlast, hnumbers⟩ := ih (fun w hw => Int.add_one_le_of_lt (hbehind w hw)) hrest
    refine ⟨last, by omega, ?_⟩
    rw [vectorSlotsFrom, List.map_append, map_number_reserved, List.map_cons, hnumbers]
    change numbersBetween next v.number ++ v.number :: numbersBetween (v.number + 1) last = _
    rw [← numbersBetween_cons (by omega), numbersBetween_append hnext.1 (by omega)]

/-- The vectors are among the slots, in their order. -/
theorem sublist_vectorSlotsFrom (next : Int) (vs : List Interrupt) :
    (vs.map VectorSlot.handler).Sublist (vectorSlotsFrom next vs) := by
  induction vs generalizing next with
  | nil => exact List.Sublist.refl _
  | cons v vs ih =>
    rw [List.map_cons, vectorSlotsFrom]
    exact ((ih _).cons_cons _).trans (List.sublist_append_right _ _)

theorem sublist_vectorSlots (vs : List Interrupt) :
    (vs.map VectorSlot.handler).Sublist (vectorSlots vs) := by
  cases vs with
  | nil => exact List.Sublist.refl _
  | cons v vs => exact (sublist_vectorSlotsFrom _ vs).cons_cons _

namespace InterruptList

/-! ### Vectors in the order of their numbers -/

theorem perm_sortedVectors (l : InterruptList) : l.sortedVectors.Perm l.vectors :=
  List.mergeSort_perm _ _

theorem pairwise_sortedVectors (l : InterruptList) :
    l.sortedVectors.Pairwise fun v w => v.number ≤ w.number :=
  Sorting.pairwise_mergeSort Interrupt.number l.vectors

theorem numbers_nodup_iff (l : InterruptList) :
    (l.sortedVectors.map Interrupt.number).Nodup ↔ (l.vectors.map Interrupt.number).Nodup :=
  (l.perm_sortedVectors.map _).nodup_iff

/-- Vectors of different numbers stand in strictly ascending order. -/
theorem pairwise_lt_sortedVectors {l : InterruptList}
    (h : (l.vectors.map Interrupt.number).Nodup) :
    l.sortedVectors.Pairwise fun v w => v.number < w.number := by
  rw [← numbers_nodup_iff, List.Nodup, List.pairwise_map] at h
  exact (l.pairwise_sortedVectors.and h).imp fun hvw => lt_of_le_of_ne hvw.1 hvw.2

/-! ### Places of slots -/

/-- Every slot of the vector table is as far from the first one as its number is from the smallest
number of a vector. -/
def InPlace (l : InterruptList) : Prop :=
  ∀ first, IsLeast {n | ∃ v ∈ l.vectors, v.number = n} first →
    ∀ (k : Nat) (slot : VectorSlot), (vectorSlots l.sortedVectors)[k]? = some slot →
      slot.number = first + k

/-- The first of the vectors in order has the smallest number. -/
theorem isLeast_of_sortedVectors {l : InterruptList} {v : Interrupt} {vs : List Interrupt}
    (h : l.sortedVectors = v :: vs) : IsLeast {n | ∃ v ∈ l.vectors, v.number = n} v.number := by
  have hmem : ∀ w, w ∈ l.vectors ↔ w ∈ v :: vs := fun w => by rw [← h, l.perm_sortedVectors.mem_iff]
  have hsorted := l.pairwise_sortedVectors
  rw [h, List.pairwise_cons] at hsorted
  refine ⟨⟨v, (hmem v).mpr List.mem_cons_self, rfl⟩, ?_⟩
  rintro n ⟨w, hw, rfl⟩
  rcases List.mem_cons.mp ((hmem w).mp hw) with rfl | hw
  · exact le_refl _
  · exact hsorted.1 w hw

theorem inPlace_of_nodup {l : InterruptList} (h : (l.vectors.map Interrupt.number).Nodup) :
    l.InPlace := by
  intro first hfirst k slot hslot
  have hascending := pairwise_lt_sortedVectors h
  cases hsorted : l.sortedVectors with
  | nil =>
    rw [hsorted] at hslot
    cases hslot
  | cons v vs =>
    rw [hsorted] at hslot hascending
    obtain ⟨hbehind, hrest⟩ := List.pairwise_cons.mp hascending
    obtain ⟨last, hlast, hnumbers⟩ :=
      numbers_vectorSlotsFrom (fun w hw => Int.add_one_le_of_lt (hbehind w hw)) hrest
    have hall : (vectorSlots (v :: vs)).map VectorSlot.number = numbersBetween v.number last := by
      rw [vectorSlots, List.map_cons, hnumbers, numbersBetween_cons (show v.number < last by omega)]
      rfl
    have hnumber : (numbersBetween v.number last)[k]? = some slot.number := by
      rw [← hall, List.getElem?_map, hslot, Option.map_some]
    rw [getElem?_numbersBetween] at hnumber
    split at hnumber
    · rw [hfirst.unique (isLeast_of_sortedVectors hsorted), Option.some.inj hnumber]
    · cases hnumber

theorem nodup_of_inPlace {l : InterruptList} (h : l.InPlace) :
    (l.vectors.map Interrupt.number).Nodup := by
  rw [← numbers_nodup_iff]
  cases hsorted : l.sortedVectors with
  | nil => exact List.nodup_nil
  | cons v vs =>
    have hplace := h v.number (isLeast_of_sortedVectors hsorted)
    rw [hsorted] at hplace
    -- places are different, and so are the numbers that go along with them
    have hslots : ((vectorSlots (v :: vs)).map VectorSlot.number).Nodup := by
      rw [List.nodup_iff_getElem?_ne_getElem?]
      intro i j hij hj hsame
      rw [List.length_map] at hj
      rw [List.getElem?_map, List.getElem?_map, List.getElem?_eq_getElem (hij.trans hj),
        List.getElem?_eq_getElem hj, Option.map_some, Option.map_some, Option.some.injEq,
        hplace i _ (List.getElem?_eq_getElem _), hplace j _ (List.getElem?_eq_getElem _)] at hsame
      omega
    have hvectors := hslots.sublist ((sublist_vectorSlots (v :: vs)).map VectorSlot.number)
    rwa [List.map_map] at hvectors

/-- **All slots of the vector table are in place exactly if no vector number repeats.**  A number
that returns pushes every later slot away from its place. -/
theorem inPlace_iff (l : InterruptList) :
    l.InPlace ↔ (l.vectors.map Interrupt.number).Nodup :=
  ⟨nodup_of_inPlace, inPlace_of_nodup⟩

/-- Two system controllers that share a number, and a serial port. -/
def sharedNumber : InterruptList :=
  { vectors := [{ number := 0, name := "PM" }, { number := 0, name := "SYSCTRL" },
      { number := 1, name := "SERCOM0" }] }

/-- The handler of the vector with number one stands two places behind the first one. -/
theorem sharedNumber_not_inPlace :
    IsLeast {n | ∃ v ∈ sharedNumber.vectors, v.number = n} 0 ∧
    (vectorSlots sharedNumber.sortedVectors)[2]?
      = some (.handler { number := 1, name := "SERCOM0" }) ∧
    ¬ sharedNumber.InPlace := by
  have hsorted : sharedNumber.sortedVectors = sharedNumber.vectors :=
    List.mergeSort_of_pairwise (by decide)
  have hleast : IsLeast {n | ∃ v ∈ sharedNumber.vectors, v.number = n} 0 :=
    isLeast_of_sortedVectors hsorted
  have hslot : (vectorSlots sharedNumber.sortedVectors)[2]?
      = some (.handler { number := 1, name := "SERCOM0" }) := by
    rw [hsorted]
    rfl
  refine ⟨hleast, hslot, fun h => ?_⟩
  have hnumber := h 0 hleast 2 _ hslot
  revert hnumber
  decide

end InterruptList

end ChipSupport
