import ChipSupport.Text.Blank
import ChipSupport.Text.Column

/-!
# Texts that are padded

A text is padded by spaces at its end.  To a column or a stop there is always at least one of them:
a text that does not end before the column is padded to the next stop, and one that ends at a stop
to the stop behind it.

## Main definitions

* `spacing` — a number of spaces.

## Main results

* `exists_padToStop_eq`, `exists_padTo_eq` — **a text that is padded ends with a space.**
-/

namespace ChipSupport.Text

/-- A number of spaces. -/
def spacing (k : Nat) : String := String.ofList (List.replicate k ' ')

@[simp] theorem toList_spacing_zero : (spacing 0).toList = [] := rfl

@[simp] theorem toList_spacing_succ (k : Nat) :
    (spacing (k + 1)).toList = ' ' :: (spacing k).toList := by
  rw [spacing, spacing, String.toList_ofList, String.toList_ofList, List.replicate_succ]

@[simp] theorem length_spacing (k : Nat) : (spacing k).length = k := by
  rw [spacing, String.length_ofList, List.length_replicate]

theorem eq_of_mem_spacing {k : Nat} {c : Char} (h : c ∈ (spacing k).toList) : c = ' ' := by
  rw [spacing, String.toList_ofList] at h
  exact List.eq_of_mem_replicate h

theorem isBlank_of_mem_spacing {k : Nat} : ∀ c ∈ (spacing k).toList, isBlank c = true := by
  intro c hc
  rw [eq_of_mem_spacing hc]
  decide

theorem fillTo_eq (s : String) (width : Int) :
    fillTo s width = s ++ spacing (width - s.length).toNat := rfl

/-- A text that is padded ends with a space, also if its length is a multiple of the stop. -/
theorem exists_padToStop_eq (s : String) (column : Int) {stop : Int} (hstop : 0 < stop) :
    ∃ k, 0 < k ∧ padToStop s column stop = s ++ spacing k := by
  have hfill {width : Int} (h : s.length < width) : ∃ k, 0 < k ∧ fillTo s width = s ++ spacing k :=
    ⟨_, by omega, fillTo_eq s width⟩
  rw [padToStop]
  split
  · next hshort => exact hfill hshort
  · -- the next stop lies behind the end of the text, even if the text ends at a stop
    rw [Int.fdiv_eq_ediv_of_nonneg _ (Int.le_of_lt hstop)]
    exact hfill (Int.lt_ediv_add_one_mul_self _ hstop)

theorem exists_padTo_eq (s : String) (column : Int) :
    ∃ k, 0 < k ∧ padTo s column = s ++ spacing k :=
  exists_padToStop_eq s column (by decide)

end ChipSupport.Text
