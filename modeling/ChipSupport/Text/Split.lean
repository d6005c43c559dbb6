/-!
# Splitting at a character

The pieces of a text between the places where a character stands.

## Main statements

* `Text.mark_not_mem_split` — no piece contains the character.
-/

namespace ChipSupport.Text

/-- The pieces of a text between the characters equal to `mark`, the first one after `piece`, which
is in reverse. -/
def splitFrom (mark : Char) (piece : List Char) : List Char → List (List Char)
  | [] => [piece.reverse]
  | c :: rest =>
    if c = mark then piece.reverse :: splitFrom mark [] rest else splitFrom mark (c :: piece) rest

/-- The pieces of a text between the characters equal to `mark`. -/
def split (mark : Char) (s : String) : List String :=
  (splitFrom mark [] s.toList).map String.ofList

theorem mark_not_mem_splitFrom {mark : Char} {piece s : List Char} (h : mark ∉ piece) :
    ∀ p ∈ splitFrom mark piece s, mark ∉ p := by
  induction s generalizing piece with
  | nil => simpa [splitFrom] using h
  | cons c rest ih =>
    unfold splitFrom
    split
    · intro p hp
      rcases List.mem_cons.1 hp with rfl | hp
      · simpa using h
      · exact ih (by simp) p hp
    · next hc => exact ih (by simp [h, Ne.symm hc])

theorem mark_not_mem_split (mark : Char) (s : String) : ∀ p ∈ split mark s, mark ∉ p.toList := by
  intro p hp
  obtain ⟨piece, hpiece, rfl⟩ := List.mem_map.1 hp
  rw [String.toList_ofList]
  exact mark_not_mem_splitFrom List.not_mem_nil piece hpiece

end ChipSupport.Text
