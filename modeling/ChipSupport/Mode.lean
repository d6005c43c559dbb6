import ChipSupport.Text.Lines

/-!
# Modes

A peripheral that can work in several ways has registers and fields that exist in some of its modes
only.  What belongs to no particular mode is listed under the mode `DEFAULT`; an empty mode name
means the same.  Modes whose members are equal are merged, and the merged mode is named by the
common start of their names.

## Main definitions

* `Mode.isDefault`, `Mode.commonStart` — mode names.
* `Mode.absorb`, `Mode.coalesce` — merging of modes with equal members.
-/

namespace ChipSupport.Mode

/-- The name under which everything stands that belongs to no particular mode. -/
def default_ : String := "DEFAULT"

/-- Whether a mode name means no particular mode. -/
def isDefault (mode : String) : Bool := mode == "" || mode == default_

/-- The longest common start of two lists of characters. -/
def sharedStart : List Char → List Char → List Char
  | a :: as, b :: bs => if a = b then a :: sharedStart as bs else []
  | _, _ => []

/-- A list of characters without an underscore at its end. -/
def dropSeparator (s : List Char) : List Char :=
  match s.getLast? with
  | some '_' => s.dropLast
  | _ => s

/-- The common start of two mode names, without a separator left over at its end. -/
def commonStart (a b : String) : String :=
  String.ofList (dropSeparator (sharedStart a.toList b.toList))

/-- Merges into a mode those of the following modes that have the same members and share a part of
its name, the last one first.  Returns the new name and the modes that stay. -/
def absorb {α : Type} (same : α → α → Bool) (mode : String) (members : α) :
    List (String × α) → String × List (String × α)
  | [] => (mode, [])
  | other :: rest =>
    let merged := absorb same mode members rest
    let common := commonStart merged.1 other.1
    if same members other.2 && !common.isEmpty then (common, merged.2)
    else (merged.1, other :: merged.2)

theorem length_absorb_le {α : Type} (same : α → α → Bool) (mode : String) (members : α)
    (rest : List (String × α)) : (absorb same mode members rest).2.length ≤ rest.length := by
  induction rest with
  | nil => simp [absorb]
  | cons other rest ih =>
    simp only [absorb]
    split
    · exact Nat.le_succ_of_le ih
    · exact Nat.succ_le_succ ih

/-- Merges modes with the same members, each into the first one that shares a part of its name. -/
def coalesce {α : Type} (same : α → α → Bool) : List (String × α) → List (String × α)
  | [] => []
  | (mode, members) :: rest =>
    let merged := absorb same mode members rest
    (merged.1, members) :: coalesce same merged.2
termination_by modes => modes.length
decreasing_by exact Nat.lt_succ_of_le (length_absorb_le same mode members rest)

end ChipSupport.Mode
