import ChipSupport.Mode
import Mathlib

/-!
# Merging of modes

Modes with the same members are merged one into another.  Every mode is represented by one that is
left, and what is left has a start of its old name.

## Main definitions

* `IsStart` — what is left of a name: all of it, or a part of it from its start on.

## Main results

* `prefix_sharedStart_iff` — the shared start is the longest start of both lists.
* `absorb_cons_cases` — what happens to one more mode.
* `absorb_name_iff` — when a mode keeps its name.
* `commonStart_default_iff` — the names that leave the default mode its name.
* `exists_of_mem_coalesce`, `exists_isStart_mem_coalesce` — what is left comes from the modes that
  were there and represents all of them.
* `coalesce_of_apart` — when nothing is merged.
-/

namespace ChipSupport.Mode

/-! ### Common starts -/

/-- **The shared start is the longest start of both lists.** -/
theorem prefix_sharedStart_iff {s a b : List Char} : s <+: sharedStart a b ↔ s <+: a ∧ s <+: b := by
  induction s generalizing a b with
  | nil => simp
  | cons c s ih =>
    cases a with
    | nil => simp [sharedStart]
    | cons x a =>
      cases b with
      | nil => simp [sharedStart]
      | cons y b =>
        rw [sharedStart]
        split
        next heq =>
          subst heq
          rw [List.cons_prefix_cons, List.cons_prefix_cons, List.cons_prefix_cons, ih]
          tauto
        next hne =>
          -- a start of both would begin with both characters
          rw [List.cons_prefix_cons, List.cons_prefix_cons, List.prefix_nil]
          constructor
          · intro h
            cases h
          · rintro ⟨⟨rfl, -⟩, rfl, -⟩
            exact absurd rfl hne

theorem sharedStart_prefix_left (a b : List Char) : sharedStart a b <+: a :=
  (prefix_sharedStart_iff.mp List.prefix_rfl).1

theorem sharedStart_prefix_right (a b : List Char) : sharedStart a b <+: b :=
  (prefix_sharedStart_iff.mp List.prefix_rfl).2

/-- A list is the shared start of itself and another one exactly if the other one continues it. -/
theorem sharedStart_eq_left_iff {a b : List Char} : sharedStart a b = a ↔ a <+: b := by
  constructor
  · intro h
    rw [← h]
    exact sharedStart_prefix_right a b
  · intro h
    have hleft := sharedStart_prefix_left a b
    have hright : a <+: sharedStart a b := prefix_sharedStart_iff.mpr ⟨List.prefix_rfl, h⟩
    exact hleft.eq_of_length (Nat.le_antisymm hleft.length_le hright.length_le)

theorem prefix_dropSeparator (s : List Char) : dropSeparator s <+: s := by
  unfold dropSeparator
  split
  · exact s.dropLast_prefix
  · exact List.prefix_rfl

theorem toList_commonStart (a b : String) :
    (commonStart a b).toList = dropSeparator (sharedStart a.toList b.toList) :=
  String.toList_ofList

theorem commonStart_prefix_left (a b : String) : (commonStart a b).toList <+: a.toList := by
  rw [toList_commonStart]
  exact (prefix_dropSeparator _).trans (sharedStart_prefix_left _ _)

theorem commonStart_prefix_right (a b : String) : (commonStart a b).toList <+: b.toList := by
  rw [toList_commonStart]
  exact (prefix_dropSeparator _).trans (sharedStart_prefix_right _ _)

/-- No start of the name of the default mode ends with a separator. -/
theorem dropSeparator_of_prefix_default {s : List Char} (h : s <+: default_.toList) :
    dropSeparator s = s := by
  have hall : ∀ s ∈ default_.toList.inits, dropSeparator s = s := by decide
  exact hall s ((List.mem_inits s _).mpr h)

/-- The common start with the default mode's name is that name or nothing exactly if a name that
begins like it goes on from all of it. -/
theorem commonStart_default_iff (name : String) :
    (commonStart default_ name = default_ ∨ commonStart default_ name = "")
      ↔ (['D'] <+: name.toList → default_.toList <+: name.toList) := by
  have hshared : (commonStart default_ name).toList
      = sharedStart default_.toList name.toList := by
    rw [toList_commonStart, dropSeparator_of_prefix_default (sharedStart_prefix_left _ _)]
  have hempty : sharedStart default_.toList name.toList = [] ↔ ¬ ['D'] <+: name.toList := by
    cases name.toList with
    | nil => simp [default_, sharedStart]
    | cons c cs =>
      by_cases hc : 'D' = c <;> simp [default_, sharedStart, hc, List.cons_prefix_cons]
  rw [← String.toList_inj, ← String.toList_inj, hshared, sharedStart_eq_left_iff,
    String.toList_empty, hempty, or_comm, ← imp_iff_not_or]

/-! ### What is left of a name -/

/-- What is left of a name: all of it, or a part of it from its start on that is not empty. -/
def IsStart (left name : String) : Prop := left = name ∨ left ≠ "" ∧ left.toList <+: name.toList

theorem IsStart.trans {a b c : String} (hab : IsStart a b) (hbc : IsStart b c) : IsStart a c := by
  rcases hab with rfl | ⟨hne, hprefix⟩
  · exact hbc
  · rcases hbc with rfl | ⟨-, hprefix'⟩
    · exact .inr ⟨hne, hprefix⟩
    · exact .inr ⟨hne, hprefix.trans hprefix'⟩

/-! ### A mode and the ones merged into it -/

variable {α : Type} (same : α → α → Bool)

theorem absorb_cons (mode : String) (members : α) (other : String × α)
    (rest : List (String × α)) :
    absorb same mode members (other :: rest)
      = if same members other.2
            && !(commonStart (absorb same mode members rest).1 other.1).isEmpty then
          (commonStart (absorb same mode members rest).1 other.1, (absorb same mode members rest).2)
        else ((absorb same mode members rest).1, other :: (absorb same mode members rest).2) := rfl

/-- One more mode that may be merged into a mode leaves it a start of its name. -/
theorem prefix_absorb_cons (mode : String) (members : α) (other : String × α)
    (rest : List (String × α)) :
    (absorb same mode members (other :: rest)).1.toList
      <+: (absorb same mode members rest).1.toList := by
  rw [absorb_cons]
  split
  · exact commonStart_prefix_left _ _
  · exact List.prefix_rfl

theorem prefix_absorb (mode : String) (members : α) (rest : List (String × α)) :
    (absorb same mode members rest).1.toList <+: mode.toList := by
  induction rest with
  | nil => exact List.prefix_rfl
  | cons other rest ih => exact (prefix_absorb_cons same mode members other rest).trans ih

theorem absorb_sublist (mode : String) (members : α) (rest : List (String × α)) :
    (absorb same mode members rest).2.Sublist rest := by
  induction rest with
  | nil => exact List.Sublist.refl []
  | cons other rest ih =>
    rw [absorb_cons]
    split
    · exact ih.cons other
    · exact ih.cons_cons other

/-- One more mode is merged, and then both names start with what is left, or it stays. -/
theorem absorb_cons_cases (mode : String) (members : α) (other : String × α)
    (rest : List (String × α)) :
    (same members other.2 = true ∧
      IsStart (absorb same mode members (other :: rest)).1 (absorb same mode members rest).1 ∧
      IsStart (absorb same mode members (other :: rest)).1 other.1 ∧
      (absorb same mode members (other :: rest)).2 = (absorb same mode members rest).2) ∨
    ((same members other.2 = true → commonStart (absorb same mode members rest).1 other.1 = "") ∧
      absorb same mode members (other :: rest)
        = ((absorb same mode members rest).1, other :: (absorb same mode members rest).2)) := by
  rw [absorb_cons]
  split
  next hmerge =>
    rw [Bool.and_eq_true, Bool.not_eq_true', String.isEmpty_eq_false_iff] at hmerge
    exact .inl ⟨hmerge.1, .inr ⟨hmerge.2, commonStart_prefix_left _ _⟩,
      .inr ⟨hmerge.2, commonStart_prefix_right _ _⟩, rfl⟩
  next hstay =>
    refine .inr ⟨?_, rfl⟩
    intro hsame
    simpa [hsame] using hstay

theorem isStart_absorb (mode : String) (members : α) (rest : List (String × α)) :
    IsStart (absorb same mode members rest).1 mode := by
  induction rest with
  | nil => exact .inl rfl
  | cons other rest ih =>
    rcases absorb_cons_cases same mode members other rest with ⟨-, hstart, -, -⟩ | ⟨-, hstay⟩
    · exact hstart.trans ih
    · rw [hstay]
      exact ih

/-- A mode that does not stay is merged: the members are the same, and a start of its name is
left. -/
theorem mem_absorb_or (mode : String) (members : α) {rest : List (String × α)} {e : String × α}
    (he : e ∈ rest) : e ∈ (absorb same mode members rest).2 ∨
      same members e.2 = true ∧ IsStart (absorb same mode members rest).1 e.1 := by
  induction rest with
  | nil => cases he
  | cons other rest ih =>
    rcases absorb_cons_cases same mode members other rest with
      ⟨hsame, hstart, hother, hrest⟩ | ⟨-, hstay⟩
    · rw [hrest]
      rcases List.mem_cons.mp he with rfl | he
      · exact .inr ⟨hsame, hother⟩
      · -- the name may have got shorter after `e` was merged
        exact (ih he).imp_right fun h => ⟨h.1, hstart.trans h.2⟩
    · rw [hstay]
      rcases List.mem_cons.mp he with rfl | he
      · exact .inl List.mem_cons_self
      · exact (ih he).imp_left (List.mem_cons_of_mem other)

/-- **A mode keeps its name exactly if its name and that of every mode with the same members have
all of it in common or nothing.** -/
theorem absorb_name_iff {same : α → α → Bool} {mode : String} {members : α}
    {rest : List (String × α)} :
    (absorb same mode members rest).1 = mode
      ↔ ∀ e ∈ rest, same members e.2 = true →
          commonStart mode e.1 = mode ∨ commonStart mode e.1 = "" := by
  induction rest with
  | nil => simp [absorb]
  | cons other rest ih =>
    rw [List.forall_mem_cons]
    by_cases hname : (absorb same mode members rest).1 = mode
    · rw [absorb_cons, hname, and_iff_left (ih.mp hname)]
      cases same members other.2 with
      | false => simp
      | true => by_cases hempty : commonStart mode other.1 = "" <;> simp [hempty]
    · -- a name that was cut is never restored
      constructor
      · intro h
        have hback := prefix_absorb_cons same mode members other rest
        have hcut := prefix_absorb same mode members rest
        rw [h] at hback
        have hlength := Nat.le_antisymm hcut.length_le hback.length_le
        exact absurd (String.toList_inj.mp (hcut.eq_of_length hlength)) hname
      · rintro ⟨-, hrest⟩
        exact absurd (ih.mpr hrest) hname

/-! ### All modes -/

@[simp] theorem coalesce_nil : coalesce same [] = [] := by rw [coalesce]

theorem coalesce_cons (mode : String) (members : α) (rest : List (String × α)) :
    coalesce same ((mode, members) :: rest)
      = ((absorb same mode members rest).1, members)
        :: coalesce same (absorb same mode members rest).2 := by
  rw [coalesce]

/-- Only the comparison of members counts for the mode that absorbs others. -/
theorem absorb_map {β : Type} {same : α → α → Bool} {same' : β → β → Bool} {g : α → β}
    (h : ∀ a b, same' (g a) (g b) = same a b) (mode : String) (members : α)
    (rest : List (String × α)) :
    absorb same' mode (g members) (rest.map fun e => (e.1, g e.2))
      = ((absorb same mode members rest).1,
        (absorb same mode members rest).2.map fun e => (e.1, g e.2)) := by
  induction rest with
  | nil => rfl
  | cons other rest ih =>
    rw [List.map_cons, absorb_cons, absorb_cons, ih, h]
    split <;> rfl

/-- Modes with other members merge in the same way if their members compare in the same way. -/
theorem coalesce_map {β : Type} {same : α → α → Bool} {same' : β → β → Bool} {g : α → β}
    (h : ∀ a b, same' (g a) (g b) = same a b) (modes : List (String × α)) :
    coalesce same' (modes.map fun e => (e.1, g e.2))
      = (coalesce same modes).map fun e => (e.1, g e.2) := by
  induction modes using coalesce.induct same with
  | case1 => rw [List.map_nil, coalesce_nil, coalesce_nil, List.map_nil]
  | case2 mode members rest merged ih =>
    rw [List.map_cons, coalesce_cons, coalesce_cons, absorb_map h, List.map_cons]
    exact congrArg (_ :: ·) ih

/-- What is left has the members of a mode that was there, and a start of its name. -/
theorem exists_of_mem_coalesce {same : α → α → Bool} {modes : List (String × α)} {e : String × α}
    (he : e ∈ coalesce same modes) : ∃ m ∈ modes, m.2 = e.2 ∧ e.1.toList <+: m.1.toList := by
  induction modes using coalesce.induct same with
  | case1 =>
    rw [coalesce_nil] at he
    cases he
  | case2 mode members rest merged ih =>
    rw [coalesce_cons] at he
    rcases List.mem_cons.mp he with rfl | he
    · exact ⟨(mode, members), List.mem_cons_self, rfl, prefix_absorb same mode members rest⟩
    · obtain ⟨m, hm, hmembers, hname⟩ := ih he
      have hrest := (absorb_sublist same mode members rest).subset hm
      exact ⟨m, List.mem_cons_of_mem _ hrest, hmembers, hname⟩

/-- **Every mode is represented by one that is left**, by a start of its name and by its members or
the same ones. -/
theorem exists_isStart_mem_coalesce {modes : List (String × α)} {m : String × α} (hm : m ∈ modes) :
    ∃ e ∈ coalesce same modes, IsStart e.1 m.1 ∧ (e.2 = m.2 ∨ same e.2 m.2 = true) := by
  induction modes using coalesce.induct same with
  | case1 => cases hm
  | case2 mode members rest merged ih =>
    rw [coalesce_cons]
    rcases List.mem_cons.mp hm with rfl | hm
    · exact ⟨_, List.mem_cons_self, isStart_absorb same mode members rest, .inl rfl⟩
    · rcases mem_absorb_or same mode members hm with hstays | ⟨hsame, hstart⟩
      · obtain ⟨e, he, hrepr⟩ := ih hstays
        exact ⟨e, List.mem_cons_of_mem _ he, hrepr⟩
      · exact ⟨_, List.mem_cons_self, hstart, .inr hsame⟩

theorem exists_mem_coalesce {same : α → α → Bool} (hrefl : ∀ members, same members members = true)
    {modes : List (String × α)} {m : String × α} (hm : m ∈ modes) :
    ∃ e ∈ coalesce same modes, same e.2 m.2 = true := by
  obtain ⟨e, he, -, hmembers⟩ := exists_isStart_mem_coalesce same hm
  refine ⟨e, he, ?_⟩
  rcases hmembers with heq | hsame
  · rw [heq]
    exact hrefl m.2
  · exact hsame

/-- A mode that has nothing in common with those of the same members absorbs none of them. -/
theorem absorb_of_apart {mode : String} {members : α} {rest : List (String × α)}
    (h : ∀ e ∈ rest, same members e.2 = true → commonStart mode e.1 = "") :
    absorb same mode members rest = (mode, rest) := by
  induction rest with
  | nil => rfl
  | cons other rest ih =>
    rw [List.forall_mem_cons] at h
    rw [absorb_cons, ih h.2]
    cases hsame : same members other.2 with
    | false => rfl
    | true => simp [h.1 hsame]

/-- Modes stay as they are if those with the same members have nothing of their names in common. -/
theorem coalesce_of_apart {modes : List (String × α)}
    (h : modes.Pairwise fun a b => same a.2 b.2 = true → commonStart a.1 b.1 = "") :
    coalesce same modes = modes := by
  induction modes with
  | nil => exact coalesce_nil same
  | cons mode rest ih =>
    rw [List.pairwise_cons] at h
    rw [coalesce_cons, absorb_of_apart same h.1, ih h.2]

end ChipSupport.Mode
