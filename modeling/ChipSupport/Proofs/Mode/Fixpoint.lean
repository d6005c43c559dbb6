import ChipSupport.Proofs.Mode

/-!
# Merging once is enough

Merging goes through the modes once, while the names that it compares get shorter.  A shorter name
shares no more with another one than the longer name did.  Modes that were not merged therefore have
nothing left to merge, and merging them again changes nothing.

## Main results

* `commonStart_eq_empty_of_prefix` — shorter names with nothing in common.
* `absorb_apart`, `pairwise_apart_coalesce` — no two modes that are left can be merged.
* `coalesce_complete` — **merging loses no members, and merging again changes nothing.**
-/

namespace ChipSupport.Mode

/-! ### Shorter names -/

theorem sharedStart_mono {a a' b b' : List Char} (ha : a' <+: a) (hb : b' <+: b) :
    sharedStart a' b' <+: sharedStart a b := by
  have hleft := sharedStart_prefix_left a' b'
  have hright := sharedStart_prefix_right a' b'
  exact prefix_sharedStart_iff.mpr ⟨hleft.trans ha, hright.trans hb⟩

/-- Only a separator alone is dropped as a whole. -/
theorem dropSeparator_eq_nil_iff {s : List Char} : dropSeparator s = [] ↔ s <+: ['_'] := by
  cases s with
  | nil => simp [dropSeparator]
  | cons c s =>
    cases s with
    | nil => by_cases hc : c = '_' <;> simp [dropSeparator, hc]
    | cons d s =>
      have hne : dropSeparator (c :: d :: s) ≠ [] := by
        unfold dropSeparator
        split <;> simp
      simp [hne]

theorem commonStart_eq_empty_iff {a b : String} :
    commonStart a b = "" ↔ sharedStart a.toList b.toList <+: ['_'] := by
  rw [← String.toList_inj, toList_commonStart, String.toList_empty, dropSeparator_eq_nil_iff]

/-- Names that have nothing in common have nothing in common when they get shorter. -/
theorem commonStart_eq_empty_of_prefix {a a' b b' : String} (ha : a'.toList <+: a.toList)
    (hb : b'.toList <+: b.toList) (h : commonStart a b = "") : commonStart a' b' = "" := by
  rw [commonStart_eq_empty_iff] at h ⊢
  exact (sharedStart_mono ha hb).trans h

variable {α : Type} (same : α → α → Bool)

/-! ### One mode and those behind it -/

/-- **A mode has nothing to merge with those that stay behind it.** -/
theorem absorb_apart (mode : String) (members : α) {rest : List (String × α)} {e : String × α}
    (he : e ∈ (absorb same mode members rest).2) (hsame : same members e.2 = true) :
    commonStart (absorb same mode members rest).1 e.1 = "" := by
  induction rest with
  | nil => cases he
  | cons other rest ih =>
    have hprefix := prefix_absorb_cons same mode members other rest
    rcases absorb_cons_cases same mode members other rest with
      ⟨-, -, -, hrest⟩ | ⟨hnothing, hstay⟩
    · -- `e` was compared with a longer name
      rw [hrest] at he
      exact commonStart_eq_empty_of_prefix hprefix List.prefix_rfl (ih he)
    · rw [hstay] at he ⊢
      rcases List.mem_cons.mp he with rfl | he
      · exact hnothing hsame
      · exact ih he

/-! ### All modes -/

/-- **No two modes that are left can be merged.** -/
theorem pairwise_apart_coalesce (modes : List (String × α)) :
    (coalesce same modes).Pairwise fun a b => same a.2 b.2 = true → commonStart a.1 b.1 = "" := by
  induction modes using coalesce.induct same with
  | case1 =>
    rw [coalesce_nil]
    exact List.Pairwise.nil
  | case2 mode members rest merged ih =>
    rw [coalesce_cons, List.pairwise_cons]
    refine ⟨?_, ih⟩
    intro e he hsame
    -- `e` is what is left of a mode that stayed behind the first one
    obtain ⟨m, hm, hmembers, hprefix⟩ := exists_of_mem_coalesce he
    rw [← hmembers] at hsame
    exact commonStart_eq_empty_of_prefix List.prefix_rfl hprefix
      (absorb_apart same mode members hm hsame)

/-- The members that are left are some of those that were there, in their order. -/
theorem sublist_coalesce (modes : List (String × α)) :
    ((coalesce same modes).map Prod.snd).Sublist (modes.map Prod.snd) := by
  induction modes using coalesce.induct same with
  | case1 => rw [coalesce_nil]
  | case2 mode members rest merged ih =>
    rw [coalesce_cons, List.map_cons, List.map_cons]
    exact (ih.trans ((absorb_sublist same mode members rest).map Prod.snd)).cons_cons members

/-- **Merging loses no members, and merging again changes nothing**, whatever it is for members to
be the same.  The members that are left are some of those that were there, in their order.  Every
mode is represented by one of which the name is left as a whole or as a start that is not empty, and
which has its members or the same ones.  No two modes that are left have the same members and a
common start of their names. -/
theorem coalesce_complete (modes : List (String × α)) :
    ((coalesce same modes).map Prod.snd).Sublist (modes.map Prod.snd) ∧
    (∀ m ∈ modes, ∃ e ∈ coalesce same modes,
      (e.1 = m.1 ∨ e.1 ≠ "" ∧ e.1.toList <+: m.1.toList) ∧ (e.2 = m.2 ∨ same e.2 m.2 = true)) ∧
    (coalesce same modes).Pairwise
      (fun a b => ¬ (same a.2 b.2 = true ∧ commonStart a.1 b.1 ≠ "")) ∧
    coalesce same (coalesce same modes) = coalesce same modes := by
  have hapart := pairwise_apart_coalesce same modes
  refine ⟨sublist_coalesce same modes, fun m hm => exists_isStart_mem_coalesce same hm, ?_,
    coalesce_of_apart same hapart⟩
  refine hapart.imp ?_
  rintro a b h ⟨hsame, hne⟩
  exact hne (h hsame)

/-- Modes of a counter that are merged two by two, although all their names have a common start: the
relation holds between registers of the same size only. -/
theorem coalesce_complete_counter :
    let modes := [("COUNT8_UP", 8), ("COUNT16_UP", 16), ("COUNT8_DOWN", 8), ("COUNT16", 16)]
    coalesce (· == ·) modes = [("COUNT8", 8), ("COUNT16", 16)] ∧
    ("COUNT8_DOWN", 8) ∈ modes ∧
    (∃ e ∈ coalesce (· == ·) modes,
      (e.1 = "COUNT8_DOWN" ∨ e.1 ≠ "" ∧ e.1.toList <+: "COUNT8_DOWN".toList) ∧
        (e.2 = 8 ∨ (e.2 == 8) = true)) ∧
    coalesce (· == ·) (coalesce (· == ·) modes) = coalesce (· == ·) modes := by
  intro modes
  have hmem : ("COUNT8_DOWN", 8) ∈ modes := by simp [modes]
  obtain ⟨-, hrepresented, -, hagain⟩ := coalesce_complete (· == ·) modes
  exact ⟨by cbv, hmem, hrepresented _ hmem, hagain⟩

end ChipSupport.Mode
