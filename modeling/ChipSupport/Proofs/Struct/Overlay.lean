import ChipSupport.Proofs.Sorting
import ChipSupport.Proofs.Struct.Types

/-!
# Overlay of mode structs

A group with modes has a struct for each mode with registers.  The registers of no particular mode
stand in all of these structs, among the registers of the mode, and the union of the structs lays
them over each other.  Where the registers of a struct share no byte, each one begins at its own
offset, so that a shared register has one place in all of them.

## Main definitions

* `Register.Separate` — registers that share no byte.
* `GroupEntry.startOf` — the byte at which a register begins.

## Main results

* `Register.Separate.ascending` — in the order of their offsets they lie one behind the other.
* `GroupEntry.startOf_layoutMembers` — a register of a struct begins at its offset.
* `RegisterGroup.modeStructs_overlay` — **the mode structs of a group overlay.**
-/

namespace ChipSupport

namespace Register

/-! ### Separate registers -/

theorem perm_sorted (rs : List Register) : (sorted rs).Perm rs := List.mergeSort_perm rs _

theorem pairwise_sorted (rs : List Register) :
    (sorted rs).Pairwise fun r s => r.offset ≤ s.offset :=
  Sorting.pairwise_mergeSort offset rs

/-- Registers with bytes of their own, of which no two share one. -/
structure Separate (rs : List Register) : Prop where
  /-- No register lies in front of the group. -/
  offset : ∀ r ∈ rs, 0 ≤ r.offset
  /-- Every element has a byte. -/
  size : ∀ r ∈ rs, 1 ≤ r.size
  /-- Every register has an element. -/
  count : ∀ r ∈ rs, 1 ≤ r.count
  /-- No two registers share a byte. -/
  disjoint : rs.Pairwise fun r s => Disjoint (Set.Ico r.offset r.stop) (Set.Ico s.offset s.stop)

namespace Separate

variable {rs ss : List Register}

theorem perm (h : Separate rs) (hperm : rs.Perm ss) : Separate ss where
  offset r hr := h.offset r (hperm.mem_iff.mpr hr)
  size r hr := h.size r (hperm.mem_iff.mpr hr)
  count r hr := h.count r (hperm.mem_iff.mpr hr)
  disjoint := (hperm.pairwise_iff fun hrs => hrs.symm).mp h.disjoint

theorem offset_lt_stop (h : Separate rs) {r : Register} (hr : r ∈ rs) : r.offset < r.stop :=
  Register.offset_lt_stop (h.count r hr) (h.size r hr)

/-- No register stands twice, since it would share its bytes with itself. -/
theorem nodup (h : Separate rs) : rs.Nodup := by
  refine h.disjoint.imp_of_mem ?_
  rintro r s hr - hdisjoint rfl
  have hlt := h.offset_lt_stop hr
  rw [Set.Ico_disjoint_Ico] at hdisjoint
  omega

/-- In the order of their offsets the registers lie one behind the other. -/
theorem ascending (h : Separate rs) : Ascending 0 (sorted rs) := by
  have hsorted : Separate (sorted rs) := h.perm (perm_sorted rs).symm
  refine ascending_of_pairwise hsorted.offset ?_
  refine ((pairwise_sorted rs).and hsorted.disjoint).imp_of_mem ?_
  rintro r s hr hs ⟨hle, hdisjoint⟩
  have hlt := hsorted.offset_lt_stop hr
  have hlt' := hsorted.offset_lt_stop hs
  -- none of the two is empty, so that being disjoint means that one ends first
  rw [Set.Ico_disjoint_Ico] at hdisjoint
  omega

end Separate

end Register

namespace GroupEntry

/-! ### The place of a register -/

/-- The byte at which a register begins: behind the members in front of it. -/
def startOf (r : Register) : List GroupEntry → Option Int
  | [] => none
  | e :: rest => if e = .register r then some 0 else (startOf r rest).map (e.bytes + ·)

/-- A register begins behind the members in front of its first place. -/
theorem startOf_append {r : Register} {before : List GroupEntry} (h : .register r ∉ before)
    (after : List GroupEntry) :
    startOf r (before ++ .register r :: after) = some (span before) := by
  induction before with
  | nil => rw [List.nil_append, startOf, if_pos rfl, span_nil]
  | cons e before ih =>
    rw [List.mem_cons, not_or] at h
    rw [List.cons_append, startOf, if_neg (Ne.symm h.1), ih h.2, span_cons]
    rfl

/-- A register of a struct begins at its offset, if the registers lie one behind the other. -/
theorem startOf_layoutMembers {rs : List Register} (h : Register.Ascending 0 rs) {r : Register}
    (hr : r ∈ rs) (size : Int) : startOf r (layoutMembers rs size) = some r.offset := by
  have hmem : .register r ∈ layoutMembers rs size := mem_layoutMembers.mpr hr
  obtain ⟨before, after, hsplit, hfirst⟩ := List.eq_append_cons_of_mem hmem
  rw [hsplit, startOf_append hfirst, span_before h hsplit]

/-- The layout writes every register as often as it is given. -/
theorem count_layoutMembersFrom (r : Register) (rs : List Register) (next number size : Int) :
    (layoutMembersFrom next number size rs).count (.register r) = rs.count r := by
  have hregister : ∀ s, (GroupEntry.register s == .register r) = (s == r) := by
    intro s
    rw [Bool.eq_iff_iff, beq_iff_eq, beq_iff_eq, GroupEntry.register.injEq]
  induction rs generalizing next number with
  | nil =>
    rw [layoutMembersFrom_nil]
    split <;> simp
  | cons s rest ih =>
    rw [layoutMembersFrom]
    split <;> simp [List.count_cons, hregister, ih]

end GroupEntry

namespace RegisterGroup

open GroupEntry GroupStruct

variable {g : RegisterGroup}

/-! ### Mode structs -/

/-- A group with several modes has a struct for every mode with registers but the default one. -/
theorem mem_shownModes (hmodes : 1 < g.modes.length) {mode : String} :
    mode ∈ shownModes g ↔ mode ∈ g.modes ∧ Mode.isDefault mode = false ∧ g.membersOf mode ≠ [] := by
  simp [shownModes, hmodes, and_comm]

/-- The struct of a mode holds the registers of the mode and those of no particular mode. -/
theorem perm_structMembers (hmodes : 1 < g.modes.length) (mode : String) :
    (g.structMembers mode).Perm (g.membersOf Mode.default_ ++ g.membersOf mode) := by
  rw [structMembers, if_pos hmodes]
  exact (Register.perm_sorted _).trans List.perm_append_comm

theorem ascending_structMembers (hmodes : 1 < g.modes.length) {mode : String}
    (h : Register.Separate (g.membersOf Mode.default_ ++ g.membersOf mode)) :
    Register.Ascending 0 (g.structMembers mode) := by
  rw [structMembers, if_pos hmodes]
  exact (h.perm List.perm_append_comm).ascending

/-- **The mode structs of a group overlay.**  If the registers of each of them share no byte, they
stand in it once each and begin at their own offsets.  A register of no particular mode therefore
begins at the same byte in all of them, and each of them has the size of the group unless a register
ends behind it.  In the block of the group these structs are defined, one for each mode that is
shown, and each has a line for every reserved space and register of its layout. -/
theorem modeStructs_overlay (hmodes : 1 < g.modes.length)
    (h : ∀ mode ∈ g.modes, Mode.isDefault mode = false → g.membersOf mode ≠ [] →
      Register.Separate (g.membersOf Mode.default_ ++ g.membersOf mode)) :
    (∀ style ∈ Style.presets, ∃ structs unions rest, lines g style
        = .ok ((structs ++ unions).flatMap TypeDefinition.lines ++ rest) ∧
      List.Forall₂ (IsModeStruct g style) (shownModes g) structs ∧
      unions.map TypeDefinition.name
        = (if 2 < g.modes.length then [style.convention.groupType g ""] else []) ∧
      ∀ l ∈ rest, IsMacro l) ∧
    (∀ mode, mode ∈ shownModes g ↔
      mode ∈ g.modes ∧ Mode.isDefault mode = false ∧ g.membersOf mode ≠ []) ∧
    (∀ mode ∈ shownModes g, ∀ r ∈ g.membersOf Mode.default_ ++ g.membersOf mode,
      (layoutMembers (g.structMembers mode) g.size).count (.register r) = 1 ∧
      startOf r (layoutMembers (g.structMembers mode) g.size) = some r.offset) ∧
    (∀ mode ∈ shownModes g, ∀ mode' ∈ shownModes g, ∀ r ∈ g.membersOf Mode.default_,
      startOf r (layoutMembers (g.structMembers mode) g.size)
        = startOf r (layoutMembers (g.structMembers mode') g.size)) ∧
    ∀ mode ∈ shownModes g,
      (∀ r ∈ g.membersOf Mode.default_ ++ g.membersOf mode, r.stop ≤ g.size) →
      span (layoutMembers (g.structMembers mode) g.size) = g.size := by
  have hseparate : ∀ mode ∈ shownModes g,
      Register.Separate (g.membersOf Mode.default_ ++ g.membersOf mode) := by
    intro mode hmode
    obtain ⟨hmem, hdefault, hne⟩ := (mem_shownModes hmodes).mp hmode
    exact h mode hmem hdefault hne
  have hstart : ∀ mode ∈ shownModes g, ∀ r ∈ g.membersOf Mode.default_ ++ g.membersOf mode,
      startOf r (layoutMembers (g.structMembers mode) g.size) = some r.offset := by
    intro mode hmode r hr
    have hmember : r ∈ g.structMembers mode := (perm_structMembers hmodes mode).mem_iff.mpr hr
    exact startOf_layoutMembers (ascending_structMembers hmodes (hseparate mode hmode)) hmember _
  refine ⟨fun style hstyle => exists_lines hstyle g, fun mode => mem_shownModes hmodes,
    fun mode hmode r hr => ⟨?_, hstart mode hmode r hr⟩,
    fun mode hmode mode' hmode' r hr => ?_, fun mode hmode hstop => ?_⟩
  · rw [layoutMembers, count_layoutMembersFrom, (perm_structMembers hmodes mode).count_eq]
    exact List.count_eq_one_of_mem (hseparate mode hmode).nodup hr
  · rw [hstart mode hmode r (List.mem_append_left _ hr),
      hstart mode' hmode' r (List.mem_append_left _ hr)]
  · obtain ⟨-, -, hne⟩ := (mem_shownModes hmodes).mp hmode
    obtain ⟨r, hr⟩ := List.exists_mem_of_ne_nil _ hne
    have hr : r ∈ g.membersOf Mode.default_ ++ g.membersOf mode := List.mem_append_right _ hr
    -- the group is not empty, as there is a register in it
    have hsize : 0 ≤ g.size := by
      have hoffset := (hseparate mode hmode).offset r hr
      have hlt := (hseparate mode hmode).offset_lt_stop hr
      have hle := hstop r hr
      omega
    refine span_layoutMembers (ascending_structMembers hmodes (hseparate mode hmode)) hsize ?_
    intro s hs
    exact hstop s ((perm_structMembers hmodes mode).mem_iff.mp hs)

/-- A timer that counts in eight or sixteen bits, with shared registers around the counter. -/
def counter : RegisterGroup :=
  { name := "TC"
    owner := "TC"
    size := 0x20
    modes := [Mode.default_, "COUNT8", "COUNT16", "COUNT32"]
    members :=
      [(Mode.default_,
          [{ name := "CTRLA", owner := "TC", size := 4 },
            { name := "DBGCTRL", owner := "TC", offset := 0xF }]),
        ("COUNT8",
          [{ name := "CC", owner := "TC", offset := 0x1C, count := 2, mode := "COUNT8" },
            { name := "COUNT", owner := "TC", offset := 0x14, mode := "COUNT8" },
            { name := "CTRLB", owner := "TC", offset := 0x4, mode := "COUNT8" }]),
        ("COUNT16",
          [{ name := "COUNT", owner := "TC", offset := 0x14, size := 2, mode := "COUNT16" }]),
        ("COUNT32", [])] }

theorem separate_counter : ∀ mode ∈ counter.modes, Mode.isDefault mode = false →
    counter.membersOf mode ≠ [] →
    Register.Separate (counter.membersOf Mode.default_ ++ counter.membersOf mode) := by
  have hmodes : ∀ mode ∈ counter.modes, Mode.isDefault mode = false →
      counter.membersOf mode ≠ [] → mode = "COUNT8" ∨ mode = "COUNT16" := by decide
  intro mode hmode hdefault hne
  rcases hmodes mode hmode hdefault hne with rfl | rfl
  all_goals
    constructor
    case disjoint => simp only [Set.Ico_disjoint_Ico]; decide
    all_goals decide

/-- The mode structs of the timer overlay. -/
theorem modeStructs_overlay_counter :
    1 < counter.modes.length ∧
    (∀ mode ∈ counter.modes, Mode.isDefault mode = false → counter.membersOf mode ≠ [] →
      Register.Separate (counter.membersOf Mode.default_ ++ counter.membersOf mode)) ∧
    (∀ style ∈ Style.presets, ∃ structs unions rest, lines counter style
        = .ok ((structs ++ unions).flatMap TypeDefinition.lines ++ rest) ∧
      List.Forall₂ (IsModeStruct counter style) ["COUNT8", "COUNT16"] structs ∧
      unions.map TypeDefinition.name = [style.convention.groupType counter ""] ∧
      ∀ l ∈ rest, IsMacro l) ∧
    (∀ mode, mode ∈ shownModes counter ↔
      mode ∈ counter.modes ∧ Mode.isDefault mode = false ∧ counter.membersOf mode ≠ []) ∧
    (∀ mode ∈ shownModes counter,
      ∀ r ∈ counter.membersOf Mode.default_ ++ counter.membersOf mode,
        (layoutMembers (counter.structMembers mode) counter.size).count (.register r) = 1 ∧
        startOf r (layoutMembers (counter.structMembers mode) counter.size) = some r.offset) ∧
    (∀ mode ∈ shownModes counter, ∀ mode' ∈ shownModes counter,
      ∀ r ∈ counter.membersOf Mode.default_,
        startOf r (layoutMembers (counter.structMembers mode) counter.size)
          = startOf r (layoutMembers (counter.structMembers mode') counter.size)) ∧
    ∀ mode ∈ shownModes counter,
      (∀ r ∈ counter.membersOf Mode.default_ ++ counter.membersOf mode, r.stop ≤ counter.size) →
      span (layoutMembers (counter.structMembers mode) counter.size) = counter.size :=
  ⟨by decide, separate_counter, modeStructs_overlay (by decide) separate_counter⟩

end RegisterGroup

end ChipSupport
