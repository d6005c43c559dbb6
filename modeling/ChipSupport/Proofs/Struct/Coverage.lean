import ChipSupport.Proofs.Struct.Overlay
import ChipSupport.Proofs.Struct.Types

/-!
# Registers without a struct

A group with several modes has no struct for the default mode, as the registers of no particular
mode stand in the structs of the other modes.  A mode without registers of its own has no struct
either, so that they need some mode that has registers.

## Main definitions

* `RegisterGroup.namedModes` — the modes of a group but the default one.
* `GroupStruct.Shows` — a register that is a member of some struct.

## Main results

* `GroupStruct.shows_iff` — which registers of a group with several modes are shown.
* `GroupStruct.registers_shown_iff` — **when all registers of a group are members of structs.**
-/

namespace ChipSupport

namespace RegisterGroup

/-- The modes of a group but the default one. -/
def namedModes (g : RegisterGroup) : List String := g.modes.filter fun mode => !Mode.isDefault mode

variable {g : RegisterGroup}

theorem mem_namedModes {mode : String} :
    mode ∈ g.namedModes ↔ mode ∈ g.modes ∧ Mode.isDefault mode = false := by
  simp [namedModes]

theorem mem_allMembers {r : Register} :
    r ∈ g.allMembers ↔ ∃ mode ∈ g.modes, r ∈ g.membersOf mode := List.mem_flatMap

end RegisterGroup

namespace GroupStruct

open RegisterGroup

/-- A register that is a member of the struct of some mode. -/
def Shows (g : RegisterGroup) (r : Register) : Prop :=
  ∃ mode ∈ shownModes g, .register r ∈ layoutMembers (g.structMembers mode) g.size

variable {g : RegisterGroup} {r : Register}

/-! ### Structs that hold a register -/

theorem shows_iff_mem_structMembers :
    Shows g r ↔ ∃ mode ∈ shownModes g, r ∈ g.structMembers mode := by
  simp only [Shows, mem_layoutMembers]

/-- A mode of a group is a named one, the default one, or the one without a name. -/
theorem named_or_default {mode : String} (hmode : mode ∈ g.modes) :
    mode ∈ g.namedModes ∨ mode = Mode.default_ ∨ mode = "" := by
  cases hdefault : Mode.isDefault mode with
  | false => exact .inl (mem_namedModes.mpr ⟨hmode, hdefault⟩)
  | true =>
    rw [Mode.isDefault, Bool.or_eq_true, beq_iff_eq, beq_iff_eq] at hdefault
    exact .inr hdefault.symm

/-- A group with one mode shows all its registers. -/
theorem shows_of_single (hsingle : ¬ 1 < g.modes.length) (hr : r ∈ g.allMembers) : Shows g r := by
  obtain ⟨mode, hmode, hr⟩ := mem_allMembers.mp hr
  refine shows_iff_mem_structMembers.mpr ⟨mode, ?_, ?_⟩
  · simp [shownModes, hsingle, hmode, List.ne_nil_of_mem hr]
  · rwa [structMembers, if_neg hsingle]

/-- **A group with several modes shows the registers of its named modes**, and those of no
particular mode as soon as there are any others. -/
theorem shows_iff (hmodes : 1 < g.modes.length) :
    Shows g r ↔ (∃ mode ∈ g.namedModes, r ∈ g.membersOf mode) ∨
      r ∈ g.membersOf Mode.default_ ∧ ∃ mode ∈ g.namedModes, g.membersOf mode ≠ [] := by
  have hmem (mode : String) :
      mode ∈ shownModes g ↔ mode ∈ g.namedModes ∧ g.membersOf mode ≠ [] := by
    rw [mem_shownModes hmodes, mem_namedModes, and_assoc]
  rw [shows_iff_mem_structMembers]
  constructor
  · rintro ⟨mode, hmode, hr⟩
    obtain ⟨hnamed, hne⟩ := (hmem mode).mp hmode
    rcases mem_structMembers hr with hr | hr
    · exact .inl ⟨mode, hnamed, hr⟩
    · exact .inr ⟨hr, mode, hnamed, hne⟩
  · rintro (⟨mode, hnamed, hr⟩ | ⟨hr, mode, hnamed, hne⟩)
    · refine ⟨mode, (hmem mode).mpr ⟨hnamed, List.ne_nil_of_mem hr⟩, ?_⟩
      exact (perm_structMembers hmodes mode).mem_iff.mpr (List.mem_append_right _ hr)
    · refine ⟨mode, (hmem mode).mpr ⟨hnamed, hne⟩, ?_⟩
      exact (perm_structMembers hmodes mode).mem_iff.mpr (List.mem_append_left _ hr)

/-! ### Groups that show all registers -/

section Read

variable (hfirst : g.modes.head? = some Mode.default_)
include hfirst

theorem several_iff : 1 < g.modes.length ↔ g.modes ≠ [Mode.default_] := by
  obtain ⟨rest, hrest⟩ := List.head?_eq_some_iff.mp hfirst
  rw [hrest]
  cases rest <;> simp

/-- If there are several modes, all registers are shown exactly if those under the default mode are,
and those under a mode without a name are listed elsewhere. -/
theorem all_shown_iff (hkeys : ∀ mode ∈ g.members.map Prod.fst, mode ∈ g.modes)
    (hmodes : 1 < g.modes.length) :
    (∀ r ∈ g.allMembers, Shows g r) ↔
      (g.membersOf Mode.default_ = [] ∨ ∃ mode ∈ g.namedModes, g.membersOf mode ≠ []) ∧
      ∀ r ∈ g.membersOf "", r ∈ g.membersOf Mode.default_ ∨
        ∃ mode ∈ g.namedModes, r ∈ g.membersOf mode := by
  simp only [shows_iff hmodes]
  constructor
  · intro h
    refine ⟨?_, fun r hr => ?_⟩
    · refine or_iff_not_imp_left.mpr fun hne => ?_
      obtain ⟨r, hr⟩ := List.exists_mem_of_ne_nil _ hne
      have hdefault : Mode.default_ ∈ g.modes := List.mem_of_mem_head? hfirst
      rcases h r (mem_allMembers.mpr ⟨_, hdefault, hr⟩) with ⟨mode, hnamed, hr⟩ | ⟨-, hsome⟩
      · exact ⟨mode, hnamed, List.ne_nil_of_mem hr⟩
      · exact hsome
    · obtain ⟨rs, hmem, -⟩ := exists_mem_members hr
      have hunnamed : "" ∈ g.modes := hkeys _ (List.mem_map_of_mem hmem)
      rcases h r (mem_allMembers.mpr ⟨_, hunnamed, hr⟩) with hnamed | ⟨hr, -⟩
      · exact .inr hnamed
      · exact .inl hr
  · rintro ⟨hdefault, hunnamed⟩ r hr
    have hright (hr : r ∈ g.membersOf Mode.default_) : r ∈ g.membersOf Mode.default_ ∧
        ∃ mode ∈ g.namedModes, g.membersOf mode ≠ [] :=
      ⟨hr, hdefault.resolve_left (List.ne_nil_of_mem hr)⟩
    obtain ⟨mode, hmode, hr⟩ := mem_allMembers.mp hr
    rcases named_or_default hmode with hnamed | rfl | rfl
    · exact .inl ⟨mode, hnamed, hr⟩
    · exact .inr (hright hr)
    · exact (hunnamed r hr).symm.imp_right hright

end Read

/-- **A group shows all its registers exactly if the default mode has none, or another mode has
some.**  The block of a group is made of a struct for every shown mode, the union of these structs,
and definitions that are no types.  If the default mode is the first one, and registers stand only
under modes of the group, a register is a member of one of the structs exactly if the default mode
is the only one, or the register is listed under another mode, or under the default mode while
another mode has registers.  What is listed under a mode without a name has to be listed
elsewhere. -/
theorem registers_shown_iff {g : RegisterGroup} (hfirst : g.modes.head? = some Mode.default_)
    (hkeys : ∀ mode ∈ g.members.map Prod.fst, mode ∈ g.modes) :
    (∀ style ∈ Style.presets, ∃ structs unions rest, lines g style
        = .ok ((structs ++ unions).flatMap TypeDefinition.lines ++ rest) ∧
      List.Forall₂ (IsModeStruct g style) (shownModes g) structs ∧
      unions.map TypeDefinition.name
        = (if 2 < g.modes.length then [style.convention.groupType g ""] else []) ∧
      ∀ l ∈ rest, IsMacro l) ∧
    (∀ r ∈ g.allMembers, Shows g r ↔ g.modes = [Mode.default_] ∨
      (∃ mode ∈ g.namedModes, r ∈ g.membersOf mode) ∨
      r ∈ g.membersOf Mode.default_ ∧ ∃ mode ∈ g.namedModes, g.membersOf mode ≠ []) ∧
    ((∀ r ∈ g.allMembers, Shows g r) ↔ g.modes = [Mode.default_] ∨
      (g.membersOf Mode.default_ = [] ∨ ∃ mode ∈ g.namedModes, g.membersOf mode ≠ []) ∧
      ∀ r ∈ g.membersOf "", r ∈ g.membersOf Mode.default_ ∨
        ∃ mode ∈ g.namedModes, r ∈ g.membersOf mode) := by
  refine ⟨fun style hstyle => exists_lines hstyle g, ?_⟩
  by_cases hsingle : g.modes = [Mode.default_]
  · have hshown : ∀ r ∈ g.allMembers, Shows g r := by
      intro r hr
      exact shows_of_single (fun hmodes => (several_iff hfirst).mp hmodes hsingle) hr
    exact ⟨fun r hr => iff_of_true (hshown r hr) (.inl hsingle),
      iff_of_true hshown (.inl hsingle)⟩
  · have hmodes : 1 < g.modes.length := (several_iff hfirst).mpr hsingle
    simp only [hsingle, false_or]
    exact ⟨fun r _ => shows_iff hmodes, all_shown_iff hfirst hkeys hmodes⟩

/-- All registers of the timer are shown, although one of its modes has none. -/
theorem registers_shown_counter :
    counter.modes.head? = some Mode.default_ ∧
    (∀ mode ∈ counter.members.map Prod.fst, mode ∈ counter.modes) ∧
    counter.membersOf "COUNT32" = [] ∧ ∀ r ∈ counter.allMembers, Shows counter r := by
  have hfirst : counter.modes.head? = some Mode.default_ := rfl
  have hkeys : ∀ mode ∈ counter.members.map Prod.fst, mode ∈ counter.modes := by decide
  obtain ⟨-, -, hall⟩ := registers_shown_iff hfirst hkeys
  exact ⟨hfirst, hkeys, by decide, hall.mpr (.inr (by decide))⟩

/-- A group with one register of no particular mode, and a mode without registers. -/
def controller : RegisterGroup :=
  { name := "DMA"
    owner := "DMA"
    size := 8
    modes := [Mode.default_, "CHANNEL"]
    members :=
      [(Mode.default_, [{ name := "CTRLA", owner := "DMA", size := 4 }]), ("CHANNEL", [])] }

/-- **No preset writes a struct for a register that stands under the default mode**, if the group
has another mode and no registers in it. -/
theorem controller_not_shown :
    controller.modes.Nodup ∧ controller.modes.head? = some Mode.default_ ∧
    controller.members.map Prod.fst = controller.modes ∧
    (∃ r ∈ controller.allMembers, r.name = "CTRLA" ∧ ¬ Shows controller r) ∧
    ∀ style ∈ Style.presets, lines controller style = .ok [] := by
  have hnone : shownModes controller = [] := by decide
  refine ⟨by decide, rfl, rfl, ⟨_, List.mem_cons_self, rfl, ?_⟩, fun style hstyle => ?_⟩
  · rintro ⟨mode, hmode, -⟩
    rw [hnone] at hmode
    cases hmode
  · have hnames := (Style.standard_of_mem_presets hstyle).names
    simp only [lines, hnames, hnone]
    rfl

end GroupStruct

end ChipSupport
