import ChipSupport.Document.Group
import ChipSupport.Proofs.Mode.Classes
import ChipSupport.Proofs.Steps

/-!
# Groups as they are read

The registers of a group stand under its modes, and modes with the same registers become one.  The
modes are then the keys of a table, so that a name that merging gives twice leaves the registers of
one of the two modes only.

## Main definitions

* `Node.Describes` — the registers and nested groups that a group's node describes.
* `Node.WellFormed` — what is expected of the group that is read from a node.
* `Node.NamesKept` — merging leaves the default mode its name and gives no name twice.
* `Node.mergedName`, `Node.NamesApart` — the same, said of the declared names.

## Main results

* `Node.mode_of_mem_members` — a register carries the mode that it is listed under.
* `Node.namesKept_iff` — when merging leaves the names apart.
* `Node.group_wellFormed_iff` — **when the group that is read from a node is well formed.**
-/

namespace ChipSupport

namespace Register

/-! ### Equal registers -/

/-- What counts where registers are compared. -/
def shape (r : Register) : String × Int × Int × Int × String × Bool × List (String × Int) :=
  (r.name, r.offset, r.size, r.count, r.rw, r.isAlias, r.bitfields.map fun f => (f.name, f.mask))

theorem sameFields_iff {fs gs : List Bitfield} :
    Bitfield.sameFields fs gs = true
      ↔ fs.map (fun f => (f.name, f.mask)) = gs.map fun f => (f.name, f.mask) := by
  induction fs generalizing gs with
  | nil => cases gs <;> simp [Bitfield.sameFields]
  | cons f fs ih => cases gs <;> simp [Bitfield.sameFields, Bitfield.sameAs, ih]

theorem sameAs_iff {r s : Register} : r.sameAs s = true ↔ r.shape = s.shape := by
  simp [sameAs, shape, sameFields_iff, and_assoc]

theorem sameRegisters_iff (rs ss : List Register) :
    sameRegisters rs ss = true ↔ rs.map shape = ss.map shape := by
  induction rs generalizing ss with
  | nil => cases ss <;> simp [sameRegisters]
  | cons r rs ih => cases ss <;> simp [sameRegisters, sameAs_iff, ih]

theorem sameRegisters_refl (rs : List Register) : sameRegisters rs rs = true :=
  (sameRegisters_iff rs rs).mpr rfl

/-- Registers that are the same up to their modes stand in both lists of the same registers. -/
theorem exists_sameAs_of_sameRegisters {rs ss : List Register} (h : sameRegisters rs ss = true)
    {s : Register} (hs : s ∈ ss) : ∃ r ∈ rs, r.sameAs s = true := by
  have hshape : s.shape ∈ ss.map shape := List.mem_map_of_mem hs
  rw [← (sameRegisters_iff rs ss).mp h] at hshape
  obtain ⟨r, hr, hrs⟩ := List.mem_map.mp hshape
  exact ⟨r, hr, sameAs_iff.mpr hrs⟩

/-- The mode that a register is listed under does not count. -/
@[simp] theorem sameAs_withMode (r s : Register) (mode : String) :
    Register.sameAs { r with mode } s = r.sameAs s := rfl

end Register

namespace Node

open Register

/-! ### The registers of a node -/

/-- A register or nested group that a child of a group's node describes. -/
def Describes (module_ node : Data) (r : Register) : Prop :=
  (∃ child ∈ children node "register", register module_ false child = .ok r) ∨
    ∃ child ∈ children node "register-group", register module_ true child = .ok r

/-- The registers of a group are the ones that its node describes. -/
theorem mem_registers {module_ node : Data} {rs : List Register}
    (h : registers module_ node = .ok rs) {r : Register} : r ∈ rs ↔ Describes module_ node r := by
  unfold registers at h
  obtain ⟨plain, hplain, h⟩ := Steps.bind_eq_ok_iff.mp h
  obtain ⟨nested, hnested, h⟩ := Steps.bind_eq_ok_iff.mp h
  -- sorting by offset changes no membership
  rw [← Except.ok.inj h, Register.sorted, List.mem_mergeSort, List.mem_append]
  refine or_congr ⟨Steps.exists_of_mem_mapM hplain, ?_⟩ ⟨Steps.exists_of_mem_mapM hnested, ?_⟩
  · rintro ⟨child, hchild, hr⟩
    obtain ⟨r', hr', hread⟩ := Steps.exists_mem_of_mapM hplain hchild
    rw [hr] at hread
    rwa [Except.ok.inj hread]
  · rintro ⟨child, hchild, hr⟩
    obtain ⟨r', hr', hread⟩ := Steps.exists_mem_of_mapM hnested hchild
    rw [hr] at hread
    rwa [Except.ok.inj hread]

/-! ### Modes as keys -/

/-- The registers that are described under a mode. -/
def under (rs : List Register) (mode : String) : List Register := rs.filter fun r => r.mode == mode

theorem mem_under {rs : List Register} {mode : String} {r : Register} :
    r ∈ under rs mode ↔ r ∈ rs ∧ r.mode = mode := by
  rw [under, List.mem_filter, beq_iff_eq]

/-- Modes with what is described under them. -/
def described (rs : List Register) (modes : List String) : List (String × List Register) :=
  modes.map fun mode => (mode, under rs mode)

/-- Modes of different names that have not been seen have all registers described under them. -/
theorem listed_eq_described {rs : List Register} {seen modes : List String} (h : modes.Nodup)
    (hseen : ∀ mode ∈ modes, mode ∉ seen) : listed rs seen modes = described rs modes := by
  induction modes generalizing seen with
  | nil => rfl
  | cons mode rest ih =>
    rw [List.nodup_cons] at h
    rw [List.forall_mem_cons] at hseen
    have hrest : ∀ m ∈ rest, m ∉ mode :: seen := by
      intro m hm hmem
      rcases List.mem_cons.mp hmem with rfl | hmem
      · exact h.1 hm
      · exact hseen.2 m hm hmem
    rw [listed, ih h.2 hrest, if_neg (by simpa using hseen.1)]
    rfl

theorem lastOfEach_sublist {α : Type} (entries : List (String × α)) :
    (lastOfEach entries).Sublist entries := by
  induction entries with
  | nil => exact List.Sublist.refl []
  | cons e rest ih =>
    rw [lastOfEach]
    split
    · exact ih.cons e
    · exact ih.cons_cons e

theorem lastOfEach_of_nodup {α : Type} {entries : List (String × α)}
    (h : (entries.map Prod.fst).Nodup) : lastOfEach entries = entries := by
  induction entries with
  | nil => rfl
  | cons e rest ih =>
    rw [List.map_cons, List.nodup_cons] at h
    rw [lastOfEach, if_neg (by simpa using h.1), ih h.2]

theorem lookup_of_mem {α : Type} {entries : List (String × α)} {e : String × α}
    (he : e ∈ entries) (h : (entries.map Prod.fst).Nodup) : entries.lookup e.1 = some e.2 := by
  obtain ⟨before, after, hsplit⟩ := List.append_of_mem he
  rw [List.lookup_eq_some_iff]
  refine ⟨before, after, hsplit, fun p hp => ?_⟩
  rw [hsplit, List.map_append, List.map_cons, List.nodup_append] at h
  have hne := h.2.2 p.1 (List.mem_map_of_mem hp) e.1 List.mem_cons_self
  simpa using hne.symm

/-! ### The merged modes -/

/-- A mode with its registers, each of which carries the mode. -/
def carrying (m : String × List Register) : String × List Register :=
  (m.1, m.2.map fun r => { r with mode := m.1 })

@[simp] theorem carrying_fst (m : String × List Register) : (carrying m).1 = m.1 := rfl

/-- What is described under a mode carries it. -/
theorem carrying_under (rs : List Register) (mode : String) :
    carrying (mode, under rs mode) = (mode, under rs mode) := by
  have hself : ∀ r ∈ under rs mode, ({ r with mode := mode } : Register) = id r := by
    intro r hr
    rw [← (mem_under.mp hr).2, id]
  rw [carrying, List.map_congr_left hself, List.map_id]

/-- The modes of a group, merged: a group with no mode but the default one is no special case. -/
theorem mergedModes_eq (modes : List String) (rs : List Register) :
    mergedModes modes rs
      = (Mode.coalesce sameRegisters (listed rs [] modes)).map carrying := by
  unfold mergedModes
  split
  · rfl
  · match modes with
    | [] => simp [listed]
    | [mode] =>
      have hlisted : listed rs [] [mode] = [(mode, under rs mode)] := rfl
      rw [hlisted, Mode.coalesce_cons, Mode.absorb, Mode.coalesce_nil, List.map_cons,
        carrying_under, List.map_nil]
    | _ :: _ :: _ => rename_i h; exact absurd h (by simp)

theorem mode_of_mem_mergedModes {modes : List String} {rs : List Register}
    {m : String × List Register} (hm : m ∈ mergedModes modes rs) {r : Register} (hr : r ∈ m.2) :
    r.mode = m.1 := by
  rw [mergedModes_eq, List.mem_map] at hm
  obtain ⟨e, -, rfl⟩ := hm
  obtain ⟨r', -, rfl⟩ := List.mem_map.mp hr
  rfl

/-- Every register that is described under a mode of a group is listed under a merged mode. -/
theorem exists_mem_mergedModes {modes : List String} (hmodes : modes.Nodup) {rs : List Register}
    {r : Register} (hr : r ∈ rs) (hmode : r.mode ∈ modes) :
    ∃ m ∈ mergedModes modes rs, ∃ s ∈ m.2, s.sameAs r = true := by
  have hlisted : (r.mode, under rs r.mode) ∈ listed rs [] modes := by
    rw [listed_eq_described hmodes (by simp)]
    exact List.mem_map_of_mem hmode
  obtain ⟨e, he, hsame⟩ := Mode.exists_mem_coalesce sameRegisters_refl hlisted
  obtain ⟨s, hs, hsr⟩ := exists_sameAs_of_sameRegisters hsame (mem_under.mpr ⟨hr, rfl⟩)
  refine ⟨carrying e, ?_, { s with mode := e.1 }, List.mem_map_of_mem hs, hsr⟩
  rw [mergedModes_eq]
  exact List.mem_map_of_mem he

/-- The default mode keeps its name unless a mode with its registers has a name that begins like
its name only. -/
theorem absorb_default_iff {rs : List Register} {modes : List String} :
    (Mode.absorb sameRegisters Mode.default_ (under rs Mode.default_) (described rs modes)).1
        = Mode.default_
      ↔ ∀ mode ∈ modes, sameRegisters (under rs Mode.default_) (under rs mode) = true →
          ['D'] <+: mode.toList → Mode.default_.toList <+: mode.toList := by
  rw [Mode.absorb_name_iff, described, List.forall_mem_map]
  refine forall₂_congr fun mode _ => imp_congr_right fun _ => ?_
  exact Mode.commonStart_default_iff mode

/-- The merged modes begin with what merging leaves of the default mode's name. -/
theorem head?_mergedModes {modes : List String} (hmodes : (Mode.default_ :: modes).Nodup)
    (rs : List Register) :
    ((mergedModes (Mode.default_ :: modes) rs).map Prod.fst).head? = some Mode.default_
      ↔ ∀ mode ∈ modes, sameRegisters (under rs Mode.default_) (under rs mode) = true →
          ['D'] <+: mode.toList → Mode.default_.toList <+: mode.toList := by
  rw [mergedModes_eq, listed_eq_described hmodes (by simp), described, List.map_cons,
    Mode.coalesce_cons, List.map_cons, List.map_cons, List.head?_cons, carrying_fst,
    Option.some.injEq, ← described, absorb_default_iff]

/-! ### Modes that can be merged -/

theorem mergesNameless_of_isText {entries : List (Data × List Register)}
    (h : ∀ e ∈ entries, e.1.isText = true) : mergesNameless entries = false := by
  induction entries with
  | nil => rfl
  | cons e rest ih =>
    rw [List.forall_mem_cons] at h
    have hany : (rest.any fun other =>
        sameRegisters e.2 other.2 && !(e.1.isText && other.1.isText)) = false := by
      rw [List.any_eq_false]
      intro other hother
      rw [h.1, h.2 other hother]
      simp
    rw [mergesNameless, hany, ih h.2, Bool.or_false]

theorem checkModes_of_isText {node : Data} (h : ∀ name ∈ declaredModes node, name.isText = true)
    (rs : List Register) : checkModes node rs = .ok () := by
  have hnames : mergesNameless ((.text Mode.default_ :: declaredModes node).zip
      ((listed rs [] (groupModes node)).map Prod.snd)) = false := by
    refine mergesNameless_of_isText fun e he => ?_
    rcases List.mem_cons.mp (List.of_mem_zip he).1 with hdefault | hdeclared
    · rw [hdefault]
      rfl
    · exact h _ hdeclared
  simp only [checkModes, hnames, Bool.false_eq_true, if_false]

/-! ### Groups -/

/-- What is expected of the group that is read from a node. -/
structure WellFormed (module_ node : Data) (g : RegisterGroup) : Prop where
  /-- No mode stands twice. -/
  nodup : g.modes.Nodup
  /-- The default mode is the first one. -/
  default_first : g.modes.head? = some Mode.default_
  /-- Every register carries the mode that it is listed under. -/
  carries : ∀ m ∈ g.members, ∀ r ∈ m.2, r.mode = m.1
  /-- Every register that is described under a mode of the group is listed under one. -/
  complete : ∀ r, Describes module_ node r → r.mode ∈ groupModes node →
    ∃ mode ∈ g.modes, ∃ s ∈ g.membersOf mode, s.sameAs r = true

/-- Merging leaves the default mode its name and gives no name twice. -/
structure NamesKept (node : Data) (rs : List Register) : Prop where
  /-- No mode with the registers of the default mode has a name that begins like its name only. -/
  default_ : ∀ mode ∈ groupModes node,
    sameRegisters (under rs Mode.default_) (under rs mode) = true →
      ['D'] <+: mode.toList → Mode.default_.toList <+: mode.toList
  /-- Merged modes have different names. -/
  nodup : ((Mode.coalesce sameRegisters (listed rs [] (groupModes node))).map Prod.fst).Nodup

/-- Names are kept if modes with the same registers have nothing of their names in common. -/
theorem NamesKept.of_apart {node : Data} {rs : List Register} (hmodes : (groupModes node).Nodup)
    (h : (groupModes node).Pairwise fun a b =>
      sameRegisters (under rs a) (under rs b) = true → Mode.commonStart a b = "") :
    NamesKept node rs := by
  refine ⟨fun mode hmode hsame => ?_, ?_⟩
  · rcases List.mem_cons.mp hmode with rfl | hmode
    · exact fun _ => List.prefix_rfl
    · have hempty := (List.pairwise_cons.mp h).1 mode hmode hsame
      exact (Mode.commonStart_default_iff mode).mp (.inr hempty)
  · have happart : (described rs (groupModes node)).Pairwise fun a b =>
        sameRegisters a.2 b.2 = true → Mode.commonStart a.1 b.1 = "" := by
      rw [described, List.pairwise_map]
      exact h
    rw [listed_eq_described hmodes (by simp), Mode.coalesce_of_apart _ happart, described,
      List.map_map]
    simpa [Function.comp_def] using hmodes

/-- The name of the mode that a mode of the group becomes part of: the common start of the names of
the modes that have the same registers and begin with the same character. -/
def mergedName (node : Data) (rs : List Register) (mode : String) : String :=
  Mode.mergedName sameRegisters (described rs (groupModes node)) (mode, under rs mode)

/-- The default mode is merged with none that cuts its name, and modes with the same merged name
have the same registers. -/
structure NamesApart (node : Data) (rs : List Register) : Prop where
  /-- The default mode keeps its name. -/
  default_ : mergedName node rs Mode.default_ = Mode.default_
  /-- Modes with different registers have different merged names. -/
  apart : ∀ a ∈ groupModes node, ∀ b ∈ groupModes node,
    mergedName node rs a = mergedName node rs b → sameRegisters (under rs a) (under rs b) = true

/-- The default mode keeps its name exactly if it is its merged name. -/
theorem mergedName_default_iff {node : Data} {rs : List Register} :
    mergedName node rs Mode.default_ = Mode.default_ ↔
      ∀ mode ∈ (declaredModes node).map shown,
        sameRegisters (under rs Mode.default_) (under rs mode) = true →
          ['D'] <+: mode.toList → Mode.default_.toList <+: mode.toList := by
  have hplain : Mode.Plain Mode.default_ := ⟨'D', by decide, by decide⟩
  -- the default mode is the first one, so that its class is what it absorbs
  have hname : mergedName node rs Mode.default_
      = (Mode.absorb sameRegisters Mode.default_ (under rs Mode.default_)
          (described rs ((declaredModes node).map shown))).1 := by
    rw [Mode.absorb_eq sameRegisters hplain]
    exact Mode.mergedName_cons_self sameRegisters_iff _ _
  rw [hname, absorb_default_iff]

/-- **Where no name begins with a separator, names are kept exactly if the merged names are
apart.** -/
theorem namesKept_iff {node : Data} {rs : List Register} (hmodes : (groupModes node).Nodup)
    (hplain : ∀ mode ∈ groupModes node, Mode.Plain mode) :
    NamesKept node rs ↔ NamesApart node rs := by
  have hlisted : listed rs [] (groupModes node) = described rs (groupModes node) :=
    listed_eq_described hmodes (by simp)
  have hnodup : ((Mode.coalesce sameRegisters (listed rs [] (groupModes node))).map Prod.fst).Nodup
      ↔ ∀ a ∈ groupModes node, ∀ b ∈ groupModes node,
        mergedName node rs a = mergedName node rs b →
          sameRegisters (under rs a) (under rs b) = true := by
    have hall : ∀ m ∈ described rs (groupModes node), Mode.Plain m.1 :=
      List.forall_mem_map.mpr hplain
    rw [hlisted, Mode.nodup_coalesce_iff sameRegisters_iff hall]
    simp only [described, List.forall_mem_map]
    rfl
  constructor
  · intro hkept
    refine ⟨mergedName_default_iff.mpr fun mode hmode => ?_, hnodup.mp hkept.nodup⟩
    exact hkept.default_ mode (List.mem_cons_of_mem _ hmode)
  · intro hnames
    refine ⟨fun mode hmode => ?_, hnodup.mpr hnames.apart⟩
    rcases List.mem_cons.mp hmode with rfl | hmode
    · exact fun _ _ => List.prefix_rfl
    · exact mergedName_default_iff.mp hnames.default_ mode hmode

theorem exists_registers {module_ node : Data} {g : RegisterGroup}
    (h : group module_ node = .ok g) : ∃ rs, registers module_ node = .ok rs := by
  unfold group at h
  obtain ⟨rs, hrs, -⟩ := Steps.bind_eq_ok_iff.mp h
  exact ⟨rs, hrs⟩

/-- What the modes and the members of a group are. -/
theorem group_eq_ok {module_ node : Data} {g : RegisterGroup} (h : group module_ node = .ok g)
    {rs : List Register} (hrs : registers module_ node = .ok rs) :
    g.modes = (mergedModes (groupModes node) rs).map Prod.fst ∧
      g.members = lastOfEach (mergedModes (groupModes node) rs) := by
  unfold group at h
  obtain ⟨rs', hrs', h⟩ := Steps.bind_eq_ok_iff.mp h
  rw [hrs, Except.ok.injEq] at hrs'
  subst hrs'
  obtain ⟨-, -, h⟩ := Steps.bind_eq_ok_iff.mp h
  obtain ⟨size, -, h⟩ := Steps.bind_eq_ok_iff.mp h
  obtain ⟨alignment, -, h⟩ := Steps.bind_eq_ok_iff.mp h
  split at h
  · cases h
  · rw [← Except.ok.inj h]
    exact ⟨rfl, rfl⟩

/-- A register carries the mode that it is listed under. -/
theorem mode_of_mem_members {module_ node : Data} {g : RegisterGroup}
    (h : group module_ node = .ok g) {m : String × List Register} (hm : m ∈ g.members)
    {r : Register} (hr : r ∈ m.2) : r.mode = m.1 := by
  obtain ⟨rs, hrs⟩ := exists_registers h
  rw [(group_eq_ok h hrs).2] at hm
  exact mode_of_mem_mergedModes ((lastOfEach_sublist _).subset hm) hr

theorem wellFormed_iff_namesKept {module_ node : Data} {g : RegisterGroup}
    (h : group module_ node = .ok g) (hmodes : (groupModes node).Nodup) {rs : List Register}
    (hrs : registers module_ node = .ok rs) : WellFormed module_ node g ↔ NamesKept node rs := by
  obtain ⟨hnames, hmembers⟩ := group_eq_ok h hrs
  have hkeys : g.modes
      = (Mode.coalesce sameRegisters (listed rs [] (groupModes node))).map Prod.fst := by
    rw [hnames, mergedModes_eq, List.map_map]
    rfl
  have hhead : g.modes.head? = some Mode.default_ ↔ ∀ mode ∈ (declaredModes node).map shown,
      sameRegisters (under rs Mode.default_) (under rs mode) = true →
        ['D'] <+: mode.toList → Mode.default_.toList <+: mode.toList := by
    rw [hnames]
    exact head?_mergedModes hmodes rs
  constructor
  · intro hwell
    refine ⟨fun mode hmode => ?_, hkeys ▸ hwell.nodup⟩
    rcases List.mem_cons.mp hmode with rfl | hmode
    · exact fun _ _ => List.prefix_rfl
    · exact hhead.mp hwell.default_first mode hmode
  · intro hkept
    have hnodup : g.modes.Nodup := hkeys ▸ hkept.nodup
    rw [hnames] at hnodup
    -- with different names no mode is left out of the table
    rw [lastOfEach_of_nodup hnodup] at hmembers
    refine ⟨hnames ▸ hnodup, hhead.mpr fun mode hmode => ?_, fun m hm r => ?_, fun r hr hmode => ?_⟩
    · exact hkept.default_ mode (List.mem_cons_of_mem _ hmode)
    · exact mode_of_mem_members h hm
    · obtain ⟨m, hm, s, hs, hsr⟩ :=
        exists_mem_mergedModes hmodes ((mem_registers hrs).mpr hr) hmode
      refine ⟨m.1, hnames ▸ List.mem_map_of_mem hm, s, ?_, hsr⟩
      rw [RegisterGroup.membersOf, hmembers, lookup_of_mem hm hnodup]
      exact hs

/-- **The group that is read from a node whose modes have different names is well formed exactly if
merging leaves the default mode its name and gives no name twice.**  Where no name begins with a
separator, that is so exactly if the common starts of the names that are merged are apart. -/
theorem group_wellFormed_iff {module_ node : Data} {g : RegisterGroup}
    (h : group module_ node = .ok g) (hmodes : (groupModes node).Nodup) :
    ∃ rs, registers module_ node = .ok rs ∧ (∀ r, r ∈ rs ↔ Describes module_ node r) ∧
      (WellFormed module_ node g ↔ NamesKept node rs) ∧
      ((∀ mode ∈ groupModes node, Mode.Plain mode) →
        (WellFormed module_ node g ↔ NamesApart node rs)) := by
  obtain ⟨rs, hrs⟩ := exists_registers h
  have hkept := wellFormed_iff_namesKept h hmodes hrs
  refine ⟨rs, hrs, fun r => mem_registers hrs, hkept, fun hplain => ?_⟩
  rw [hkept, namesKept_iff hmodes hplain]

/-- A module with a serial interface. -/
def serialModule : Data := .table [(.text "@name", .text "SERCOM")]

/-- The node of a register of the serial interface. -/
def serialRegister (name mode offset : String) : Data :=
  .table [(.text "@name", .text name), (.text "@modes", .text mode),
    (.text "@offset", .text offset)]

/-- The node of a mode. -/
def serialMode (name : String) : Data := .table [(.text "@name", .text name)]

/-- A group in which two modes have the same register and a third one has the common start of their
names for its name. -/
def serialGroup : Data :=
  .table [(.text "@name", .text "SERCOM"),
    (.text "mode", .list [serialMode "USART", serialMode "USART_EXT", serialMode "USART_INT"]),
    (.text "register", .list [serialRegister "CTRLA" "USART" "0",
      serialRegister "BAUD" "USART_EXT" "4", serialRegister "BAUD" "USART_INT" "4"])]

/-- The control register of the serial interface. -/
def serialControl : Register := { name := "CTRLA", owner := "SERCOM", mode := "USART" }

/-- The register for the speed of the serial interface. -/
def serialSpeed (mode : String) : Register :=
  { name := "BAUD", owner := "SERCOM", offset := 4, mode }

/-- The group as it is read: two modes have one name, and the control register is lost. -/
def serialRead : RegisterGroup :=
  { name := "SERCOM"
    owner := "SERCOM"
    modes := ["DEFAULT", "USART", "USART"]
    members := [("DEFAULT", []), ("USART", [serialSpeed "USART"])] }

theorem registers_serialGroup :
    registers serialModule serialGroup
      = .ok [serialControl, serialSpeed "USART_EXT", serialSpeed "USART_INT"] := by cbv

theorem group_serialGroup : group serialModule serialGroup = .ok serialRead := by
  have hmerged : mergedModes (groupModes serialGroup)
      [serialControl, serialSpeed "USART_EXT", serialSpeed "USART_INT"]
        = [("DEFAULT", []), ("USART", [serialControl]), ("USART", [serialSpeed "USART"])] := by cbv
  unfold group
  rw [registers_serialGroup]
  simp only [bind, Except.bind]
  rw [checkModes_of_isText (by decide), hmerged]
  rfl

/-- The modes of the serial interface have different names, so that the theorem applies to it. -/
theorem group_wellFormed_iff_serial :
    group serialModule serialGroup = .ok serialRead ∧ (groupModes serialGroup).Nodup ∧
    ∃ rs, registers serialModule serialGroup = .ok rs ∧
      (∀ r, r ∈ rs ↔ Describes serialModule serialGroup r) ∧
      (WellFormed serialModule serialGroup serialRead ↔ NamesKept serialGroup rs) ∧
      ((∀ mode ∈ groupModes serialGroup, Mode.Plain mode) →
        (WellFormed serialModule serialGroup serialRead ↔ NamesApart serialGroup rs)) :=
  ⟨group_serialGroup, by decide, group_wellFormed_iff group_serialGroup (by decide)⟩

/-- The modes of the serial interface have different names, but two modes of the group that is read
have one name, and the control register is described under a mode and listed under none. -/
theorem serial_not_wellFormed :
    (groupModes serialGroup).Nodup ∧
    ∃ g, group serialModule serialGroup = .ok g ∧ ¬ WellFormed serialModule serialGroup g ∧
      ¬ g.modes.Nodup ∧ Describes serialModule serialGroup serialControl ∧
      serialControl.mode ∈ groupModes serialGroup ∧
      ∀ mode ∈ g.modes, ∀ s ∈ g.membersOf mode, s.sameAs serialControl = false := by
  -- the name `USART` stands twice
  have hmodes : ¬ serialRead.modes.Nodup := by decide
  refine ⟨by decide, serialRead, group_serialGroup, fun h => hmodes h.nodup, hmodes, ?_, ?_, ?_⟩
  · exact (mem_registers registers_serialGroup).mp List.mem_cons_self
  · decide
  · decide

end Node

end ChipSupport
