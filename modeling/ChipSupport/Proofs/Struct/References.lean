import ChipSupport.Header.Instances
import ChipSupport.Proofs.Document.Peripheral
import ChipSupport.Proofs.Struct.Types
import ChipSupport.Proofs.Text.LetterCase

/-!
# References to the structs of groups

The struct of a group is referred to by the members that stand for nested groups, and by the base
addresses of instances.  A member names the group and the mode of the struct it stands in, and a
base address spells the name of the peripheral by itself, so that both can name types that the group
does not define.

## Main definitions

* `Convention.ownMode` — what a mode adds to the name of a type.
* `Convention.memberMode` — the mode in the type of a member.
* `Instances.castType`, `Instances.castLine` — the type that a base address is cast to.

## Main results

* `Convention.groupType_eq_iff` — when two types of a group have the same name.
* `Instances.castType_declared_iff` — when the type of a base address is declared.
* `Convention.memberType_declared_iff` — when the type of a nested group is declared.
* `Document.references_declared_iff` — **both, for the peripherals of a document.**
-/

namespace ChipSupport

namespace Convention

/-! ### Names of types -/

/-- The spelling of a part of a type's name. -/
def cased : Convention → String → String
  | .pascal _ => joinCapitalized
  | .snake => Text.lower

/-- The group's own part of the names of its types. -/
def ownPart (c : Convention) (g : RegisterGroup) : String := c.cased (dropOwner g.name g.owner)

/-- What a mode adds to the name of a type: nothing if it is the default mode, or if the group's own
part begins with it. -/
def ownMode (c : Convention) (g : RegisterGroup) (mode : String) : Option String :=
  if Mode.isDefault mode
      || !(c.ownPart g).isEmpty && (c.cased mode).toList.isPrefixOf (c.ownPart g).toList then none
  else some (c.cased mode)

/-- The name of a type, from the names of the owner and of the group and what the mode adds. -/
def typeName (c : Convention) (owner part : String) (own : Option String) : String :=
  match c, own with
  | .pascal _, none => if part.isEmpty then owner else owner ++ part ++ "_t"
  | .pascal _, some own => owner ++ own ++ part ++ "_t"
  | .snake, none => (if part.isEmpty then owner else owner ++ "_") ++ part ++ "_registers_t"
  | .snake, some own =>
    if part.isEmpty then owner ++ "_" ++ own ++ "_registers_t"
    else owner ++ "_" ++ part ++ "_" ++ own ++ "_registers_t"

variable {g : RegisterGroup}

theorem eq_empty_of_isPrefixOf {s part : String} (hpart : part.isEmpty = true)
    (h : s.toList.isPrefixOf part.toList = true) : s = "" := by
  rw [String.isEmpty_iff] at hpart
  rw [hpart, List.isPrefixOf_iff_prefix] at h
  exact String.toList_eq_nil_iff.mp (List.prefix_nil.mp h)

/-- The name of a type depends on the mode by what it adds. -/
theorem groupType_eq (c : Convention) (mode : String) :
    c.groupType g mode = c.typeName (c.cased g.owner) (c.ownPart g) (c.ownMode g mode) := by
  cases c with
  | pascal qualify =>
    simp only [groupType, groupName, pascalGroup, ownMode, ownPart, cased]
    by_cases hdefault : Mode.isDefault mode = true
    · simp [typeName, hdefault]
    · by_cases hstarts : (joinCapitalized mode).toList.isPrefixOf
        (joinCapitalized (dropOwner g.name g.owner)).toList = true
      · by_cases hempty : (joinCapitalized (dropOwner g.name g.owner)).isEmpty = true
        · -- only an empty mode is the beginning of an empty name
          have hmode := eq_empty_of_isPrefixOf hempty hstarts
          simp [typeName, hdefault, hempty, hmode]
        · simp [typeName, hdefault, hstarts, hempty]
      · simp [typeName, hdefault, hstarts]
  | snake =>
    simp only [groupType, groupName, snakeGroup, ownMode, ownPart, cased]
    by_cases hdefault : Mode.isDefault mode = true
    · simp [typeName, hdefault]
    · by_cases hempty : (Text.lower (dropOwner g.name g.owner)).isEmpty = true
      · simp [typeName, hdefault, hempty]
      · by_cases hstarts : (Text.lower mode).toList.isPrefixOf
          (Text.lower (dropOwner g.name g.owner)).toList = true
        · simp [typeName, hdefault, hempty, hstarts]
        · simp [typeName, hdefault, hempty, hstarts]

/-- What a mode adds to a type of a group with a name of its own is not empty. -/
theorem ne_empty_of_ownMode {c : Convention} {mode own : String} (h : c.ownMode g mode = some own)
    (hpart : (c.ownPart g).isEmpty = false) : own ≠ "" := by
  rintro rfl
  unfold ownMode at h
  split at h
  · cases h
  · next hnot =>
    rw [Option.some.inj h, hpart] at hnot
    simp at hnot

theorem typeName_none_ne {c : Convention} (owner : String) {part own : String}
    (h : part.isEmpty = false → own ≠ "") :
    c.typeName owner part none ≠ c.typeName owner part (some own) := by
  intro heq
  have hlength := congrArg String.length heq
  cases hpart : part.isEmpty with
  | true =>
    have hone : "_".length = 1 := rfl
    have htwo : "_t".length = 2 := rfl
    rw [String.isEmpty_iff] at hpart
    cases c with
    | pascal qualify =>
      simp [typeName, hpart] at hlength
      omega
    | snake =>
      simp [typeName, hpart] at hlength
      omega
  | false =>
    have hown : own.length ≠ 0 := by
      rw [Ne, String.length_eq_zero_iff]
      exact h hpart
    cases c with
    | pascal qualify =>
      simp only [typeName, hpart, Bool.false_eq_true, if_false, String.length_append] at hlength
      omega
    | snake =>
      simp only [typeName, hpart, Bool.false_eq_true, if_false, String.length_append] at hlength
      omega

theorem typeName_some_inj {c : Convention} {owner part own own' : String}
    (h : c.typeName owner part (some own) = c.typeName owner part (some own')) : own = own' := by
  cases c with
  | pascal qualify => simpa [typeName] using h
  | snake =>
    cases hpart : part.isEmpty with
    | true => simpa [typeName, hpart] using h
    | false => simpa [typeName, hpart] using h

/-- **Two types of a group have the same name exactly if their modes add the same to it.** -/
theorem groupType_eq_iff {c : Convention} {mode mode' : String} :
    c.groupType g mode = c.groupType g mode' ↔ c.ownMode g mode = c.ownMode g mode' := by
  rw [groupType_eq, groupType_eq]
  constructor
  · intro heq
    cases hown : c.ownMode g mode with
    | none =>
      cases hown' : c.ownMode g mode' with
      | none => rfl
      | some own' =>
        rw [hown, hown'] at heq
        exact absurd heq (typeName_none_ne _ (ne_empty_of_ownMode hown'))
    | some own =>
      cases hown' : c.ownMode g mode' with
      | none =>
        rw [hown, hown'] at heq
        exact absurd heq.symm (typeName_none_ne _ (ne_empty_of_ownMode hown))
      | some own' =>
        rw [hown, hown'] at heq
        rw [typeName_some_inj heq]
  · intro heq
    rw [heq]

/-! ### Members that stand for nested groups -/

/-- The mode in the type of a member.  In the capitalized convention a member of no particular mode
keeps its own. -/
def memberMode (c : Convention) (r : Register) (mode : String) : String :=
  match c with
  | .snake => mode
  | .pascal _ => if Mode.isDefault r.mode then r.mode else mode

theorem memberType_alias (c : Convention) {r : Register} (halias : r.isAlias = true)
    (mode : String) : c.memberType r mode = c.groupName r.name r.owner (c.memberMode r mode) := by
  cases c with
  | pascal qualify => rw [memberType, registerType, if_pos halias, memberMode]
  | snake => rw [memberType, registerType, if_pos halias, memberMode]

/-- **The type of a member for a nested group is declared exactly if the nested group has a type
whose mode adds the same to its name.** -/
theorem memberType_declared_iff (style : Style) {r : Register} {sub : RegisterGroup}
    (halias : r.isAlias = true) (hname : sub.name = r.name) (howner : sub.owner = r.owner)
    (mode : String) :
    style.convention.memberType r mode ∈ GroupStruct.typeNames sub style ↔
      ∃ m ∈ GroupStruct.typeModes sub, style.convention.ownMode sub m
        = style.convention.ownMode sub (style.convention.memberMode r mode) := by
  rw [memberType_alias _ halias, ← hname, ← howner, GroupStruct.typeNames, List.mem_map]
  constructor
  · rintro ⟨m, hm, htype⟩
    exact ⟨m, hm, groupType_eq_iff.mp htype⟩
  · rintro ⟨m, hm, hown⟩
    exact ⟨m, hm, groupType_eq_iff.mpr hown⟩

/-! ### Groups at base addresses -/

theorem dropOwner_self (name : String) : dropOwner name name = "" := by
  unfold dropOwner
  split
  · next h =>
    rw [Bool.or_eq_true, Bool.not_eq_true', String.isEmpty_iff] at h
    rcases h with h | h
    · exact h
    · rw [List.isPrefixOf_iff_prefix.mpr List.prefix_rfl] at h
      cases h
  · have hdrop : name.toList.drop name.length = [] := by
      rw [← String.length_toList, List.drop_length]
    rw [hdrop]

theorem ownPart_of_name_eq (c : Convention) (h : g.name = g.owner) : c.ownPart g = "" := by
  rw [ownPart, h, dropOwner_self]
  cases c with
  | pascal qualify => rfl
  | snake => rfl

theorem ownMode_of_name_eq (c : Convention) (h : g.name = g.owner) (mode : String) :
    c.ownMode g mode = if Mode.isDefault mode then none else some (c.cased mode) := by
  have hempty : (c.ownPart g).isEmpty = true := by rw [ownPart_of_name_eq c h]; rfl
  rw [ownMode, hempty, Bool.not_true, Bool.false_and, Bool.or_false]

end Convention

namespace GroupStruct

variable {g : RegisterGroup}

/-- A group whose types include one of no particular mode: its only struct, or the union of its
structs. -/
def HasPlainType (g : RegisterGroup) : Prop :=
  (∃ mode, g.modes = [mode] ∧ Mode.isDefault mode = true) ∨ 2 < g.modes.length

/-- A group with registers has a type of no particular mode unless it has exactly two modes, or one
that is not the default mode. -/
theorem exists_default_iff (h : g.allMembers ≠ []) :
    (∃ mode ∈ typeModes g, Mode.isDefault mode = true) ↔ HasPlainType g := by
  constructor
  · rintro ⟨mode, hmode, hdefault⟩
    rw [typeModes, List.mem_append] at hmode
    rcases hmode with hshown | hunion
    · rw [shownModes, List.mem_filter, hdefault, Bool.and_true, Bool.and_eq_true,
        Bool.not_eq_true', Bool.not_eq_true', decide_eq_false_iff_not] at hshown
      obtain ⟨hmem, -, hone⟩ := hshown
      cases hmodes : g.modes with
      | nil =>
        rw [hmodes] at hmem
        cases hmem
      | cons only rest =>
        cases rest with
        | nil =>
          rw [hmodes, List.mem_singleton] at hmem
          exact .inl ⟨mode, by rw [hmodes, hmem], hdefault⟩
        | cons other rest =>
          rw [hmodes] at hone
          exact absurd (by simp) hone
    · split at hunion
      · exact .inr ‹_›
      · cases hunion
  · rintro (⟨mode, hmodes, hdefault⟩ | htwo)
    · refine ⟨mode, List.mem_append_left _ ?_, hdefault⟩
      have hmembers : g.membersOf mode ≠ [] := by
        rwa [RegisterGroup.allMembers, hmodes, List.flatMap_singleton] at h
      simp [shownModes, hmodes, hmembers]
    · refine ⟨"", List.mem_append_right _ ?_, rfl⟩
      rw [if_pos htwo]
      exact List.mem_cons_self

end GroupStruct

namespace Instances

/-- The type that the base addresses of a peripheral are cast to. -/
def castType (p : Peripheral) (style : Style) : String :=
  match style.baseAddresses with
  | .pointers => Text.capitalized p.name
  | .regs => Text.lower p.name ++ "_registers_t"

/-- The definition of the base address of an instance for compilers. -/
def castLine (p : Peripheral) (i : Instance) (style : Style) : Line :=
  match style.baseAddresses with
  | .pointers =>
    .define i.name
      ("(" ++ ("(" ++ Text.fillTo (castType p style) 12 ++ "*)") ++ "0x"
        ++ Numeral.hex i.baseAddress ++ "UL)") (baseNote i)
  | .regs =>
    .define (i.name ++ "_REGS")
      ("((" ++ castType p style ++ ")0x" ++ Numeral.hex i.baseAddress ++ "UL)")
      (i.name ++ " Instance Register Address")

variable {p : Peripheral}

theorem exists_instance (hexternal : p.isCoreInternal = false) : ∃ i, i ∈ p.usableInstances := by
  unfold Peripheral.isCoreInternal at hexternal
  split at hexternal
  · next i rest hinstances => exact ⟨i, by rw [hinstances]; exact List.mem_cons_self⟩
  · cases hexternal

/-- The base address of every instance of an external peripheral is cast to the type. -/
theorem castLine_mem_baseLines {ps : List Peripheral} (hp : p ∈ ps)
    (hexternal : p.isCoreInternal = false) {i : Instance} (hi : i ∈ p.usableInstances)
    (style : Style) : castLine p i style ∈ baseLines ps style := by
  have hshown : p ∈ external ps := by
    rw [external, List.mem_filter, hexternal]
    exact ⟨hp, rfl⟩
  unfold baseLines castLine castType
  cases style.baseAddresses with
  | pointers =>
    refine List.mem_append_right _ (List.mem_append_left _ (List.mem_append_right _ ?_))
    refine List.mem_flatMap.mpr ⟨p, hshown, ?_⟩
    unfold pointerLines
    split
    · next hnone =>
      rw [hnone] at hi
      cases hi
    · exact List.mem_append_left _ (List.mem_map.mpr ⟨i, hi, rfl⟩)
  | regs =>
    refine List.mem_append_right _ (List.mem_append_left _ (List.mem_append_left _
      (List.mem_append_left _ (List.mem_append_right _ ?_))))
    refine List.mem_flatMap.mpr ⟨p, hshown, List.mem_map.mpr ⟨i, hi, ?_⟩⟩
    have hending : "_registers_t)0x" = "_registers_t" ++ ")0x" := rfl
    rw [hending]
    simp only [String.append_assoc]

variable {base : RegisterGroup} (hname : base.name = p.name) (howner : base.owner = p.name)
include hname howner

/-- In the legacy style a base address is cast to the type of no particular mode, unless the name of
the peripheral has an underscore.  The cast keeps it, and the names of types do not. -/
theorem castType_legacy_eq_iff (mode : String) :
    Style.legacy.convention.groupType base mode = castType p Style.legacy ↔
      Mode.isDefault mode = true ∧ '_' ∉ p.name.toList := by
  rw [Convention.groupType_eq, Convention.ownPart_of_name_eq _ (hname.trans howner.symm),
    Convention.ownMode_of_name_eq _ (hname.trans howner.symm), howner, castType]
  by_cases hdefault : Mode.isDefault mode = true
  · rw [if_pos hdefault]
    change joinCapitalized p.name = Text.capitalized p.name ↔ _
    rw [eq_comm, capitalized_eq_joinCapitalized_iff]
    simp [hdefault]
  · rw [if_neg hdefault]
    change joinCapitalized p.name ++ joinCapitalized mode ++ "" ++ "_t"
      = Text.capitalized p.name ↔ _
    refine iff_of_false (fun heq => ?_) (fun h => hdefault h.1)
    rw [String.append_empty] at heq
    by_cases hmark : '_' ∈ p.name.toList
    · exact capitalized_ne_append _ hmark (underscore_notMem_joinCapitalized mode) heq.symm
    · rw [capitalized_eq_joinCapitalized_iff.mpr hmark] at heq
      have hlength := congrArg String.length heq
      have hending : "_t".length = 2 := rfl
      rw [String.length_append, String.length_append] at hlength
      omega

/-- In the lower case convention the cast is spelled like the type of no particular mode. -/
theorem castType_microchip_eq_iff (mode : String) :
    Style.microchip.convention.groupType base mode = castType p Style.microchip ↔
      Mode.isDefault mode = true := by
  have hplain : castType p Style.microchip = Convention.snake.groupType base "" := by
    rw [Convention.groupType_eq, Convention.ownPart_of_name_eq _ (hname.trans howner.symm),
      Convention.ownMode_of_name_eq _ (hname.trans howner.symm), howner]
    change _ = Text.lower p.name ++ "" ++ "_registers_t"
    rw [String.append_empty]
    rfl
  rw [hplain]
  change Convention.snake.groupType base mode = _ ↔ _
  rw [Convention.groupType_eq_iff, Convention.ownMode_of_name_eq _ (hname.trans howner.symm),
    Convention.ownMode_of_name_eq _ (hname.trans howner.symm)]
  have hempty : Mode.isDefault "" = true := rfl
  rw [if_pos hempty]
  by_cases hdefault : Mode.isDefault mode = true
  · simp [hdefault]
  · simp [hdefault]

/-- **The type that a base address is cast to is declared exactly if the base group has a type of no
particular mode and, in the legacy style, the name of the peripheral has no underscore.** -/
theorem castType_declared_iff (hmembers : base.allMembers ≠ []) {style : Style}
    (hstyle : style = Style.legacy ∨ style = Style.microchip) :
    castType p style ∈ GroupStruct.typeNames base style ↔
      GroupStruct.HasPlainType base ∧ (style = Style.legacy → '_' ∉ p.name.toList) := by
  rw [← GroupStruct.exists_default_iff hmembers, GroupStruct.typeNames, List.mem_map]
  rcases hstyle with rfl | rfl
  · constructor
    · rintro ⟨mode, hmode, htype⟩
      obtain ⟨hdefault, hmark⟩ := (castType_legacy_eq_iff hname howner mode).mp htype
      exact ⟨⟨mode, hmode, hdefault⟩, fun _ => hmark⟩
    · rintro ⟨⟨mode, hmode, hdefault⟩, hmark⟩
      exact ⟨mode, hmode, (castType_legacy_eq_iff hname howner mode).mpr ⟨hdefault, hmark rfl⟩⟩
  · have hother : Style.microchip ≠ Style.legacy := by
      intro heq
      have hnames := congrArg Style.name heq
      exact absurd hnames (by decide)
    constructor
    · rintro ⟨mode, hmode, htype⟩
      exact ⟨⟨mode, hmode, (castType_microchip_eq_iff hname howner mode).mp htype⟩,
        fun heq => absurd heq hother⟩
    · rintro ⟨⟨mode, hmode, hdefault⟩, -⟩
      exact ⟨mode, hmode, (castType_microchip_eq_iff hname howner mode).mpr hdefault⟩

end Instances

namespace Document

/-- **The types that base addresses and members for nested groups refer to are declared exactly
under these conditions**, for every peripheral of a document that does not belong to the core. -/
theorem references_declared_iff {doc : Document} {name : String} {p : Peripheral}
    (h : doc.peripheral (.text name) = .ok p) (hexternal : p.isCoreInternal = false) {style : Style}
    (hstyle : style = Style.legacy ∨ style = Style.microchip) :
    (∀ g ∈ p.groups, ∃ block, GroupStruct.lines g style = .ok block ∧
      GroupStruct.Declares block (GroupStruct.typeNames g style)) ∧
    (∃ i, i ∈ p.usableInstances) ∧
    (∀ ps, p ∈ ps → ∀ i ∈ p.usableInstances,
      Instances.castLine p i style ∈ Instances.baseLines ps style) ∧
    (∀ base ∈ p.groups, base.name = p.name → base.allMembers ≠ [] →
      (Instances.castType p style ∈ GroupStruct.typeNames base style ↔
        GroupStruct.HasPlainType base ∧ (style = Style.legacy → '_' ∉ name.toList))) ∧
    ∀ g ∈ p.groups, ∀ mode, ∀ r ∈ g.structMembers mode, r.isAlias = true →
      ∀ sub ∈ p.groups, sub.name = r.name →
        (style.convention.memberType r mode ∈ GroupStruct.typeNames sub style ↔
          ∃ m ∈ GroupStruct.typeModes sub, style.convention.ownMode sub m
            = style.convention.ownMode sub (style.convention.memberMode r mode)) := by
  have hpresets : style ∈ Style.presets := by
    rcases hstyle with rfl | rfl
    · exact List.mem_cons_self
    · exact List.mem_cons_of_mem _ (List.mem_cons_of_mem _ List.mem_cons_self)
  obtain ⟨deviceNode, module_, hread, hnode, hmodule⟩ := exists_parts h
  have hname : p.name = name := (Node.peripheral_eq_ok hread).1.trans hnode
  -- all groups and their registers belong to the module
  have howner : ∀ g ∈ p.groups, g.owner = name := by
    intro g hg
    obtain ⟨node, hgroup⟩ := Node.exists_group hread hg
    rw [Node.owner_group hgroup, hmodule]
  refine ⟨fun g _ => GroupStruct.declares_lines hpresets g, Instances.exists_instance hexternal,
    fun ps hp i hi => Instances.castLine_mem_baseLines hp hexternal hi style, ?_, ?_⟩
  · intro base hbase hbaseName hmembers
    rw [← hname]
    exact Instances.castType_declared_iff hbaseName ((howner base hbase).trans hname.symm) hmembers
      hstyle
  · intro g hg mode r hr halias sub hsub hsubName
    obtain ⟨node, hgroup⟩ := Node.exists_group hread hg
    have hregister : r.owner = name := by
      rw [← hmodule]
      rcases RegisterGroup.mem_structMembers hr with hr | hr
      · exact Node.owner_of_mem_membersOf hgroup hr
      · exact Node.owner_of_mem_membersOf hgroup hr
    exact Convention.memberType_declared_iff style halias hsubName
      ((howner sub hsub).trans hregister.symm) mode

/-- The base group of a host interface with two modes.  The pipes of no particular mode are a nested
group. -/
def hostNode : Data :=
  .table [(.text "@name", .text "USB_HOST"), (.text "@size", .text "8"),
    (.text "mode", .list [.table [(.text "@name", .text "FULL")],
      .table [(.text "@name", .text "HIGH")]]),
    (.text "register", .list
      [.table [(.text "@name", .text "CTRLA"), (.text "@modes", .text "FULL")],
        .table [(.text "@name", .text "CTRLB"), (.text "@modes", .text "HIGH")]]),
    (.text "register-group", .table [(.text "@name", .text "PIPE"), (.text "@offset", .text "4"),
      (.text "@size", .text "2")])]

/-- The group of a pipe. -/
def pipeNode : Data :=
  .table [(.text "@name", .text "PIPE"), (.text "@size", .text "2"),
    (.text "register", .table [(.text "@name", .text "PCFG")])]

/-- The module of the host interface. -/
def hostModule : Data :=
  .table [(.text "@name", .text "USB_HOST"), (.text "register-group", .list [hostNode, pipeNode])]

/-- The host interface in the device, with an instance. -/
def hostDevice : Data :=
  .table [(.text "@name", .text "USB_HOST"),
    (.text "instance", .table [(.text "@name", .text "USB_HOST"),
      (.text "register-group", .table [(.text "@name", .text "USB_HOST"),
        (.text "@offset", .text "0x41000000")]),
      (.text "signals", .table []), (.text "parameters", .table [])])]

/-- A document with the host interface. -/
def hostDocument : Document :=
  { source := "usb.atdf"
    deviceNode := .table [(.text "peripherals", .table [(.text "module", hostDevice)])]
    modulesNode := .table [(.text "module", hostModule)] }

/-- The pipes as a member of the base group. -/
def hostPipes : Register :=
  { name := "PIPE", owner := "USB_HOST", offset := 4, size := 2, isAlias := true }

/-- The base group as it is read. -/
def hostGroup : RegisterGroup :=
  { name := "USB_HOST"
    owner := "USB_HOST"
    size := 8
    modes := ["DEFAULT", "FULL", "HIGH"]
    members := [("DEFAULT", [hostPipes]),
      ("FULL", [{ name := "CTRLA", owner := "USB_HOST", mode := "FULL" }]),
      ("HIGH", [{ name := "CTRLB", owner := "USB_HOST", mode := "HIGH" }])] }

/-- The group of a pipe as it is read. -/
def pipeGroup : RegisterGroup :=
  { name := "PIPE"
    owner := "USB_HOST"
    size := 2
    members := [("DEFAULT", [{ name := "PCFG", owner := "USB_HOST" }])] }

/-- The host interface as it is read. -/
def hostRead : Peripheral :=
  { name := "USB_HOST"
    groups := [hostGroup, pipeGroup]
    instances := some [{ name := "USB_HOST", baseAddress := 0x41000000 }] }

theorem group_hostNode : Node.group hostModule hostNode = .ok hostGroup := by
  have hregisters : Node.registers hostModule hostNode
      = .ok [{ name := "CTRLA", owner := "USB_HOST", mode := "FULL" },
          { name := "CTRLB", owner := "USB_HOST", mode := "HIGH" }, hostPipes] := by cbv
  have hmerged : Node.mergedModes (Node.groupModes hostNode)
      [{ name := "CTRLA", owner := "USB_HOST", mode := "FULL" },
        { name := "CTRLB", owner := "USB_HOST", mode := "HIGH" }, hostPipes]
        = hostGroup.members := by cbv
  have hsize : Node.numberAttribute hostNode "size" = .ok 8 := by cbv
  unfold Node.group
  rw [hregisters]
  simp only [bind, Except.bind]
  rw [Node.checkModes_of_isText (by decide), hmerged, hsize]
  rfl

theorem group_pipeNode : Node.group hostModule pipeNode = .ok pipeGroup := by
  have hregisters : Node.registers hostModule pipeNode
      = .ok [{ name := "PCFG", owner := "USB_HOST" }] := by cbv
  have hsize : Node.numberAttribute pipeNode "size" = .ok 2 := by cbv
  unfold Node.group
  rw [hregisters]
  simp only [bind, Except.bind]
  rw [Node.checkModes_of_isText (by decide), hsize]
  rfl

theorem peripheral_hostDocument : hostDocument.peripheral (.text "USB_HOST") = .ok hostRead := by
  have hparts : hostDocument.peripheralParts (.text "USB_HOST") = .ok (hostDevice, hostModule) := by
    cbv
  have hgroups : (Node.children hostModule "register-group").mapM (Node.group hostModule)
      = .ok [hostGroup, pipeGroup] := by
    have hchildren : Node.children hostModule "register-group" = [hostNode, pipeNode] := rfl
    rw [hchildren, List.mapM_cons, List.mapM_cons, group_hostNode, group_pipeNode]
    rfl
  have hinstances : (Node.children hostDevice "instance").mapM Node.inst
      = .ok [{ name := "USB_HOST", baseAddress := 0x41000000 }] := by decide +kernel
  rw [peripheral, hparts]
  simp only [bind, Except.bind]
  unfold Node.peripheral
  rw [hgroups, hinstances]
  rfl

/-- The document with the host interface is one to which the theorem applies. -/
theorem references_declared_iff_host :
    hostDocument.peripheral (.text "USB_HOST") = .ok hostRead ∧ hostRead.isCoreInternal = false ∧
    (Style.legacy = Style.legacy ∨ Style.legacy = Style.microchip) ∧
    (∀ g ∈ hostRead.groups, ∃ block, GroupStruct.lines g Style.legacy = .ok block ∧
      GroupStruct.Declares block (GroupStruct.typeNames g Style.legacy)) ∧
    (∃ i, i ∈ hostRead.usableInstances) ∧
    (∀ ps, hostRead ∈ ps → ∀ i ∈ hostRead.usableInstances,
      Instances.castLine hostRead i Style.legacy ∈ Instances.baseLines ps Style.legacy) ∧
    (∀ base ∈ hostRead.groups, base.name = hostRead.name → base.allMembers ≠ [] →
      (Instances.castType hostRead Style.legacy ∈ GroupStruct.typeNames base Style.legacy ↔
        GroupStruct.HasPlainType base ∧
          (Style.legacy = Style.legacy → '_' ∉ "USB_HOST".toList))) ∧
    ∀ g ∈ hostRead.groups, ∀ mode, ∀ r ∈ g.structMembers mode, r.isAlias = true →
      ∀ sub ∈ hostRead.groups, sub.name = r.name →
        (Style.legacy.convention.memberType r mode ∈ GroupStruct.typeNames sub Style.legacy ↔
          ∃ m ∈ GroupStruct.typeModes sub, Style.legacy.convention.ownMode sub m
            = Style.legacy.convention.ownMode sub (Style.legacy.convention.memberMode r mode)) :=
  ⟨peripheral_hostDocument, by decide, .inl rfl,
    references_declared_iff peripheral_hostDocument (by decide) (.inl rfl)⟩

/-- The base address of the host interface is cast to a type that its group does not define in the
legacy style, and its pipes are of types that their group does not define in the microchip style. -/
theorem host_not_declared :
    hostDocument.peripheral (.text "USB_HOST") = .ok hostRead ∧ hostRead.isCoreInternal = false ∧
    (hostGroup ∈ hostRead.groups ∧ hostGroup.name = hostRead.name ∧ hostGroup.allMembers ≠ [] ∧
      Instances.castType hostRead Style.legacy = "Usb_host" ∧
      GroupStruct.typeNames hostGroup Style.legacy
        = ["UsbHostFull_t", "UsbHostHigh_t", "UsbHost"] ∧
      Instances.castType hostRead Style.legacy ∉ GroupStruct.typeNames hostGroup Style.legacy) ∧
    ("FULL" ∈ GroupStruct.shownModes hostGroup ∧ hostPipes ∈ hostGroup.structMembers "FULL" ∧
      hostPipes.isAlias = true ∧ pipeGroup ∈ hostRead.groups ∧ pipeGroup.name = hostPipes.name ∧
      pipeGroup.allMembers ≠ [] ∧
      Style.microchip.convention.memberType hostPipes "FULL" = "usb_host_pipe_full_registers_t" ∧
      GroupStruct.typeNames pipeGroup Style.microchip = ["usb_host_pipe_registers_t"] ∧
      Style.microchip.convention.memberType hostPipes "FULL"
        ∉ GroupStruct.typeNames pipeGroup Style.microchip) := by
  have hcast : Instances.castType hostRead Style.legacy = "Usb_host" := by decide +kernel
  have hhost : GroupStruct.typeNames hostGroup Style.legacy
      = ["UsbHostFull_t", "UsbHostHigh_t", "UsbHost"] := by decide +kernel
  have hmember : Style.microchip.convention.memberType hostPipes "FULL"
      = "usb_host_pipe_full_registers_t" := by decide +kernel
  have hpipe : GroupStruct.typeNames pipeGroup Style.microchip
      = ["usb_host_pipe_registers_t"] := by decide +kernel
  have hpipes : hostPipes ∈ hostGroup.structMembers "FULL" := by
    rw [RegisterGroup.structMembers, if_pos (by decide), Register.sorted, List.mem_mergeSort]
    decide
  refine ⟨peripheral_hostDocument, by decide,
    ⟨List.mem_cons_self, rfl, by decide, hcast, hhost, ?_⟩,
    ⟨by decide, hpipes, rfl, List.mem_cons_of_mem _ List.mem_cons_self, rfl, by decide, hmember,
      hpipe, ?_⟩⟩
  · rw [hcast, hhost]
    decide
  · rw [hmember, hpipe]
    decide

end Document

end ChipSupport
