import ChipSupport.Arm.Header
import ChipSupport.Proofs.Document.Peripheral
import ChipSupport.Proofs.RegisterBlock.ClosedForm
import ChipSupport.Proofs.Struct.Types

/-!
# Register unions in component headers

In styles with register unions the members of group structs are of types that the blocks of the
registers define.  The union of a register is named after the mode that the register is listed
under, and the member after the mode of the struct.  Both names are the same because a register that
is read carries the mode that it is listed under, and because registers of no particular mode keep
their own names in the structs of modes.

## Main definitions

* `DeclaresUnion` — lines that declare a union of a name.

## Main results

* `RegisterBlock.exists_lines_union` — the block of a register begins with its union.
* `RegisterGroup.memberType_of_mem` — a member is of the type of the union.
* `ComponentHeader.memberTypes_declared` — **the type of every register in a struct is a union that
  the header declares before all structs.**
-/

namespace ChipSupport

/-- Lines that declare a union of a name. -/
def DeclaresUnion (block : List Line) (name : String) : Prop :=
  ∃ u : TypeDefinition, u.kind = .union ∧ u.name = name ∧ u.lines <:+: block

theorem DeclaresUnion.mono {block block' : List Line} {name : String} (h : DeclaresUnion block name)
    (hwithin : block <:+: block') : DeclaresUnion block' name := by
  obtain ⟨u, hkind, hname, hlines⟩ := h
  exact ⟨u, hkind, hname, hlines.trans hwithin⟩

namespace RegisterBlock

/-! ### The union of a register -/

variable {style : Style} (h : style.layouts.Standard)
include h

/-- A struct of bits is written as indented lines. -/
theorem exists_bits (fields : List Field) (r : Register) (name : String) :
    ∃ bits : List String, structLines fields r name style = .ok (bits.map Line.text) ∧
      ∀ line ∈ bits, Text.Indented line := by
  obtain ⟨bits, hbits⟩ :=
    Layouts.exists_bitfieldStruct h (Field.layout fields r.bitWidth) r.integerType name
  exact ⟨bits, by rw [structLines, hbits]; rfl, Layouts.indented_bitfieldStruct h hbits⟩

/-- The structs of bits of several modes are written as indented lines. -/
theorem exists_modeBits (r : Register) (modes : List (String × List Bitfield)) :
    ∃ (blocks : List (List Line)) (bits : List String),
      (modes.mapM fun m =>
        structLines (m.2.map fun f => .named f.toNamed) r (structName m.1) style) = .ok blocks ∧
      blocks.flatten = bits.map Line.text ∧ ∀ line ∈ bits, Text.Indented line := by
  induction modes with
  | nil => exact ⟨[], [], rfl, rfl, by simp⟩
  | cons m rest ih =>
    obtain ⟨first, hfirst, hfirstIndented⟩ :=
      exists_bits h (m.2.map fun f => .named f.toNamed) r (structName m.1)
    obtain ⟨blocks, bits, hblocks, hbits, hindented⟩ := ih
    refine ⟨first.map Line.text :: blocks, first ++ bits, ?_, ?_, ?_⟩
    · rw [List.mapM_cons, hfirst, hblocks]
      rfl
    · rw [List.flatten_cons, hbits, List.map_append]
    · intro line hline
      exact (List.mem_append.mp hline).elim (hfirstIndented line) (hindented line)

/-- The lines of a register's union are those of a type definition. -/
theorem exists_union (r : Register) (groupMode : String) (modes : List (String × List Bitfield))
    (vectors : List Field) :
    ∃ u : TypeDefinition, unionLines r groupMode modes vectors style = .ok u.lines ∧
      u.kind = .union ∧ u.name = style.convention.registerType r groupMode := by
  obtain ⟨whole, hwhole⟩ := Layouts.exists_regMember h r.integerType
  obtain ⟨structs, fields, hstructs, hfields, hfieldsIndented⟩ :=
    exists_modeBits h r (modes.filter fun m => !(m.2.isEmpty && style.coalesceModes))
  obtain ⟨bits, hbits, hbitsIndented⟩ := exists_bits h vectors r "vec"
  obtain ⟨shown, hshown, hshownIndented⟩ : ∃ shown : List String,
      (if vectors.isEmpty then [] else bits.map Line.text) = shown.map Line.text ∧
      ∀ line ∈ shown, Text.Indented line := by
    cases vectors.isEmpty with
    | true => exact ⟨[], rfl, by simp⟩
    | false => exact ⟨bits, rfl, hbitsIndented⟩
  have hmembers : ∀ line ∈ fields ++ shown ++ [whole], Text.Indented line := by
    intro line hline
    simp only [List.mem_append, List.mem_singleton] at hline
    rcases hline with (hline | hline) | rfl
    · exact hfieldsIndented line hline
    · exact hshownIndented line hline
    · exact Layouts.indented_regMember h hwhole
  refine ⟨⟨.union, fields ++ shown ++ [whole], style.convention.registerType r groupMode, 0,
    hmembers⟩, ?_, rfl, rfl⟩
  rw [unionLines_eq (Layouts.unionOpen_eq h) hstructs hbits hwhole (Layouts.typedefClose_eq h _ _),
    hshown, hfields]
  simp [TypeDefinition.lines]

/-- The block of a register declares its union. -/
theorem exists_lines_union (hunions : style.registerUnions = true) (r : Register)
    (groupMode start : String) :
    ∃ block, lines r groupMode start style = .ok block ∧
      DeclaresUnion block (style.convention.registerType r groupMode) := by
  let name := style.convention.qualifiedRegisterName r groupMode start
  let modes := r.modeTable style.coalesceModes
  obtain ⟨title, htitle⟩ := Layouts.exists_registerCaption h r name
  obtain ⟨u, hunion, hkind, hname⟩ := exists_union h r groupMode modes (vectorsOf modes style)
  have hshown : (if style.registerUnions then
      unionLines r groupMode modes (vectorsOf modes style) style else pure []) = .ok u.lines := by
    rw [hunions, if_pos rfl, hunion]
  refine ⟨_, lines_eq h r groupMode start htitle hshown, u, hkind, hname, ?_⟩
  rw [List.append_assoc, List.append_assoc]
  exact (List.prefix_append u.lines _).isInfix.trans (List.suffix_cons _ _).isInfix

end RegisterBlock

/-! ### Members as they are read -/

namespace RegisterGroup

/-- **A register of a struct is of the type that is named after the mode it is listed under.** -/
theorem memberType_of_mem {module_ node : Data} {g : RegisterGroup}
    (h : Node.group module_ node = .ok g) {mode : String} {r : Register}
    (hr : r ∈ g.structMembers mode) (qualify : Bool) :
    r ∈ g.membersOf r.mode ∧ r.mode ∈ g.modes ∧
      (Convention.pascal qualify).memberType r mode
        = (Convention.pascal qualify).registerType r r.mode := by
  rcases mem_structMembers hr with hr | hr
  · obtain ⟨rfl, hmem⟩ := Node.mode_of_mem_membersOf h hr
    refine ⟨hr, hmem, ?_⟩
    rw [Convention.memberType, ite_self]
  · obtain ⟨hmode, hmem⟩ := Node.mode_of_mem_membersOf h hr
    rw [Convention.memberType, hmode]
    exact ⟨hr, hmem, rfl⟩

end RegisterGroup

namespace ComponentHeader

variable {style : Style}

/-- The blocks of the registers of a group declare the unions of all its registers. -/
theorem exists_registerLines (h : style.layouts.Standard) (hunions : style.registerUnions = true)
    (g : RegisterGroup) :
    ∃ block, registerLines g style = .ok block ∧
      ∀ mode ∈ g.modes, ∀ r ∈ g.membersOf mode, r.isAlias = false →
        DeclaresUnion block (style.convention.registerType r mode) := by
  have hmode : ∀ mode ∈ g.modes, ∃ block,
      (do let lines ← ((g.membersOf mode).filter fun r : Register => !r.isAlias).mapM fun r =>
            RegisterBlock.lines r mode g.memberStart style
          return lines.flatten) = .ok block ∧
      ∀ r ∈ g.membersOf mode, r.isAlias = false →
        DeclaresUnion block (style.convention.registerType r mode) := by
    intro mode _
    obtain ⟨blocks, hblocks, hall⟩ := Steps.exists_mapM_forall₂
      fun r (_ : r ∈ (g.membersOf mode).filter fun r => !r.isAlias) =>
        RegisterBlock.exists_lines_union h hunions r mode g.memberStart
    refine ⟨blocks.flatten, by rw [hblocks]; rfl, fun r hr halias => ?_⟩
    have hshown : r ∈ (g.membersOf mode).filter fun r => !r.isAlias := by
      rw [List.mem_filter, halias]
      exact ⟨hr, rfl⟩
    obtain ⟨block, hblock, hdeclares⟩ := Steps.exists_mem_of_forall₂ hall hshown
    exact hdeclares.mono (List.infix_of_mem_flatten hblock)
  obtain ⟨blocks, hblocks, hall⟩ := Steps.exists_mapM_forall₂ hmode
  refine ⟨blocks.flatten, by simp only [registerLines, hblocks]; rfl, ?_⟩
  intro mode hmem r hr halias
  obtain ⟨block, hblock, hdeclares⟩ := Steps.exists_mem_of_forall₂ hall hmem
  exact (hdeclares r hr halias).mono (List.infix_of_mem_flatten hblock)

/-- **The type of every register in a struct is a union that the header declares before all
structs**, in the styles with register unions and for every peripheral that is read.  The header can
be written if the licence block and the version can. -/
theorem memberTypes_declared {deviceNode module_ : Data} {p : Peripheral} {license : License}
    {block version : List Line} (hp : Node.peripheral deviceNode module_ = .ok p)
    (hstyle : style ∈ Style.presets) (hunions : style.registerUnions = true)
    (hblock : license.block style.license = .ok block)
    (hversion : versionLines p = .ok version) :
    ∃ front back, lines p style license = .ok (front ++ back) ∧
      ∀ g ∈ p.groups, ∀ mode ∈ GroupStruct.shownModes g,
        ∃ t, GroupStruct.IsModeStruct g style mode t ∧ t.lines <:+: back ∧
          ∀ r ∈ g.structMembers mode, r.isAlias = false →
            (∃ line ∈ t.members, ∃ qualifier, ("  " ++ qualifier ++ " "
              ++ style.convention.memberType r mode).toList <+: line.toList) ∧
            DeclaresUnion front (style.convention.memberType r mode) := by
  have h := Style.standard_of_mem_presets hstyle
  obtain ⟨qualify, hconvention⟩ : ∃ qualify, style.convention = .pascal qualify := by
    simp only [Style.presets, List.mem_cons, List.not_mem_nil, or_false] at hstyle
    rcases hstyle with rfl | rfl | rfl
    · exact ⟨_, rfl⟩
    · exact ⟨_, rfl⟩
    · cases hunions
  obtain ⟨registers, hregisters, hdeclared⟩ := Steps.exists_mapM_forall₂
    fun g (_ : g ∈ p.groups) => exists_registerLines h hunions g
  obtain ⟨groups, hgroups, hstructs⟩ := Steps.exists_mapM_forall₂
    fun g (_ : g ∈ p.groups) => GroupStruct.exists_block hstyle g
  let symbol := "_" ++ p.componentName ++ "_COMPONENT_"
  refine ⟨block ++ [Line.blank] ++ openGuard symbol ++ [.define p.componentName] ++ version
      ++ [Line.blank] ++ registers.flatten,
    groups.flatten ++ [Line.blank, .endIf (" /* " ++ symbol ++ " */")], ?_, ?_⟩
  · simp only [lines, hblock, hversion, hregisters, hgroups, bind, Except.bind, pure, Except.pure,
      List.append_assoc]
    rfl
  · intro g hg mode hmode
    obtain ⟨groupBlock, hgroupBlock, hgroup⟩ := Steps.exists_mem_of_forall₂ hstructs hg
    obtain ⟨registerBlock, hregisterBlock, hunion⟩ := Steps.exists_mem_of_forall₂ hdeclared hg
    obtain ⟨t, ht, hlines⟩ := hgroup mode hmode
    refine ⟨t, ht, (hlines.trans (List.infix_of_mem_flatten hgroupBlock)).trans
      (List.infix_append' [] _ _), fun r hr halias => ⟨?_, ?_⟩⟩
    · exact ht.exists_line hstyle hr
    · obtain ⟨node, hnode⟩ := Node.exists_group hp hg
      obtain ⟨hmem, hlisted, htype⟩ := RegisterGroup.memberType_of_mem hnode hr qualify
      rw [hconvention, htype, ← hconvention]
      refine (hunion r.mode hlisted r hmem halias).mono ?_
      exact (List.infix_of_mem_flatten hregisterBlock).trans (List.suffix_append _ _).isInfix

/-- The group of a timer that counts in eight or sixteen bits. -/
def counterNode : Data :=
  .table [(.text "@name", .text "TC"),
    (.text "mode", .list [.table [(.text "@name", .text "COUNT8")],
      .table [(.text "@name", .text "COUNT16")]]),
    (.text "register", .list
      [.table [(.text "@name", .text "CTRLA")],
        .table [(.text "@name", .text "COUNT"), (.text "@modes", .text "COUNT8"),
          (.text "@offset", .text "4")],
        .table [(.text "@name", .text "COUNT"), (.text "@modes", .text "COUNT16"),
          (.text "@offset", .text "4"), (.text "@size", .text "2")]])]

/-- The module of the timer. -/
def counterModule : Data :=
  .table [(.text "@name", .text "TC"), (.text "register-group", counterNode)]

/-- The timer in the device. -/
def counterDevice : Data := .table [(.text "@name", .text "TC")]

/-- The counting register in a mode. -/
def counterCount (mode : String) (size : Int) : Register :=
  { name := "COUNT", owner := "TC", offset := 4, size, mode }

/-- The group as it is read. -/
def counterGroup : RegisterGroup :=
  { name := "TC"
    owner := "TC"
    modes := ["DEFAULT", "COUNT8", "COUNT16"]
    members := [("DEFAULT", [{ name := "CTRLA", owner := "TC" }]),
      ("COUNT8", [counterCount "COUNT8" 1]), ("COUNT16", [counterCount "COUNT16" 2])] }

/-- The timer as it is read. -/
def counterRead : Peripheral := { name := "TC", groups := [counterGroup], instances := some [] }

/-- A licence block without text. -/
def emptyLicense : License :=
  { header := "", generator := "", generatedBy := "", today := ⟨2024, 1, 1⟩ }

theorem group_counterNode : Node.group counterModule counterNode = .ok counterGroup := by
  have hregisters : Node.registers counterModule counterNode
      = .ok [{ name := "CTRLA", owner := "TC" }, counterCount "COUNT8" 1,
          counterCount "COUNT16" 2] := by cbv
  have hmerged : Node.mergedModes (Node.groupModes counterNode)
      [{ name := "CTRLA", owner := "TC" }, counterCount "COUNT8" 1, counterCount "COUNT16" 2]
        = counterGroup.members := by cbv
  unfold Node.group
  rw [hregisters]
  simp only [bind, Except.bind]
  rw [Node.checkModes_of_isText (by decide), hmerged]
  rfl

theorem peripheral_counterModule :
    Node.peripheral counterDevice counterModule = .ok counterRead := by
  have hgroups : (Node.children counterModule "register-group").mapM (Node.group counterModule)
      = .ok [counterGroup] := by
    have hchildren : Node.children counterModule "register-group" = [counterNode] := rfl
    rw [hchildren, List.mapM_cons, group_counterNode]
    rfl
  unfold Node.peripheral
  rw [hgroups]
  rfl

theorem block_emptyLicense : emptyLicense.block Style.legacy.license
    = .ok (Comment.block "" ++ [Line.blank]) := by
  have hfill : ∀ values, Template.fill "" values = .ok "" := by
    intro values
    have hpieces : Template.pieces "" = [] := by cbv
    rw [Template.fill, hpieces]
    rfl
  obtain ⟨vendor, hvendor⟩ : ∃ vendor, License.vendor? Style.legacy.license = some vendor :=
    ⟨License.vendorApache, rfl⟩
  simp only [License.block, License.text, emptyLicense, hfill, hvendor]
  rfl

/-- The header of the timer declares the types of its registers, of which the one of no particular
mode stands in both structs. -/
theorem memberTypes_declared_counter :
    Node.peripheral counterDevice counterModule = .ok counterRead ∧
    Style.legacy ∈ Style.presets ∧ Style.legacy.registerUnions = true ∧
    emptyLicense.block Style.legacy.license = .ok (Comment.block "" ++ [Line.blank]) ∧
    versionLines counterRead = .ok [] ∧
    ∃ front back, lines counterRead Style.legacy emptyLicense = .ok (front ++ back) ∧
      ∀ g ∈ counterRead.groups, ∀ mode ∈ GroupStruct.shownModes g,
        ∃ t, GroupStruct.IsModeStruct g Style.legacy mode t ∧ t.lines <:+: back ∧
          ∀ r ∈ g.structMembers mode, r.isAlias = false →
            (∃ line ∈ t.members, ∃ qualifier, ("  " ++ qualifier ++ " "
              ++ Style.legacy.convention.memberType r mode).toList <+: line.toList) ∧
            DeclaresUnion front (Style.legacy.convention.memberType r mode) := by
  have hstyle : Style.legacy ∈ Style.presets := List.mem_cons_self
  exact ⟨peripheral_counterModule, hstyle, rfl, block_emptyLicense, rfl,
    memberTypes_declared peripheral_counterModule hstyle rfl block_emptyLicense rfl⟩

end ComponentHeader

end ChipSupport
