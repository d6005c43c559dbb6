import ChipSupport.Header.GroupStruct
import ChipSupport.Proofs.Layouts.Types
import ChipSupport.Proofs.Struct.Members

/-!
# The types that the block of a group defines

The block of a group is a sequence of type definitions, and behind them the definitions of sizes and
of the section.  The types are a struct for each mode that is shown, and for a group with several
modes besides the default one the union of these structs.

## Main definitions

* `GroupStruct.IsModeStruct` — the struct of a mode, as a type definition.
* `GroupStruct.typeModes`, `GroupStruct.typeNames` — the names of the types.
* `GroupStruct.Declares` — a block that declares types.

## Main results

* `GroupStruct.exists_lines` — the presets write a block for every group.
* `GroupStruct.declares_lines` — **the block of a group declares the names of `typeNames`.**
-/

namespace ChipSupport.GroupStruct

/-! ### Members -/

/-- A definition that is no type, or an empty line. -/
def IsMacro (l : Line) : Prop := l = Line.blank ∨ ∃ name value, l = .define name value

/-- The line of a member, with the definition of its number of elements, if it has one. -/
structure IsMember (mode start : String) (style : Style) (e : GroupEntry)
    (m : String × Option Line) : Prop where
  /-- It is the line of the member. -/
  eq : memberLine e mode start style = .ok m
  /-- The line is indented. -/
  indented : Text.Indented m.1
  /-- What is defined is no type. -/
  size : ∀ l ∈ m.2, IsMacro l

/-- The struct of a mode, as a type definition. -/
structure IsModeStruct (g : RegisterGroup) (style : Style) (mode : String) (t : TypeDefinition) :
    Prop where
  /-- It is a struct. -/
  kind : t.kind = .struct
  /-- It is named after the group and the mode. -/
  name : t.name = style.convention.groupType g mode
  /-- It is aligned like the group. -/
  alignment : t.alignment = g.alignment
  /-- Its lines are those of the reserved bytes and registers of the mode. -/
  members : List.Forall₂
    (fun e line => ∃ size, memberLine e mode g.memberStart style = .ok (line, size))
    (layoutMembers (g.structMembers mode) g.size) t.members

/-- The definition of a mode's struct, and definitions that are no types. -/
def IsStructBlock (g : RegisterGroup) (style : Style) (mode : String)
    (block : List Line × List Line) : Prop :=
  ∃ t, IsModeStruct g style mode t ∧ block.1 = t.lines ∧ ∀ l ∈ block.2, IsMacro l

/-- The modes in the names of a group's types: those that are shown, and none for the union. -/
def typeModes (g : RegisterGroup) : List String :=
  shownModes g ++ if 2 < g.modes.length then [""] else []

/-- The names of the types of a group. -/
def typeNames (g : RegisterGroup) (style : Style) : List String :=
  (typeModes g).map fun mode => style.convention.groupType g mode

/-- A block that declares types: their definitions, and behind them no other ones. -/
def Declares (block : List Line) (names : List String) : Prop :=
  ∃ (types : List TypeDefinition) (rest : List Line),
    block = types.flatMap TypeDefinition.lines ++ rest ∧ (∀ l ∈ rest, IsMacro l) ∧
      types.map TypeDefinition.name = names

variable {style : Style} (hstyle : style ∈ Style.presets)
include hstyle

theorem exists_qualifier (r : Register) : ∃ s, style.qualifier r = .ok s := by
  have hsome : ∃ a b c d, style.qualifiers = [a, b, c, d] := by
    simp only [Style.presets, List.mem_cons, List.not_mem_nil, or_false] at hstyle
    rcases hstyle with rfl | rfl | rfl
    all_goals exact ⟨_, _, _, _, rfl⟩
  obtain ⟨a, b, c, d, hqualifiers⟩ := hsome
  rw [Style.qualifier, hqualifiers]
  dsimp only
  split
  · exact ⟨d, rfl⟩
  · split
    · exact ⟨a, rfl⟩
    · split
      · exact ⟨b, rfl⟩
      · exact ⟨c, rfl⟩

theorem exists_sizeLine (r : Register) (mode : String) :
    ∃ size, sizeLine? r mode style = .ok size ∧ ∀ l ∈ size, IsMacro l := by
  unfold sizeLine?
  split
  · cases hname : style.convention.sizeMacroName? r mode with
    | none => exact ⟨none, rfl, by simp⟩
    | some name =>
      obtain ⟨count, hcount⟩ :=
        Layouts.exists_count (Style.standard_of_mem_presets hstyle) r.count
      refine ⟨some (.define name count), by rw [hcount]; rfl, ?_⟩
      rintro l ⟨⟩
      exact .inr ⟨name, count, rfl⟩
  · exact ⟨none, rfl, by simp⟩

/-- The line of a register names its type behind the qualifier. -/
theorem exists_registerMember (r : Register) (mode start : String) :
    ∃ m, IsMember mode start style (.register r) m ∧ ∃ qualifier,
      ("  " ++ qualifier ++ " " ++ style.convention.memberType r mode).toList <+: m.1.toList := by
  obtain ⟨size, hsize, hplain⟩ := exists_sizeLine hstyle r mode
  obtain ⟨qualifier, hqualifier⟩ := exists_qualifier hstyle r
  obtain ⟨line, hline, hbegins⟩ := Layouts.exists_member (Style.standard_of_mem_presets hstyle)
    qualifier (style.convention.memberType r mode) (style.convention.memberVariable r start) r.count
    style.remarkColumn r
  have hspace : Text.Indented ("  " ++ qualifier ++ " " ++ style.convention.memberType r mode) := by
    simp [Text.Indented]
  refine ⟨(line, size), ⟨?_, hspace.of_prefix hbegins, hplain⟩, qualifier, hbegins⟩
  simp only [memberLine, hsize, hqualifier, bind, Except.bind]
  rw [hline]
  rfl

/-- A register of a mode has a line in the struct, which names its type. -/
theorem IsModeStruct.exists_line {g : RegisterGroup} {mode : String} {t : TypeDefinition}
    (ht : IsModeStruct g style mode t) {r : Register} (hr : r ∈ g.structMembers mode) :
    ∃ line ∈ t.members, ∃ qualifier, ("  " ++ qualifier ++ " "
      ++ style.convention.memberType r mode).toList <+: line.toList := by
  have hmember : .register r ∈ layoutMembers (g.structMembers mode) g.size :=
    mem_layoutMembers.mpr hr
  obtain ⟨line, hline, size, hsize⟩ := Steps.exists_mem_of_forall₂ ht.members hmember
  obtain ⟨m, hm, qualifier, hbegins⟩ := exists_registerMember hstyle r mode g.memberStart
  have heq : m = (line, size) := Except.ok.inj (hm.eq.symm.trans hsize)
  rw [heq] at hbegins
  exact ⟨line, hline, qualifier, hbegins⟩

theorem exists_member (e : GroupEntry) (mode start : String) :
    ∃ m, IsMember mode start style e m := by
  cases e with
  | reserved number bytes =>
    obtain ⟨line, hline, hindented⟩ := Layouts.exists_reserved hstyle number bytes
    exact ⟨(line, none), by rw [memberLine, hline]; rfl, hindented, by simp⟩
  | register r =>
    obtain ⟨m, hm, -⟩ := exists_registerMember hstyle r mode start
    exact ⟨m, hm⟩

/-! ### Structs -/

/-- The block of a mode is the definition of its struct. -/
theorem exists_structBlock (g : RegisterGroup) (mode : String) :
    ∃ block, structLines g mode style = .ok block ∧ IsStructBlock g style mode block := by
  have h := Style.standard_of_mem_presets hstyle
  obtain ⟨members, hmembers, hall⟩ : ∃ members,
      ((layoutMembers (g.structMembers mode) g.size).mapM fun e =>
        memberLine e mode g.memberStart style) = .ok members ∧
      ∀ m ∈ members, Text.Indented m.1 ∧ ∀ l ∈ m.2, IsMacro l := by
    refine Steps.exists_mapM_forall fun e _ => ?_
    obtain ⟨m, hm⟩ := exists_member hstyle e mode g.memberStart
    exact ⟨m, hm.eq, hm.indented, hm.size⟩
  let t : TypeDefinition :=
    { kind := .struct
      members := members.map Prod.fst
      name := style.convention.groupType g mode
      alignment := g.alignment
      indented := List.forall_mem_map.mpr fun m hm => (hall m hm).1 }
  refine ⟨(t.lines, members.filterMap Prod.snd), ?_, t, ⟨rfl, rfl, rfl, ?_⟩, rfl, ?_⟩
  · simp only [structLines, Layouts.structOpen_eq h, hmembers, Layouts.typedefClose_eq h]
    simp [t, TypeDefinition.lines, bind, Except.bind, pure, Except.pure, Function.comp_def]
  · rw [List.forall₂_map_right_iff]
    exact ((Steps.mapM_eq_ok_iff _ _ _).mp hmembers).imp fun e m he => ⟨m.2, he⟩
  · intro l hl
    obtain ⟨m, hm, hsize⟩ := List.mem_filterMap.mp hl
    exact (hall m hm).2 l hsize

/-- The union of the structs is a type of its own in a group with several modes besides the default
one. -/
theorem exists_unionLines (g : RegisterGroup) :
    ∃ unions : List TypeDefinition, unionLines g style = .ok (unions.flatMap TypeDefinition.lines) ∧
      unions.map TypeDefinition.name
        = if 2 < g.modes.length then [style.convention.groupType g ""] else [] := by
  have h := Style.standard_of_mem_presets hstyle
  by_cases hmodes : 2 < g.modes.length
  · obtain ⟨members, hmembers, hindented⟩ := Steps.exists_mapM_forall
      fun mode (_ : mode ∈ g.modes.filter fun mode =>
        !Mode.isDefault mode && !(g.membersOf mode).isEmpty) =>
        Layouts.exists_modeMember hstyle (style.convention.groupType g mode) mode
    refine ⟨[⟨.union, members, style.convention.groupType g "", 0, hindented⟩], ?_, ?_⟩
    · simp only [unionLines, if_pos hmodes, Layouts.unionOpen_eq h, hmembers,
        Layouts.typedefClose_eq h]
      simp [TypeDefinition.lines, bind, Except.bind, pure, Except.pure]
    · rw [if_pos hmodes]
      rfl
  · exact ⟨[], by rw [unionLines, if_neg hmodes]; rfl, by rw [if_neg hmodes]; rfl⟩

theorem exists_sectionLines (g : RegisterGroup) :
    ∃ block, sectionLines g style = .ok block ∧ ∀ l ∈ block, IsMacro l := by
  unfold sectionLines
  split
  · exact ⟨[], rfl, by simp⟩
  · obtain ⟨value, hvalue⟩ :=
      Layouts.exists_section (Style.standard_of_mem_presets hstyle) g.section_
    refine ⟨[.define ("SECTION_" ++ Text.upper g.name) value, Line.blank], by rw [hvalue]; rfl, ?_⟩
    intro l hl
    rw [List.mem_pair] at hl
    rcases hl with rfl | rfl
    · exact .inr ⟨_, _, rfl⟩
    · exact .inl rfl

/-! ### Groups -/

omit hstyle in
/-- Blocks of modes are the definitions of their structs, one behind the other. -/
theorem exists_structs {g : RegisterGroup} {modes : List String}
    {blocks : List (List Line × List Line)}
    (h : List.Forall₂ (IsStructBlock g style) modes blocks) :
    ∃ structs, List.Forall₂ (IsModeStruct g style) modes structs ∧
      blocks.flatMap Prod.fst = structs.flatMap TypeDefinition.lines ∧
      ∀ l ∈ blocks.flatMap Prod.snd, IsMacro l := by
  induction h with
  | nil => exact ⟨[], .nil, rfl, by simp⟩
  | cons hfirst _ ih =>
    obtain ⟨t, ht, hblock, hplain⟩ := hfirst
    obtain ⟨structs, hstructs, hlines, hsizes⟩ := ih
    refine ⟨t :: structs, .cons ht hstructs, ?_, ?_⟩
    · rw [List.flatMap_cons, List.flatMap_cons, hblock, hlines]
    · intro l hl
      rw [List.flatMap_cons, List.mem_append] at hl
      exact hl.elim (hplain l) (hsizes l)

/-- The presets write a block for every group: the structs of its modes, their union, and
definitions that are no types. -/
theorem exists_lines (g : RegisterGroup) :
    ∃ structs unions rest, lines g style
        = .ok ((structs ++ unions).flatMap TypeDefinition.lines ++ rest) ∧
      List.Forall₂ (IsModeStruct g style) (shownModes g) structs ∧
      unions.map TypeDefinition.name
        = (if 2 < g.modes.length then [style.convention.groupType g ""] else []) ∧
      ∀ l ∈ rest, IsMacro l := by
  have h := Style.standard_of_mem_presets hstyle
  obtain ⟨blocks, hblocks, hall⟩ := Steps.exists_mapM_forall₂
    fun mode (_ : mode ∈ shownModes g) => exists_structBlock hstyle g mode
  obtain ⟨unions, hunions, hnames⟩ := exists_unionLines hstyle g
  obtain ⟨section_, hsection, hsectionMacro⟩ := exists_sectionLines hstyle g
  -- the definitions of the structs, one for each block
  obtain ⟨structs, hstructs, hlines, hsizes⟩ := exists_structs hall
  let sizes := blocks.flatMap Prod.snd
  let sized := if sizes.isEmpty then [] else sizes ++ [Line.blank]
  have hsized : ∀ l ∈ sized, IsMacro l := by
    intro l hl
    dsimp only [sized] at hl
    split at hl
    · cases hl
    · rcases List.mem_append.mp hl with hl | hl
      · exact hsizes l hl
      · exact .inl (List.mem_singleton.mp hl)
  refine ⟨structs, unions, sized ++ section_, ?_, hstructs, hnames, ?_⟩
  · simp only [lines, h.names, hblocks, hunions, hsection, bind, Except.bind, pure, Except.pure,
      hlines, List.flatMap_append, List.append_assoc]
    rfl
  · intro l hl
    exact (List.mem_append.mp hl).elim (hsized l) (hsectionMacro l)

/-- The block of a group holds the definition of every struct that is shown. -/
theorem exists_block (g : RegisterGroup) :
    ∃ block, lines g style = .ok block ∧ ∀ mode ∈ shownModes g,
      ∃ t, IsModeStruct g style mode t ∧ t.lines <:+: block := by
  obtain ⟨structs, unions, rest, hlines, hstructs, -, -⟩ := exists_lines hstyle g
  refine ⟨_, hlines, fun mode hmode => ?_⟩
  obtain ⟨t, ht, hmodeStruct⟩ := Steps.exists_mem_of_forall₂ hstructs hmode
  refine ⟨t, hmodeStruct, .trans ?_ (List.prefix_append _ _).isInfix⟩
  have hmem : t.lines ∈ (structs ++ unions).map TypeDefinition.lines :=
    List.mem_map_of_mem (List.mem_append_left _ ht)
  exact List.infix_of_mem_flatten hmem

/-- **The block of a group declares the names of its types**, and no others. -/
theorem declares_lines (g : RegisterGroup) :
    ∃ block, lines g style = .ok block ∧ Declares block (typeNames g style) := by
  obtain ⟨structs, unions, rest, hlines, hstructs, hunions, hrest⟩ := exists_lines hstyle g
  have hnames : structs.map TypeDefinition.name
      = (shownModes g).map fun mode => style.convention.groupType g mode :=
    Steps.forall₂_eq_iff.mp (hstructs.imp fun mode t ht => ht.name).flip
  refine ⟨_, hlines, structs ++ unions, rest, rfl, hrest, ?_⟩
  rw [List.map_append, hnames, hunions, typeNames, typeModes, List.map_append]
  split <;> rfl

end ChipSupport.GroupStruct
