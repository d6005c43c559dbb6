import ChipSupport.Arm.Header
import ChipSupport.Proofs.Conditional.Spelling
import ChipSupport.Proofs.RegisterBlock.ClosedForm
import ChipSupport.Proofs.Struct.Members

/-!
# Conditional parts of component headers

The union of a register and the structs of a group each stand in a part that only compilers read.
The definitions of a register stand in no part.

## Main results

* `RegisterBlock.nested_lines` — the block of a register.
* `GroupStruct.nested_lines` — the definition of a group.
-/

namespace ChipSupport

open Text Conditional

theorem Line.plain_blank : Plain Line.blank := ⟨by decide, by decide⟩

theorem Style.lacks_maskMacros :
    ∀ style ∈ Style.presets, ∀ ending ∈ style.maskMacros, Lacks '\n' ending := by decide

theorem Style.lacks_offsetMacro : ∀ style ∈ Style.presets, Lacks '\n' style.offsetMacro := by
  decide

namespace RegisterBlock

variable {style : Style} (hstyle : style ∈ Style.presets)

/-! ### The union of a register -/

section Union

include hstyle

theorem nested_structLines {fields : List Field} {r : Register} {name : String} {ls : List Line}
    (hfields : ∀ f ∈ Field.namedOnly fields, f.Unbroken) (hname : Lacks '\n' name)
    (h : structLines fields r name style = .ok ls) : Nested ls := by
  obtain ⟨lines, hlines, h⟩ := Steps.bind_eq_ok_iff.mp h
  cases h
  refine .map (Layouts.plain_bitfieldStruct hstyle r.lacks_integerType r.begins_integerType hname
    (fun f hf => hfields f ?_) hlines)
  exact Field.mem_namedOnly_layout.mp hf

theorem nested_unionLines {r : Register} (hr : r.Unbroken) {groupMode : String}
    (hmode : Lacks '\n' groupMode) {modes : List (String × List Bitfield)}
    (hmodes : ∀ m ∈ modes, Lacks '\n' m.1 ∧ ∀ f ∈ m.2, f.Unbroken) {vectors : List Field}
    (hvectors : ∀ f ∈ Field.namedOnly vectors, f.Unbroken) {ls : List Line}
    (h : unionLines r groupMode modes vectors style = .ok ls) : Nested ls := by
  have hstandard := Style.standard_of_mem_presets hstyle
  obtain ⟨first, hfirst⟩ := Layouts.exists_unionOpen hstandard
  obtain ⟨whole, hwhole⟩ := Layouts.exists_regMember hstandard r.integerType
  obtain ⟨last, hlast⟩ :=
    Layouts.exists_typedefClose hstandard (style.convention.registerType r groupMode)
  obtain ⟨vector, hvector, -⟩ := exists_structLines hstandard vectors r "vec"
  have hstruct : ∀ m ∈ modes.filter fun m => !(m.2.isEmpty && style.coalesceModes), ∃ block,
      structLines (m.2.map fun f => .named f.toNamed) r (structName m.1) style = .ok block
        ∧ Nested block := by
    intro m hm
    obtain ⟨hname, hfields⟩ := hmodes m (List.mem_filter.mp hm).1
    obtain ⟨block, hblock, -⟩ :=
      exists_structLines hstandard (m.2.map fun f => .named f.toNamed) r (structName m.1)
    refine ⟨block, hblock, nested_structLines hstyle (fun f hf => ?_)
      (lacks_ite (by decide) hname) hblock⟩
    rw [← Function.comp_def, ← List.map_map, Field.namedOnly_map_named] at hf
    obtain ⟨g, hg, rfl⟩ := List.mem_map.mp hf
    exact (hfields g hg).toNamed
  -- the union is that of these parts, since each of them can be spelled
  obtain ⟨structs, hstructs, hbits⟩ := Steps.exists_mapM_forall hstruct
  rw [unionLines_eq hfirst hstructs hvector hwhole hlast] at h
  cases h
  have hvectorBits : Nested (if vectors.isEmpty then [] else vector) := by
    split
    · exact .nil
    · exact nested_structLines hstyle hvectors (by decide) hvector
  have hwholeLine := Layouts.plain_regMember hstyle r.lacks_integerType r.begins_integerType hwhole
  have hlastLine := Layouts.plain_typedefClose hstyle
    (Convention.lacks_registerType hr.name.unbroken hr.owner.unbroken _ hmode) hlast
  intro parts
  have hopen : Leads parts [Line.compilerOnly, .text first] (false :: parts) :=
    .opening (by decide) (.plain (Layouts.plain_unionOpen hstyle hfirst) (.nil _))
  have hclose : Leads (false :: parts)
      [.text whole, .text last, Line.endCompilerOnly, Line.blank] parts :=
    .plain hwholeLine (.plain hlastLine (.closing (by decide) (by decide)
      (.plain Line.plain_blank (.nil _))))
  exact ((hopen.append (Nested.flatten hbits _)).append (hvectorBits _)).append hclose

end Union

/-! ### Definitions -/

section Names

variable {c : Char} [hc : Foreign c] {register field mode : String} (hregister : Lacks c register)
  (hfield : Lacks c field) (hmode : Lacks c mode)
include hregister hfield hmode

theorem lacks_fieldBase (style : Style) : Lacks c (fieldBase register field mode style) := by
  have hunderscore : Lacks c "_" := Foreign.lacks_word (by decide)
  refine lacks_ite ?_ ?_
  all_goals simp only [lacks_append, hregister, hfield, hmode, hunderscore, and_self]

theorem lacks_optionBase (style : Style) : Lacks c (optionBase register field mode style) := by
  have hunderscore : Lacks c "_" := Foreign.lacks_word (by decide)
  have hbase := lacks_fieldBase hregister hfield hmode style
  refine lacks_ite ?_ ?_
  all_goals simp only [lacks_append, hbase, hregister, hfield, hunderscore, and_self]

end Names

theorem lacks_optionName {c : Char} {v : NamedValue} (h : Lacks c v.name) (style : Style) :
    Lacks c (optionName v style) := by
  refine lacks_ite ?_ h
  rw [lacks_ofList]
  exact fun hmem => h ((List.dropWhile_sublist _).subset hmem)

section Blocks

variable {register : String} (hregister : Lacks '\n' register)
include hregister

theorem nested_fieldBlock {mode : String} (hmode : Lacks '\n' mode) {f : NamedField}
    (hf : f.Unbroken) (full : Bool) : Nested (fieldBlock register style mode f full) := by
  have hbase := lacks_fieldBase hregister hf.name hmode style
  refine .cons ⟨?_, ?_, ?_⟩ (.of_plain fun l hl => ?_)
  · simp +decide [hbase]
  · simp +decide [positionText]
  · simp +decide [noteText, hregister, hf.name, hf.caption]
  · unfold maskLines at hl
    split at hl
    all_goals
      simp only [List.mem_cons, List.not_mem_nil, or_false] at hl
      rcases hl with rfl | rfl
      all_goals simp +decide [Plain, hbase, maskText, setterText]

theorem nested_bitfieldBlock {mode : String} (hmode : Lacks '\n' mode) {f : Bitfield}
    (hf : f.Unbroken) : Nested (bitfieldBlock register style mode f) := by
  have hbase := lacks_optionBase hregister hf.name hmode style
  refine (nested_fieldBlock hregister hmode hf.toNamed _).append (.append ?_ ?_)
  · refine .map fun v hv => ?_
    have hv := hf.values v hv
    simp +decide [Plain, valueLine, hbase, lacks_optionName hv.name, hv.value, hv.caption]
  · refine .map fun v hv => ?_
    have hv := hf.values v hv
    simp +decide [Plain, placedLine, optionText, hbase, lacks_optionName hv.name]

omit hregister in
theorem nested_maskBlock (hstyle : style ∈ Style.presets) {start note : String}
    (hstart : Lacks '\n' start) (hnote : Lacks '\n' note) (mask : Int) :
    Nested (maskBlock style start note mask) := by
  refine .map fun ending hending => ?_
  have hending := Style.lacks_maskMacros style hstyle ending hending
  simp +decide [Plain, maskText, hstart, hending, hnote]

theorem nested_wholeBlock (hstyle : style ∈ Style.presets) (r : Register) :
    Nested (wholeBlock register style r) := by
  have hoffset := Style.lacks_offsetMacro style hstyle
  have hnote (s : String) (hs : Lacks '\n' s) : Lacks '\n' (register ++ s) :=
    lacks_append.mpr ⟨hregister, hs⟩
  have hmasks := nested_maskBlock hstyle hregister (hnote " mask" (by decide)) r.mask
  refine (Nested.append (.of_plain ?_) hmasks).append (.of_plain ?_)
  · rw [List.forall_mem_cons, List.forall_mem_singleton]
    constructor
    · exact ⟨hnote _ hoffset, by simp +decide [offsetText], hnote _ (by decide)⟩
    · exact ⟨hnote _ (by decide), by simp +decide [maskText], hnote _ (by decide)⟩
  · exact List.forall_mem_singleton.mpr Line.plain_blank

theorem nested_modeBlock (hstyle : style ∈ Style.presets) (r : Register) (several : Bool)
    {m : String × List Bitfield} (hmode : Lacks '\n' m.1) (hfields : ∀ f ∈ m.2, f.Unbroken) :
    Nested (modeBlock register style r several m) := by
  refine .append (.append (.append ?_ ?_) ?_) ?_
  · split
    · refine .of_plain (List.forall_mem_singleton.mpr (plain_text ?_ ?_))
      · simp +decide [hmode]
      · exact .append (.append (by decide) _) _
    · exact .nil
  · exact .flatMap fun f hf => nested_bitfieldBlock hregister hmode (hfields f hf)
  · split
    · refine nested_maskBlock hstyle ?_ ?_ _
      all_goals simp +decide [hregister, hmode]
    · exact .nil
  · split
    · exact .of_plain (List.forall_mem_singleton.mpr Line.plain_blank)
    · exact .nil

theorem nested_vectorBlock {vectors : List Field}
    (hvectors : ∀ f ∈ Field.namedOnly vectors, f.Unbroken) :
    Nested (vectorBlock register style vectors) := by
  have hblank : Nested [Line.blank] := .of_plain (List.forall_mem_singleton.mpr Line.plain_blank)
  have hbody : Nested ((Field.namedOnly vectors).flatMap fun f =>
      fieldBlock register style "" f true) :=
    .flatMap fun f hf => nested_fieldBlock hregister (by decide) (hvectors f hf) true
  unfold vectorBlock
  dsimp only
  split
  · split
    · exact .nil
    · exact hbody.append hblank
  · refine .append (.append ?_ hbody) hblank
    split
    · exact .nil
    · exact hblank

end Blocks

/-- **The block of a register closes what it opens.** -/
theorem nested_lines (hstyle : style ∈ Style.presets) {r : Register} (hr : r.Unbroken)
    {groupMode start : String} (hmode : Lacks '\n' groupMode) (hstart : Lacks '\n' start)
    {ls : List Line} (h : lines r groupMode start style = .ok ls) : Nested ls := by
  have hstandard := Style.standard_of_mem_presets hstyle
  have hname := Convention.lacks_qualifiedRegisterName hr.name.unbroken hr.owner.unbroken
    style.convention hmode hstart
  have hmodes := hr.modeTable style.coalesceModes
  have hvectors : ∀ f ∈ Field.namedOnly (vectorsOf (r.modeTable style.coalesceModes) style),
      f.Unbroken := by
    unfold vectorsOf
    split
    · next mode fields htable =>
      rw [htable, List.forall_mem_singleton] at hmodes
      exact Bitfield.unbroken_vectorFields hmodes.2 _
    · exact List.forall_mem_nil _
  obtain ⟨title, htitle⟩ := Layouts.exists_registerCaption hstandard r
    (style.convention.qualifiedRegisterName r groupMode start)
  obtain ⟨union, hunion, hnested⟩ : ∃ union, (if style.registerUnions then
      unionLines r groupMode (r.modeTable style.coalesceModes)
        (vectorsOf (r.modeTable style.coalesceModes) style) style else pure []) = .ok union
      ∧ Nested union := by
    split
    · obtain ⟨union, hunion, -⟩ := exists_unionLines hstandard r groupMode
        (r.modeTable style.coalesceModes) (vectorsOf (r.modeTable style.coalesceModes) style)
      exact ⟨union, hunion, nested_unionLines hstyle hr hmode hmodes hvectors hunion⟩
    · exact ⟨[], rfl, .nil⟩
  rw [lines_eq hstandard r groupMode start htitle hunion] at h
  cases h
  refine .cons (Layouts.plain_registerCaption hstyle hr hname htitle) ?_
  refine ((hnested.append (nested_wholeBlock hname hstyle r)).append ?_).append
    (nested_vectorBlock hname hvectors)
  exact .flatMap fun m hm => nested_modeBlock hname hstyle r _ (hmodes m hm).1 (hmodes m hm).2

end RegisterBlock

/-! ### Groups -/

theorem Style.lacks_qualifiers :
    ∀ style ∈ Style.presets, ∀ qualifier ∈ style.qualifiers,
      Lacks '\n' qualifier ∧ Lacks '#' qualifier := by decide

theorem Style.isName_qualifier {style : Style} (hstyle : style ∈ Style.presets) {r : Register}
    {qualifier : String} (h : style.qualifier r = .ok qualifier) : IsName qualifier := by
  have hmem : qualifier ∈ style.qualifiers := by
    unfold Style.qualifier at h
    split at h
    · next readOnly writeOnly readWrite alias_ hqualifiers =>
      rw [hqualifiers]
      split at h
      · cases h
        simp
      · split at h
        · cases h
          simp
        · split at h
          · cases h
            simp
          · cases h
            simp
    · cases h
  obtain ⟨hunbroken, hhash⟩ := Style.lacks_qualifiers style hstyle qualifier hmem
  exact ⟨hunbroken, hhash⟩

theorem RegisterGroup.Unbroken.isName_groupType {g : RegisterGroup} (hg : g.Unbroken)
    (convention : Convention) {mode : String} (hmode : IsName mode) :
    IsName (convention.groupType g mode) :=
  ⟨Convention.lacks_groupName hg.name.unbroken hg.owner.unbroken hmode.unbroken _ _,
    Convention.lacks_groupName hg.name.noHash hg.owner.noHash hmode.noHash _ _⟩

namespace GroupStruct

variable {style : Style} (hstyle : style ∈ Style.presets) {g : RegisterGroup} (hg : g.Unbroken)
include hstyle

theorem plain_sizeLine {r : Register} (hr : r.Unbroken) {mode : String} (hmode : Lacks '\n' mode)
    {line? : Option Line} (h : sizeLine? r mode style = .ok line?) : ∀ l ∈ line?, Plain l := by
  intro l hl
  subst hl
  unfold sizeLine? at h
  split at h
  · split at h
    · next name hname =>
      obtain ⟨count, hcount, h⟩ := Steps.bind_eq_ok_iff.mp h
      cases h
      have hcount : Lacks '\n' count := Layouts.lacks_spell hstyle (by simp) hcount
      exact ⟨Convention.lacks_sizeMacroName hr.name.unbroken hr.owner.unbroken hmode hname, hcount,
        by decide⟩
    · cases h
  · cases h

theorem plain_memberLine {entry : GroupEntry} (hentry : ∀ r, entry = .register r → r.Unbroken)
    {mode start : String} (hmode : IsName mode) {m : String × Option Line}
    (h : memberLine entry mode start style = .ok m) : Plain (.text m.1) ∧ ∀ l ∈ m.2, Plain l := by
  cases entry with
  | reserved number bytes =>
    obtain ⟨line, hline, h⟩ := Steps.bind_eq_ok_iff.mp h
    cases h
    exact ⟨Layouts.plain_reserved hstyle hline, fun l hl => by cases hl⟩
  | register r =>
    have hr := hentry r rfl
    obtain ⟨size, hsize, h⟩ := Steps.bind_eq_ok_iff.mp h
    obtain ⟨qualifier, hqualifier, h⟩ := Steps.bind_eq_ok_iff.mp h
    obtain ⟨line, hline, h⟩ := Steps.bind_eq_ok_iff.mp h
    cases h
    refine ⟨?_, plain_sizeLine hstyle hr hmode.unbroken hsize⟩
    refine Layouts.plain_member hstyle (Style.isName_qualifier hstyle hqualifier) ?_ ?_ hr hline
    · exact ⟨Convention.lacks_memberType hr.name.unbroken hr.owner.unbroken _ hmode.unbroken,
        Convention.lacks_memberType hr.name.noHash hr.owner.noHash _ hmode.noHash⟩
    · exact ⟨Convention.lacks_memberVariable hr.name.unbroken hr.owner.unbroken _ _,
        Convention.lacks_memberVariable hr.name.noHash hr.owner.noHash _ _⟩

include hg

theorem nested_structLines {mode : String} (hmode : IsName mode) {block : List Line × List Line}
    (h : structLines g mode style = .ok block) : Nested block.1 ∧ Nested block.2 := by
  obtain ⟨first, hfirst, h⟩ := Steps.bind_eq_ok_iff.mp h
  obtain ⟨members, hmembers, h⟩ := Steps.bind_eq_ok_iff.mp h
  obtain ⟨last, hlast, h⟩ := Steps.bind_eq_ok_iff.mp h
  cases h
  have hlines : ∀ m ∈ members, Plain (.text m.1) ∧ ∀ l ∈ m.2, Plain l := by
    intro m hm
    obtain ⟨entry, hentry, hline⟩ := Steps.exists_of_mem_mapM hmembers hm
    refine plain_memberLine hstyle (fun r hr => ?_) hmode hline
    rw [hr, mem_layoutMembers] at hentry
    rcases RegisterGroup.mem_structMembers hentry with hr | hr
    · exact hg.membersOf _ r hr
    · exact hg.membersOf _ r hr
  constructor
  · intro parts
    have hopen : Leads parts [Line.compilerOnly, .text first] (false :: parts) :=
      .opening (by decide) (.plain (Layouts.plain_structOpen hstyle hfirst) (.nil _))
    have hbody : Nested (members.map fun m => Line.text m.1) := .map fun m hm => (hlines m hm).1
    have hlastLine := Layouts.plain_typedefClose hstyle (hg.isName_groupType _ hmode).unbroken hlast
    have hclose : Leads (false :: parts) [.text last, Line.endCompilerOnly, Line.blank] parts :=
      .plain hlastLine (.closing (by decide) (by decide) (.plain Line.plain_blank (.nil _)))
    exact (hopen.append (hbody _)).append hclose
  · refine .of_plain fun l hl => ?_
    obtain ⟨m, hm, hsize⟩ := List.mem_filterMap.mp hl
    exact (hlines m hm).2 l hsize

theorem nested_unionLines {ls : List Line} (h : unionLines g style = .ok ls) : Nested ls := by
  unfold unionLines at h
  split at h
  · obtain ⟨first, hfirst, h⟩ := Steps.bind_eq_ok_iff.mp h
    obtain ⟨members, hmembers, h⟩ := Steps.bind_eq_ok_iff.mp h
    obtain ⟨last, hlast, h⟩ := Steps.bind_eq_ok_iff.mp h
    cases h
    have hbody : Nested (members.map Line.text) := by
      refine .map fun line hline => ?_
      obtain ⟨mode, hmode, hspelled⟩ := Steps.exists_of_mem_mapM hmembers hline
      have hmode := hg.modes mode (List.mem_filter.mp hmode).1
      exact Layouts.plain_modeMember hstyle (hg.isName_groupType _ hmode) hmode hspelled
    have hempty : IsName "" := ⟨by decide, by decide⟩
    have htype := hg.isName_groupType style.convention hempty
    intro parts
    have hopen : Leads parts [Line.compilerOnly, .text first] (false :: parts) :=
      .opening (by decide) (.plain (Layouts.plain_unionOpen hstyle hfirst) (.nil _))
    have hclose : Leads (false :: parts) [.text last, Line.endCompilerOnly, Line.blank] parts :=
      .plain (Layouts.plain_typedefClose hstyle htype.unbroken hlast)
        (.closing (by decide) (by decide) (.plain Line.plain_blank (.nil _)))
    exact (hopen.append (hbody _)).append hclose
  · cases h
    exact .nil

theorem nested_sectionLines {ls : List Line} (h : sectionLines g style = .ok ls) : Nested ls := by
  unfold sectionLines at h
  split at h
  · cases h
    exact .nil
  · obtain ⟨value, hvalue, h⟩ := Steps.bind_eq_ok_iff.mp h
    cases h
    have hvalue : Lacks '\n' value := Layouts.lacks_spell hstyle (by simpa using hg.section_) hvalue
    refine .cons ⟨?_, hvalue, by decide⟩ (.cons Line.plain_blank .nil)
    simp +decide [hg.name.unbroken]

/-- **The definition of a group closes what it opens.** -/
theorem nested_lines {ls : List Line} (h : lines g style = .ok ls) : Nested ls := by
  obtain ⟨-, -, h⟩ := Steps.bind_eq_ok_iff.mp h
  obtain ⟨structs, hstructs, h⟩ := Steps.bind_eq_ok_iff.mp h
  obtain ⟨union, hunion, h⟩ := Steps.bind_eq_ok_iff.mp h
  obtain ⟨section_, hsection, h⟩ := Steps.bind_eq_ok_iff.mp h
  cases h
  have hblocks : ∀ block ∈ structs, Nested block.1 ∧ Nested block.2 := by
    intro block hblock
    obtain ⟨mode, hmode, hblock⟩ := Steps.exists_of_mem_mapM hstructs hblock
    exact nested_structLines hstyle hg (hg.modes mode (List.mem_filter.mp hmode).1) hblock
  have hsizes : Nested (structs.flatMap Prod.snd) :=
    .flatMap fun block hblock => (hblocks block hblock).2
  have hsized : Nested (if (structs.flatMap Prod.snd).isEmpty then []
      else structs.flatMap Prod.snd ++ [Line.blank]) := by
    split
    · exact .nil
    · exact hsizes.append (.cons Line.plain_blank .nil)
  have hstructLines : Nested (structs.flatMap Prod.fst) :=
    .flatMap fun block hblock => (hblocks block hblock).1
  exact ((hstructLines.append (nested_unionLines hstyle hg hunion)).append hsized).append
    (nested_sectionLines hstyle hg hsection)

end GroupStruct

end ChipSupport
