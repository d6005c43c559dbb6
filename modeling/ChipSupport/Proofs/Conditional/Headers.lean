import ChipSupport.Proofs.Conditional.Blocks
import ChipSupport.Proofs.Conditional.Documents

/-!
# Conditional parts of whole headers

Every header is a licence comment and one part that holds everything else.  The symbol that guards
the part is defined by its first line.

## Main definitions

* `Conditional.IsHeader` — texts whose parts are nested well, in one part behind the licence
  block.

## Main results

* `ComponentHeader.isHeader_lines`, `InstanceHeader.isHeader_lines`, `PinHeader.isHeader_lines`,
  `MainHeader.isHeader_lines` — the headers of an Arm device.
-/

namespace ChipSupport

open Text Conditional

/-- Texts in which every conditional part is closed in its place, and in which one part holds
everything behind the licence block and empty lines. -/
structure Conditional.IsHeader (license : License) (text : String) : Prop where
  nested : WellNested text
  guarded : ∃ kind block blanks, license.block kind = .ok block ∧
    Guarded (block.map Line.render ++ List.replicate blanks "") text

theorem License.plain_block {license : License} {kind : String} {block : List Line}
    (h : license.block kind = .ok block) : ∀ l ∈ block, Plain l := by
  obtain ⟨words, -, h⟩ := Steps.bind_eq_ok_iff.mp h
  rw [← Except.ok.inj h, List.forall_mem_append, List.forall_mem_singleton]
  exact ⟨Comment.plain_block words 0, Line.plain_blank⟩

/-- A licence block, empty lines, and a part that begins with the definition of its symbol. -/
theorem Conditional.isHeader_fileText {license : License} {kind : String} {block : List Line}
    (hblock : license.block kind = .ok block) (blanks : Nat) {symbol tail : String}
    {body : List Line} (hsymbol : Lacks '\n' symbol) (hbody : Nested body)
    (hfeed : Lacks '\n' tail) (htail : IsTail tail) :
    IsHeader license (Line.fileText (block ++ List.replicate blanks Line.blank
      ++ [.ifUndefined symbol, .define symbol] ++ body ++ [.endIf tail])) := by
  have hcomment : ∀ l ∈ block ++ List.replicate blanks Line.blank, Plain l := by
    rw [List.forall_mem_append]
    refine ⟨License.plain_block hblock, fun l hl => ?_⟩
    rw [List.eq_of_mem_replicate hl]
    exact Line.plain_blank
  have hguarded := guarded_fileText hcomment hsymbol hbody hfeed htail
  rw [List.map_append, List.map_replicate] at hguarded
  exact ⟨hguarded.wellNested, kind, block, blanks, hblock, hguarded⟩

/-! ### Component headers -/

theorem Peripheral.lacks_componentName {p : Peripheral} (hp : p.Unbroken) :
    Lacks '\n' p.componentName := by
  simp +decide [Peripheral.componentName, hp.name, hp.moduleId]

theorem MainHeader.lacks_versionValue {version value : String} (hversion : Lacks '\n' version)
    (h : versionValue version = .ok value) : Lacks '\n' value := by
  unfold versionValue at h
  split at h
  · cases h
  · split at h
    · obtain ⟨n, -, h⟩ := Steps.bind_eq_ok_iff.mp h
      cases h
      simp +decide
    · cases h
      exact hversion

/-- **The component header of a peripheral.** -/
theorem ComponentHeader.isHeader_lines {style : Style} (hstyle : style ∈ Style.presets)
    {p : Peripheral} (hp : p.Unbroken) {license : License} {ls : List Line}
    (h : lines p style license = .ok ls) : IsHeader license (Line.fileText ls) := by
  obtain ⟨block, hblock, h⟩ := Steps.bind_eq_ok_iff.mp h
  obtain ⟨version, hversion, h⟩ := Steps.bind_eq_ok_iff.mp h
  obtain ⟨registers, hregisters, h⟩ := Steps.bind_eq_ok_iff.mp h
  obtain ⟨groups, hgroups, h⟩ := Steps.bind_eq_ok_iff.mp h
  have hname := Peripheral.lacks_componentName hp
  have hversionLines : Nested version := by
    unfold versionLines at hversion
    split at hversion
    · cases hversion
      exact .nil
    · obtain ⟨value, hvalue, hversion⟩ := Steps.bind_eq_ok_iff.mp hversion
      cases hversion
      refine .cons ⟨?_, MainHeader.lacks_versionValue hp.version hvalue, by decide⟩ .nil
      simp +decide [hp.name]
  have hregisterLines : Nested registers.flatten := by
    refine .flatten fun ofGroup hofGroup => ?_
    obtain ⟨g, hg, hofGroup⟩ := Steps.exists_of_mem_mapM hregisters hofGroup
    have hg := hp.groups g hg
    obtain ⟨blocks, hblocks, hofGroup⟩ := Steps.bind_eq_ok_iff.mp hofGroup
    cases hofGroup
    refine .flatten fun ofMode hofMode => ?_
    obtain ⟨mode, hmode, hofMode⟩ := Steps.exists_of_mem_mapM hblocks hofMode
    obtain ⟨shown, hshown, hofMode⟩ := Steps.bind_eq_ok_iff.mp hofMode
    cases hofMode
    refine .flatten fun ofRegister hofRegister => ?_
    obtain ⟨r, hr, hofRegister⟩ := Steps.exists_of_mem_mapM hshown hofRegister
    exact RegisterBlock.nested_lines hstyle (hg.membersOf mode r (List.mem_filter.mp hr).1)
      (hg.modes mode hmode).unbroken (RegisterGroup.lacks_memberStart hg.owner.unbroken) hofRegister
  have hgroupLines : Nested groups.flatten := by
    refine .flatten fun ofGroup hofGroup => ?_
    obtain ⟨g, hg, hofGroup⟩ := Steps.exists_of_mem_mapM hgroups hofGroup
    exact GroupStruct.nested_lines hstyle (hp.groups g hg) hofGroup
  have hbody : Nested (Line.blank :: .define p.componentName :: (version ++ [Line.blank]
      ++ registers.flatten ++ groups.flatten ++ [Line.blank])) :=
    .cons Line.plain_blank (.cons ⟨hname, by decide, by decide⟩
      ((((hversionLines.append (.cons Line.plain_blank .nil)).append hregisterLines).append
        hgroupLines).append (.cons Line.plain_blank .nil)))
  have hsymbol : Lacks '\n' ("_" ++ p.componentName ++ "_COMPONENT_") := by simp +decide [hname]
  have htail : Lacks '\n' (" /* " ++ ("_" ++ p.componentName ++ "_COMPONENT_") ++ " */") := by
    simp +decide [hname]
  have hheader := isHeader_fileText hblock 1 hsymbol hbody htail
    (isTail_enclosed (by decide) (by decide) _ _)
  rw [← Except.ok.inj h]
  simpa [openGuard, List.replicate] using hheader

/-! ### Headers of a device -/

/-- A header of a device around lines that close what they open. -/
theorem isHeader_deviceHeader {license : License} {kind symbol : String} {block body : List Line}
    (hblock : license.block kind = .ok block) (hsymbol : Lacks '\n' symbol) (hbody : Nested body) :
    IsHeader license (Line.fileText (deviceHeader symbol block body)) := by
  have hblank : Nested [Line.blank] := .cons Line.plain_blank .nil
  have htail : Lacks '\n' (" /* " ++ symbol ++ "*/") := by simp +decide [hsymbol]
  have hheader := isHeader_fileText hblock 1 hsymbol ((hblank.append hbody).append hblank) htail
    (isTail_enclosed (by decide) (by decide) _ _)
  simpa [deviceHeader, openGuard, List.replicate] using hheader

section Device

variable {d : Device} (hd : d.Unbroken) {ps : List Peripheral} (hps : ∀ p ∈ ps, p.Unbroken)
include hd

theorem Device.lacks_headerName : Lacks '\n' d.headerName := by
  rw [Device.headerName, lacks_lower]
  exact hd.name

theorem Device.lacks_headerPathIn {directory : String} (h : Lacks '\n' directory) :
    Lacks '\n' (d.headerPathIn directory) := by
  simp +decide [Device.headerPathIn, h, lacks_headerName hd]

include hps

/-- **The header of the instances.** -/
theorem InstanceHeader.isHeader_lines {style : Style} {license : License} {ls : List Line}
    (h : lines d ps style license = .ok ls) : IsHeader license (Line.fileText ls) := by
  obtain ⟨block, hblock, h⟩ := Steps.bind_eq_ok_iff.mp h
  obtain ⟨body, hbody, h⟩ := Steps.bind_eq_ok_iff.mp h
  cases h
  exact isHeader_deviceHeader hblock (by simp +decide [Device.lacks_headerName hd])
    (Instances.nested_lines hps hbody)

/-- **The header of the port pins.** -/
theorem PinHeader.isHeader_lines {pads : List String} (hpads : ∀ pad ∈ pads, Lacks '\n' pad)
    {license : License} {ls : List Line} (h : lines d pads ps license = .ok ls) :
    IsHeader license (Line.fileText ls) := by
  obtain ⟨block, hblock, h⟩ := Steps.bind_eq_ok_iff.mp h
  obtain ⟨body, hbody, h⟩ := Steps.bind_eq_ok_iff.mp h
  cases h
  exact isHeader_deviceHeader hblock (by simp +decide [Device.lacks_headerName hd])
    (Pins.nested_lines hpads hps hbody)

end Device

/-! ### The main header -/

theorem Line.nested_openLinkage : Nested Line.openLinkage := fun _ =>
  .opening (by decide) (.plain (by decide) (.closing (by decide) (by decide)
    (.plain Line.plain_blank (.nil _))))

theorem Line.nested_closeLinkage : Nested Line.closeLinkage := fun _ =>
  .opening (by decide) (.plain (by decide) (.closing (by decide) (by decide)
    (.plain Line.plain_blank (.nil _))))

theorem Style.lacks_cmsisInitMacro : ∀ style ∈ Style.presets, Lacks '\n' style.cmsisInitMacro := by
  decide

namespace MainHeader

theorem plain_literalLine {name value note : String} (hname : Lacks '\n' name)
    (hvalue : Lacks '\n' value) (hnote : Lacks '\n' note) :
    Plain (literalLine name value note) := by
  refine ⟨by simp +decide [hname, hvalue, hnote], mark_define ?_⟩
  simp only [fillTo, String.append_assoc]
  exact prefix_append _ _

theorem nested_literalLines : Nested literalLines := by
  -- the definitions for compilers and those for assemblers
  have hcompiler : Nested ((literalLines.drop 6).take 4) := by
    refine .cons (by decide +kernel) (.cons ?_ (.cons ?_ (.cons ?_ .nil)))
    all_goals exact plain_literalLine (by decide) (by decide) (by decide +kernel)
  have hassembler : Nested ((literalLines.drop 11).take 3) := by
    refine .cons ?_ (.cons ?_ (.cons ?_ .nil))
    all_goals exact plain_literalLine (by decide) (by decide) (by decide +kernel)
  intro parts
  have hopen : Leads parts (literalLines.take 6) (false :: false :: parts) :=
    .opening (by decide) (.opening (by decide) (.plain (by decide +kernel)
      (.closing (by decide) (by decide) (.plain Line.plain_blank (.opening (by decide)
        (.nil _))))))
  have helse : Leads (false :: false :: parts) [.otherwise " /* Assembler */"]
      (true :: false :: parts) := .otherwise (by decide) (by decide) (.nil _)
  have hclose : Leads (true :: false :: parts) (literalLines.drop 14) parts :=
    .closing (by decide) (by decide) (.closing (by decide) (by decide) (.nil _))
  exact (((hopen.append (hcompiler _)).append helse).append (hassembler _)).append hclose

section Device

variable {d : Device} (hd : d.Unbroken)
include hd

theorem lacks_guard : Lacks '\n' (guard d) := by simp +decide [guard, hd.name]

theorem nested_coreLines : Nested (coreLines d) := by
  refine ((Line.nested_heading ?_).append (.map fun v hv => ?_)).append
    (.cons Line.plain_blank .nil)
  · simp +decide [lacks_capitalized hd.architecture]
  · obtain ⟨hname, hvalue, hcaption⟩ := hd.parameters v hv
    exact ⟨hname, hvalue, hcaption⟩

theorem lacks_coreName {core : String} (h : coreName d.architecture = .ok core) :
    Lacks '\n' core := by
  unfold coreName at h
  split at h
  · next c rest hrest =>
    cases h
    rw [lacks_ofList]
    intro hmem
    exact hd.architecture ((List.dropWhile_sublist _).subset (hrest ▸ List.mem_cons_of_mem c hmem))
  · cases h

theorem nested_clockLines {style : Style} (hstyle : style ∈ Style.presets) {ls : List Line}
    (h : clockLines d style = .ok ls) : Nested ls := by
  have hinit : Lacks '\n' style.cmsisInitMacro := Style.lacks_cmsisInitMacro style hstyle
  obtain ⟨core, hcore, h⟩ := Steps.bind_eq_ok_iff.mp h
  have hcore := lacks_coreName hd hcore
  have hnegation : Lacks '\n' (if "DONT_".toList.isPrefixOf style.cmsisInitMacro.toList then "!"
      else "") := lacks_ite (by decide) (by decide)
  cases h
  refine (Line.nested_heading (by decide)).append fun parts => ?_
  refine .plain ?_ (.opening ?_ (.plain (by decide +kernel) (.plain (by decide +kernel)
    (.plain (by decide +kernel) (.closing ?_ (isTail_enclosed (by decide) (by decide) _ _)
      (.plain Line.plain_blank (.nil _)))))))
  · refine plain_include (by simp +decide [hcore]) ?_
    rw [String.append_assoc]
    exact (by decide : "#include ".toList <+: "#include <core_c".toList).trans (prefix_append _ _)
  · exact lacks_append.mpr ⟨lacks_append.mpr ⟨hnegation, by decide⟩, hinit⟩
  · simp +decide [hinit]

/-- The first part of a main header is a licence block, the start of a part, and lines in it. -/
theorem exists_opening {interrupts : Except Fault InterruptList}
    (hinterrupts : ∀ l, interrupts = .ok l → l.Unbroken) {style : Style}
    (hstyle : style ∈ Style.presets) {license : License} {ls : List Line}
    (h : opening d interrupts style license = .ok ls) :
    ∃ block front, license.block style.license = .ok block ∧ Nested front ∧
      ls = block ++ [.ifUndefined (guard d), .define (guard d)] ++ front := by
  obtain ⟨block, hblock, h⟩ := Steps.bind_eq_ok_iff.mp h
  obtain ⟨l, hl, h⟩ := Steps.bind_eq_ok_iff.mp h
  obtain ⟨clock, hclock, h⟩ := Steps.bind_eq_ok_iff.mp h
  have hblank : Nested [Line.blank] := .cons Line.plain_blank .nil
  have hinclude : Nested [Line.compilerOnly, .text "#include <stdint.h>", Line.endCompilerOnly,
      Line.blank] := fun _ =>
    .opening (by decide) (.plain (by decide +kernel) (.closing (by decide) (by decide)
      (.plain Line.plain_blank (.nil _))))
  refine ⟨block, [Line.blank] ++ Line.openLinkage
    ++ [Line.compilerOnly, .text "#include <stdint.h>", Line.endCompilerOnly, Line.blank]
    ++ literalLines ++ [Line.blank] ++ VectorTable.lines l style ++ coreLines d ++ clock,
    hblock, ?_, ?_⟩
  · have hpreamble := (((hblank.append Line.nested_openLinkage).append hinclude).append
      nested_literalLines).append hblank
    exact ((hpreamble.append (VectorTable.nested_lines (hinterrupts l hl) style)).append
      (nested_coreLines hd)).append (nested_clockLines hd hstyle hclock)
  · rw [← Except.ok.inj h]
    simp [preamble, openGuard]

omit hd in
theorem nested_includeLines {title : String} (htitle : Lacks '\n' title) {paths : List String}
    (hpaths : ∀ path ∈ paths, Lacks '\n' path) : Nested (includeLines title paths) := by
  refine ((Line.nested_heading htitle).append (.map fun path hpath =>
    plain_include ?_ ?_)).append (.cons Line.plain_blank .nil)
  · simp +decide [hpaths path hpath]
  · rw [String.append_assoc]
    exact (by decide : "#include ".toList <+: "#include \"".toList).trans (prefix_append _ _)

theorem nested_memoryLines : Nested (memoryLines d) := by
  refine (Line.nested_heading (by decide)).append (.flatMap fun s hs => ?_)
  have hs := hd.segments s hs
  refine .cons ?_ (.cons ?_ (.append ?_ (.cons Line.plain_blank .nil)))
  · simp +decide [Plain, longValue, hs]
  · simp +decide [Plain, longValue, hs]
  · split
    · exact .cons (by simp +decide [Plain, hs]) (.cons (by simp +decide [Plain, hs]) .nil)
    · exact .nil

omit hd in
theorem nested_valueLines {title absent : String} {values : List NamedValue}
    (hvalues : ∀ v ∈ values, v.Unbroken) (htitle : Lacks '\n' title)
    (habsent : Plain (.text absent)) : Nested (valueLines title values absent) := by
  refine ((Line.nested_heading htitle).append ?_).append (.cons Line.plain_blank .nil)
  split
  · exact .cons habsent .nil
  · refine .map fun v hv => ?_
    obtain ⟨hname, hvalue, hcaption⟩ := hvalues v hv
    simp +decide [Plain, hname, hvalue, hcaption]

omit hd in
theorem nested_eventLines {title start absent : String} {events : List Event}
    (hevents : ∀ e ∈ events, Lacks '\n' e.name) (htitle : Lacks '\n' title)
    (hstart : Lacks '\n' start) (habsent : Plain (.text absent)) :
    Nested (eventLines title start events absent) := by
  refine ((Line.nested_heading htitle).append ?_).append (.cons Line.plain_blank .nil)
  split
  · exact .cons habsent .nil
  · refine .map fun e he => ?_
    simp +decide [Plain, hstart, hevents e he]

omit hd in
theorem nested_allEventLines {doc : Document} (hdoc : doc.Unbroken) {ls : List Line}
    (h : allEventLines doc = .ok ls) : Nested ls := by
  obtain ⟨generators, hgenerators, h⟩ := Steps.bind_eq_ok_iff.mp h
  obtain ⟨users, husers, h⟩ := Steps.bind_eq_ok_iff.mp h
  cases h
  exact (nested_eventLines (Document.unbroken_events hdoc hgenerators) (by decide) (by decide)
    (by decide +kernel)).append (nested_eventLines (Document.unbroken_events hdoc husers)
      (by decide) (by decide) (by decide +kernel))

omit hd in
/-- The last part of a main header, with the parts that a style can leave out. -/
theorem rest_eq (doc : Document) (d : Device) (dcrs : List ConfigRegister) (style : Style) :
    rest doc d dcrs style = (if style.events then allEventLines doc else .ok []) >>= fun events =>
      (if style.configRegs then ConfigSettings.lines dcrs .impl else .ok []) >>= fun settings =>
        .ok (memoryLines d ++ propertyLines d ++ events ++ settings ++ Line.closeLinkage
          ++ [.endIf ("  /* " ++ guard d ++ " */")]) := by
  unfold rest
  cases style.events <;> cases style.configRegs <;> rfl

/-- The last part of a main header is lines and the end of the part that they are in. -/
theorem exists_rest {doc : Document} (hdoc : doc.Unbroken) {dcrs : List ConfigRegister}
    (hdcrs : ∀ r ∈ dcrs, r.Unbroken) {style : Style} {ls : List Line}
    (h : rest doc d dcrs style = .ok ls) :
    ∃ back, Nested back ∧ ls = back ++ [.endIf ("  /* " ++ guard d ++ " */")] := by
  rw [rest_eq] at h
  obtain ⟨events, hevents, h⟩ := Steps.bind_eq_ok_iff.mp h
  obtain ⟨settings, hsettings, h⟩ := Steps.bind_eq_ok_iff.mp h
  have hproperties : Nested (propertyLines d) :=
    (nested_valueLines hd.signatures (by decide) (by decide +kernel)).append
      (nested_valueLines hd.electrical (by decide) (by decide +kernel))
  have heventLines : Nested events := by
    split at hevents
    · exact nested_allEventLines hdoc hevents
    · cases hevents
      exact .nil
  have hsettingLines : Nested settings := by
    split at hsettings
    · exact ConfigSettings.nested_lines hdcrs hsettings
    · cases hsettings
      exact .nil
  exact ⟨_, ((((nested_memoryLines hd).append hproperties).append heventLines).append
    hsettingLines).append Line.nested_closeLinkage, (Except.ok.inj h).symm⟩

/-- **The main header,** with any lines between its first and its last part that close what they
open. -/
theorem isHeader_lines {doc : Document} (hdoc : doc.Unbroken) {dcrs : List ConfigRegister}
    (hdcrs : ∀ r ∈ dcrs, r.Unbroken) {style : Style} (hstyle : style ∈ Style.presets)
    {license : License} {first middle last : List Line}
    (hfirst : opening d doc.interrupts style license = .ok first) (hmiddle : Nested middle)
    (hlast : rest doc d dcrs style = .ok last) :
    IsHeader license (Line.fileText (first ++ middle ++ last)) := by
  obtain ⟨block, front, hblock, hfront, rfl⟩ :=
    exists_opening hd (fun l hl => Document.unbroken_interrupts hdoc hl) hstyle hfirst
  obtain ⟨back, hback, rfl⟩ := exists_rest hd hdoc hdcrs hlast
  have htail : Lacks '\n' ("  /* " ++ guard d ++ " */") := by simp +decide [lacks_guard hd]
  have hheader := isHeader_fileText hblock 0 (lacks_guard hd)
    ((hfront.append hmiddle).append hback) htail (isTail_enclosed (by decide) (by decide) _ _)
  simpa using hheader

end Device

end MainHeader

end ChipSupport
