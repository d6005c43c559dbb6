import ChipSupport.Mips.Header
import ChipSupport.Proofs.Conditional.Headers

/-!
# Conditional parts of the header of a MIPS device

One part holds what only compilers read, with what only assemblers read as its opposite case.  Each
feature that a compiler may define itself is a part of its own.

## Main results

* `MipsDevice.lacks_of_mem_memoryPlan` — the names of memory regions.
* `MipsHeader.isHeader_lines` — **the header of a MIPS device.**
-/

namespace ChipSupport

open Text Conditional

/-! ### Memory regions -/

theorem lacks_of_mem_bootRegions (size : Int) : ∀ r ∈ bootRegions size, Lacks '\n' r.name := by
  unfold bootRegions
  split
  · decide
  · split
    · decide
    · split <;> decide

theorem lacks_of_mem_planRegion {m : MemoryRegion} (h : Lacks '\n' m.name) :
    ∀ r ∈ planRegion m, Lacks '\n' r.name := by
  have hsingle {r : Region} (hr : Lacks '\n' r.name) (segment : Int) :
      ∀ s ∈ [r.inSegment segment], Lacks '\n' s.name := List.forall_mem_singleton.mpr hr
  unfold planRegion
  dsimp only
  split
  · split
    · exact lacks_of_mem_bootRegions _
    · exact hsingle h _
  · split
    · exact hsingle (by decide : Lacks '\n' "kseg0_program_mem") _
    · exact List.forall_mem_nil _
  · split
    · exact hsingle h _
    · exact List.forall_mem_nil _
  · exact List.forall_mem_map.mpr fun k _ => by simp +decide [Region.inSegment, h]
  · exact List.forall_mem_map.mpr fun k _ => by simp +decide [Region.inSegment, h]
  · exact hsingle h _
  · exact hsingle h _
  · exact hsingle h _
  · exact List.forall_mem_nil _

theorem MipsDevice.lacks_of_mem_memoryPlan {d : MipsDevice} (hd : d.Unbroken) :
    ∀ r ∈ d.memoryPlan [], Lacks '\n' r.name := by
  intro r hr
  rw [memoryPlan, List.map_nil, List.append_nil, Region.sorted, List.mem_mergeSort, baseRegions,
    List.mem_append] at hr
  rcases hr with hr | hr
  · obtain ⟨m, hm, hr⟩ := List.mem_flatMap.mp hr
    exact lacks_of_mem_planRegion (hd.regions m hm) r hr
  · split at hr
    · cases hr
    · rw [List.mem_singleton.mp hr]
      exact (by decide : Lacks '\n' "exception_mem")

/-! ### Parts of the name -/

theorem MipsDevice.lacks_baseName {d : MipsDevice} (hd : d.Unbroken) : Lacks '\n' d.baseName := by
  refine lacks_ite ?_ hd.name
  rw [dropStart, lacks_ofList]
  exact fun h => hd.name (List.mem_of_mem_drop h)

theorem MipsDevice.lacks_series {d : MipsDevice} (hd : d.Unbroken) : Lacks '\n' d.series := by
  have hstart (n : Nat) : Lacks '\n' (takeStart d.name n) := by
    rw [takeStart, lacks_ofList]
    exact fun h => hd.name (List.mem_of_mem_take h)
  exact lacks_ite (hstart 3) (lacks_ite (hstart 5) (hstart 7))

namespace MipsHeader

section Slices

variable {s : String} (h : Lacks '\n' s)
include h

theorem lacks_slice (first stop : Nat) : Lacks '\n' (slice s first stop) := by
  rw [slice, lacks_ofList]
  exact fun hmem => h (List.mem_of_mem_take (List.mem_of_mem_drop hmem))

theorem lacks_lastChars (n : Nat) : Lacks '\n' (lastChars s n) := by
  rw [lastChars, lacks_ofList]
  exact fun hmem => h (List.mem_of_mem_drop hmem)

theorem lacks_dropZeros : Lacks '\n' (dropZeros s) := by
  unfold dropZeros
  split
  · decide
  · rw [lacks_ofList]
    exact fun hmem => h ((List.dropWhile_sublist _).subset hmem)

end Slices

/-! ### Features -/

/-- A symbol and its value, on one line each. -/
def OnLine (f : String × String) : Prop := Lacks '\n' f.1 ∧ Lacks '\n' f.2

theorem onLine_both {name value : String} (hname : Lacks '\n' name) (hvalue : Lacks '\n' value) :
    ∀ f ∈ both name value, OnLine f := by
  rw [both, List.forall_mem_cons, List.forall_mem_singleton]
  exact ⟨⟨hname, hvalue⟩, lacks_append.mpr ⟨hname, by decide⟩, hvalue⟩

section Features

variable {d : MipsDevice} (hd : d.Unbroken)
include hd

theorem onLine_nameFeatures : ∀ f ∈ nameFeatures d, OnLine f := by
  have hbase := MipsDevice.lacks_baseName hd
  have hflash (first stop : Nat) : Lacks '\n' (dropZeros (slice d.baseName first stop)) :=
    lacks_dropZeros (lacks_slice hbase first stop)
  have hset := lacks_slice hbase 8 10
  -- the names of the MX series are divided at other places than those of the later ones
  unfold nameFeatures
  dsimp only
  split
  · simp only [List.forall_mem_append]
    refine ⟨⟨⟨onLine_both (by decide) (hflash 8 11), onLine_both (by decide) (hflash 8 11)⟩,
      onLine_both (by decide) (lacks_slice hbase 4 7)⟩, onLine_both (by decide) ?_⟩
    simp +decide [lacks_lastChars hbase 1]
  · split
    · simp only [List.forall_mem_append]
      refine ⟨⟨⟨⟨⟨onLine_both (by decide) (hflash 4 8), onLine_both (by decide) ?_⟩,
        onLine_both (by decide) ?_⟩, onLine_both (by decide) ?_⟩, onLine_both (by decide) ?_⟩,
        onLine_both (by decide) (lacks_dropZeros (lacks_lastChars hbase 3))⟩
      · simp +decide [hset]
      · simp +decide [lacks_slice hset 0 1]
      · simp +decide [lacks_slice hset 1 2]
      · simp +decide [lacks_slice hbase 10 11]
    · exact List.forall_mem_nil _

omit hd in
theorem lacks_of_mem_flagFeatures : ∀ f ∈ flagFeatures d, Lacks '\n' f.1 := by
  simp +decide [flagFeatures]

theorem onLine_features : ∀ f ∈ features d, OnLine f := by
  have hbase := MipsDevice.lacks_baseName hd
  have hseries := MipsDevice.lacks_series hd
  have hone : Lacks '\n' "1" := by decide
  simp only [features, List.forall_mem_append, List.forall_mem_cons, List.forall_mem_map]
  refine ⟨⟨⟨⟨⟨?_, hone⟩, ⟨?_, hone⟩, ⟨?_, hone⟩, ⟨?_, hone⟩, List.forall_mem_nil _⟩,
    onLine_nameFeatures hd⟩, fun f hf => ⟨?_, hone⟩⟩, ⟨?_, Writing.lacks_text _ _⟩,
    List.forall_mem_nil _⟩
  · simp +decide [hbase]
  · simp +decide [hbase]
  · simp +decide [hseries]
  · simp +decide [hseries]
  · exact lacks_of_mem_flagFeatures f (List.mem_filter.mp hf).1
  · exact (by decide : Lacks '\n' "__PIC32_SRS_SET_COUNT")

omit hd in
/-- A definition behind blanks. -/
theorem mark_indentedDefine {s : String} (h : "#  define ".toList <+: s.toList) :
    mark s = .neutral := by
  obtain ⟨rest, hrest⟩ := h
  rw [mark, ← hrest]
  rfl

omit hd in
theorem nested_featureLine {f : String × String} (hf : OnLine f) : Nested (featureLine f) := by
  have hdefinition : "#  define ".toList <+: ("#  define " ++ f.1).toList := prefix_append _ _
  have hopens : Opens (.ifUndefined f.1) := hf.1
  refine .part hopens (.cons ?_ .nil) (by decide) (by decide)
  split
  · exact ⟨lacks_append.mpr ⟨by decide, hf.1⟩, mark_indentedDefine hdefinition⟩
  · refine ⟨by simp +decide [hf.1, hf.2], mark_indentedDefine ?_⟩
    exact (hdefinition.trans (prefix_padTo _ 40)).trans (prefix_append _ _)

theorem nested_featureLines : Nested (featureLines d) :=
  ((Nested.of_plain (Comment.plain_block _ _)).append (.flatMap fun f hf =>
    nested_featureLine (onLine_features hd f hf))).append (.cons Line.plain_blank .nil)

end Features

/-! ### Registers -/

section Register

variable {r : ConfigRegister} (hr : r.Unbroken)
include hr

theorem lacks_of_mem_shownModes : ∀ fields ∈ shownModes r, ∀ f ∈ fields, Lacks '\n' f.name := by
  intro fields hfields f hf
  obtain ⟨m, hm, rfl⟩ := List.mem_map.mp (List.mem_filter.mp hfields).1
  rw [shownFields, List.mem_mergeSort, ConfigMode.visibleFields] at hf
  exact (hr.modes m hm f (List.mem_filter.mp hf).1).name

omit hr in
theorem lacks_of_mem_structMembers {fields : List ConfigField}
    (h : ∀ f ∈ fields, Lacks '\n' f.name) (next : Int) :
    ∀ m ∈ structMembers next fields, Lacks '\n' m.1 := by
  induction fields generalizing next with
  | nil => exact List.forall_mem_nil _
  | cons f rest ih =>
    rw [List.forall_mem_cons] at h
    rw [structMembers]
    split
    · exact List.forall_mem_cons.mpr ⟨List.not_mem_nil, List.forall_mem_cons.mpr ⟨h.1, ih h.2 _⟩⟩
    · exact List.forall_mem_cons.mpr ⟨h.1, ih h.2 _⟩

omit hr in
theorem nested_structLines {fields : List ConfigField} (h : ∀ f ∈ fields, Lacks '\n' f.name) :
    Nested (structLines fields) := by
  refine .append (.cons (by decide) (.map fun m hm => plain_text ?_ ?_)) (.cons (by decide) .nil)
  · simp +decide [lacks_of_mem_structMembers h 0 m hm]
  · simp +decide [String.append_assoc]

theorem lacks_unionName : Lacks '\n' (unionName r.name) := by simp +decide [unionName, hr.name]

/-- A union is read by compilers as a whole. -/
theorem nested_unionLines : Nested (unionLines r) := by
  have hfields := lacks_of_mem_shownModes hr
  unfold unionLines
  split
  · exact .nil
  · refine .append (.append (.cons (by decide) (.flatMap fun fields hmem =>
      nested_structLines (hfields fields hmem))) ?_) (.cons (plain_text ?_ ?_) .nil)
    · split
      · exact .nil
      · exact .of_plain (by decide)
    · simp +decide [lacks_unionName hr]
    · simp +decide [String.append_assoc]

theorem lacks_of_mem_portalAddresses : ∀ p ∈ portalAddresses r, Lacks '\n' p.1 := by
  refine List.forall_mem_map.mpr fun p hp => lacks_append.mpr ⟨hr.name, ?_⟩
  exact hr.portals p.1 (List.fst_mem_of_mem_zipIdx hp)

omit hr in
theorem plain_wordLine {name : String} (h : Lacks '\n' name) (address : Int) :
    Plain (wordLine name address) := by
  simp +decide [Plain, wordLine, h]

theorem nested_registerLines : Nested (registerLines r) := by
  have hbits : Nested (if (shownModes r).isEmpty then [] else [.define (r.name ++ "bits")
      ("(*(volatile " ++ unionName r.name ++ " *)0x" ++ Numeral.hex (uncachedAddress r.address)
        ++ ")")]) := by
    split
    · exact .nil
    · exact .cons (by simp +decide [Plain, hr.name, lacks_unionName hr]) .nil
  have hportals : Nested ((portalAddresses r).map fun p => wordLine p.1 p.2) :=
    .map fun p hp => plain_wordLine (lacks_of_mem_portalAddresses hr p hp) _
  exact (((Nested.cons (plain_wordLine hr.name _) (nested_unionLines hr)).append hbits).append
    hportals).append (.cons Line.plain_blank .nil)

theorem nested_assemblerLines : Nested (assemblerLines r) := by
  refine .cons ?_ (.map fun p hp => ?_)
  · simp +decide [Plain, hexValue, hr.name]
  · simp +decide [Plain, hexValue, lacks_of_mem_portalAddresses hr p hp]

omit hr in
theorem nested_fieldLines {register field : String} (hregister : Lacks '\n' register)
    (hfield : Lacks '\n' field) (position mask width : Int) :
    Nested (fieldLines register field position mask width) := by
  refine .cons ?_ (.cons ?_ (.cons ?_ (.cons Line.plain_blank .nil)))
  all_goals simp +decide [Plain, hexValue, hregister, hfield]

theorem nested_registerFieldLines : Nested (registerFieldLines r) := by
  refine .append (.flatMap fun f hf => ?_) ?_
  · obtain ⟨fields, hfields, hf⟩ := List.mem_flatten.mp hf
    exact nested_fieldLines hr.name (lacks_of_mem_shownModes hr fields hfields f hf) _ _ _
  · split
    · exact .nil
    · exact nested_fieldLines hr.name (by decide) _ _ _

end Register

/-! ### Interrupts, peripherals and regions -/

theorem nested_numberLines {ending : String} (hending : Lacks '\n' ending) {is : List Interrupt}
    (h : ∀ i ∈ is, i.Unbroken) : Nested (numberLines ending is) := by
  refine .map fun i hi => ?_
  simp +decide [Plain, hending, (h i hi).name.unbroken]

theorem nested_interruptLines {l : InterruptList} (hl : l.Unbroken) :
    Nested (interruptLines l) := by
  have hblank : Nested [Line.blank] := .cons Line.plain_blank .nil
  have hvectors : ∀ i ∈ l.sortedVectors, i.Unbroken := fun i hi =>
    hl.vectors i (l.perm_sortedVectors.mem_iff.mp hi)
  have hrequests : ∀ i ∈ InterruptList.sorted l.requests, i.Unbroken := fun i hi =>
    hl.requests i (List.mem_mergeSort.mp hi)
  refine ((Nested.cons (by decide +kernel) (nested_numberLines (by decide) hvectors)).append
    hblank).append ?_
  split
  · exact .nil
  · exact (Nested.cons (by decide +kernel) (nested_numberLines (by decide) hrequests)).append hblank

theorem nested_peripheralLines {sfrs : List ConfigRegister} (h : ∀ r ∈ sfrs, r.Unbroken) :
    Nested (peripheralLines sfrs) := by
  have hnames : Nested (sfrs.flatMap fun r => r.baseOf.map fun p => .define ("_" ++ p)) := by
    refine .flatMap fun r hr => .map fun p hp => ?_
    simp +decide [Plain, (h r hr).baseOf p hp]
  have haddresses : Nested (sfrs.flatMap fun r => r.baseOf.map fun p =>
      .defineWide ("_" ++ p ++ "_BASE_ADDRESS") (hexValue (uncachedAddress r.address))) := by
    refine .flatMap fun r hr => .map fun p hp => ?_
    simp +decide [Plain, hexValue, (h r hr).baseOf p hp]
  exact (((Nested.cons (by decide +kernel) hnames).append (.of_plain (by decide +kernel))).append
    haddresses).append (.cons Line.plain_blank .nil)

section Header

variable {d : MipsDevice} (hd : d.Unbroken)
include hd

theorem nested_regionLines : Nested (regionLines d) := by
  refine .append (.cons (by decide +kernel) (.flatMap fun r hr => .of_plain ?_))
    (.cons Line.plain_blank .nil)
  have hname := MipsDevice.lacks_of_mem_memoryPlan hd r hr
  simp +decide [Plain, hexValue, hname]

theorem lacks_guard : Lacks '\n' (guard d) := by
  simp +decide [guard, MipsDevice.lacks_baseName hd]

omit hd in
/-- What compilers read of the registers, and what assemblers read of them. -/
theorem nested_registers {rs : List ConfigRegister} (h : ∀ r ∈ rs, r.Unbroken) :
    Nested ([Line.compilerOnly, .text "#include <stdint.h>", Line.blank] ++ Line.openLinkage
      ++ rs.flatMap registerLines ++ Line.closeLinkage
      ++ [.otherwise "  /* __ASSEMBLER__ */", Line.blank]
      ++ rs.flatMap assemblerLines ++ [Line.blank, Line.endCompilerOnly, Line.blank]) := by
  have hwords : Nested (rs.flatMap registerLines) :=
    .flatMap fun r hr => nested_registerLines (h r hr)
  have haddresses : Nested (rs.flatMap assemblerLines) :=
    .flatMap fun r hr => nested_assemblerLines (h r hr)
  intro parts
  have hopen : Leads parts [Line.compilerOnly, .text "#include <stdint.h>", Line.blank]
      (false :: parts) :=
    .opening (by decide) (.plain (by decide +kernel) (.plain Line.plain_blank (.nil _)))
  have helse : Leads (false :: parts) [.otherwise "  /* __ASSEMBLER__ */", Line.blank]
      (true :: parts) :=
    .otherwise (by decide) (by decide) (.plain Line.plain_blank (.nil _))
  have hclose : Leads (true :: parts) [Line.blank, Line.endCompilerOnly, Line.blank] parts :=
    .plain Line.plain_blank (.closing (by decide) (by decide) (.plain Line.plain_blank (.nil _)))
  exact (((((hopen.append (Line.nested_openLinkage _)).append (hwords _)).append
    (Line.nested_closeLinkage _)).append helse).append (haddresses _)).append hclose

/-- **The header of a MIPS device.** -/
theorem isHeader_lines {license : License} {ls : List Line} (h : lines d license = .ok ls) :
    IsHeader license (Line.fileText ls) := by
  obtain ⟨block, hblock, h⟩ := Steps.bind_eq_ok_iff.mp h
  obtain ⟨-, -, h⟩ := Steps.bind_eq_ok_iff.mp h
  obtain ⟨-, -, h⟩ := Steps.bind_eq_ok_iff.mp h
  obtain ⟨settings, hsettings, h⟩ := Steps.bind_eq_ok_iff.mp h
  obtain ⟨-, -, h⟩ := Steps.bind_eq_ok_iff.mp h
  have hregisters : ∀ r ∈ d.sfrs ++ d.dcrs, r.Unbroken :=
    List.forall_mem_append.mpr ⟨hd.sfrs, hd.dcrs⟩
  have hfields : Nested ((d.sfrs ++ d.dcrs).flatMap registerFieldLines) :=
    .flatMap fun r hr => nested_registerFieldLines (hregisters r hr)
  have hbody := (((((((Nested.cons Line.plain_blank (nested_registers hregisters)).append
    hfields).append (nested_interruptLines hd.interrupts)).append
    (nested_peripheralLines hd.sfrs)).append (nested_regionLines hd)).append
    (ConfigSettings.nested_lines hd.dcrs hsettings)).append (nested_featureLines hd))
  have htail : Lacks '\n' ("  /* " ++ guard d ++ " */") := by simp +decide [lacks_guard hd]
  have hheader := isHeader_fileText hblock 0 (lacks_guard hd) hbody htail
    (isTail_enclosed (by decide) (by decide) _ _)
  rw [← Except.ok.inj h]
  simpa using hheader

end Header

end MipsHeader

end ChipSupport
