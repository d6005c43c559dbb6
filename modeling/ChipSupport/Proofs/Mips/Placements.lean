import ChipSupport.Proofs.Conditional.Blocks
import ChipSupport.Proofs.Mips.Description
import ChipSupport.Proofs.Mips.Trampolines

/-!
# Regions in which sections are placed

The sections of a linker script are placed in regions by name, and the script declares the regions
of the memory plan.  Which names occur depends on the features of the device, and which regions are
planned depends on its memory.

## Main definitions

* `MipsDevice.regionNames` — the names that the script declares.
* `MipsDevice.HasMemory` — devices with memory to start from, for programs and for data.

## Main results

* `MipsScript.mem_placements_sections` — the regions in which programs and data are placed.
* `MipsScript.placements_declared_iff` — **the only region that may be missing is the one for the
  code that initializes the cache.**
-/

namespace ChipSupport

open Script

/-! ### Comments -/

namespace Comment

theorem skipBlanks_replicate (k : Nat) (cs : List Char) :
    skipBlanks (List.replicate k ' ' ++ cs) = skipBlanks cs := by
  induction k with
  | zero => rfl
  | succ k ih => rw [List.replicate_succ, List.cons_append, skipBlanks_blank, ih]

theorem inside_indented (k : Nat) {s : String} (h : Inside s) :
    Inside (String.ofList (List.replicate k ' ') ++ s) := by
  obtain ⟨c, cs, hcs, hc⟩ := h
  exact ⟨c, cs, by rw [String.toList_append, String.toList_ofList, skipBlanks_replicate, hcs], hc⟩

theorem inside_firstLine (k : Nat) (line : String) :
    Inside (firstLine (String.ofList (List.replicate k ' ')) line) := by
  rw [firstLine]
  split
  · exact inside_indented k (inside_ofList rfl rfl)
  · -- the slash is not trimmed
    have hslash : (String.ofList (List.replicate k ' ') ++ "/* " ++ line).toList
        = List.replicate k ' ' ++ '/' :: ('*' :: ' ' :: line.toList) := by simp
    rw [Text.trimEnd, hslash, Text.trimEndChars_append (by decide)]
    have hskip : skipBlanks (List.replicate k ' '
        ++ '/' :: Text.trimEndChars ('*' :: ' ' :: line.toList))
        = '/' :: Text.trimEndChars ('*' :: ' ' :: line.toList) :=
      (skipBlanks_replicate k _).trans (skipBlanks_of_ne (by decide) _)
    exact inside_ofList hskip rfl

theorem inside_laterLine (k : Nat) (line : String) :
    Inside (laterLine (String.ofList (List.replicate k ' ')) line) := by
  rw [laterLine]
  split
  · exact inside_indented k (inside_ofList rfl rfl)
  · exact (inside_indented k (inside_ofList rfl rfl)).append line

/-- Comments are in no region. -/
theorem placements_block (text : String) (indent : Int) : placements (block text indent) = [] := by
  have hlines : ∀ l ∈ blockText text indent, Inside l := by
    rw [blockText, List.forall_mem_append, List.forall_mem_singleton]
    refine ⟨?_, inside_indented _ (inside_ofList rfl rfl)⟩
    split
    · exact List.forall_mem_singleton.mpr (inside_indented _ (inside_ofList rfl rfl))
    · rw [List.forall_mem_cons, List.forall_mem_map]
      exact ⟨inside_firstLine _ _, fun l _ => inside_laterLine _ l⟩
  rw [block, ← fixed, placements_fixed, List.filterMap_eq_nil_iff]
  exact fun l hl => placement?_of_inside (hlines l hl)

end Comment

namespace MipsScript

/-! ### The parts of the script -/

section Parts

variable {region : String}

theorem placements_opening : placements (fixed ["SECTIONS", "\x7b"]) = [] := by
  rw [placements_fixed]
  exact filterMap_placement?_inside (inside_ofList rfl rfl)
    (filterMap_placement?_inside (inside_ofList rfl rfl) rfl)

theorem placements_closing : placements (fixed ["\x7d"]) = [] := by
  rw [placements_fixed]
  exact filterMap_placement?_unplaced rfl rfl

theorem placements_blank : placements (fixed [""]) = [] := by
  rw [placements_fixed]
  exact filterMap_placement?_unplaced rfl rfl

theorem placements_boot :
    placements (fixed bootSections) = ["kseg1_boot_mem", "kseg1_boot_mem", "kseg1_boot_mem"] := by
  rw [placements_fixed, bootSections]
  repeat' first
    | refine filterMap_placement?_inside (inside_ofList rfl rfl) ?_
    | refine filterMap_placement?_ofList rfl ?_
    | refine filterMap_placement?_unplaced rfl ?_
  rfl

theorem placements_cache (hregion : skipBlanks region.toList = region.toList) :
    placements (fixed (cacheSections region)) = ["kseg1_boot_mem_4B0", region, region] := by
  rw [placements_fixed, cacheSections]
  repeat' first
    | with_reducible refine filterMap_placement?_ends ?_ hregion ?_ <;>
        [exact ends_ofList rfl (.inr rfl); skip]
    | refine filterMap_placement?_inside (inside_ofList rfl rfl) ?_
    | refine filterMap_placement?_ofList rfl ?_
    | refine filterMap_placement?_unplaced rfl ?_
  rfl

theorem placements_exception (hregion : skipBlanks region.toList = region.toList) :
    placements (fixed (exceptionSection region)) = [region] := by
  rw [placements_fixed, exceptionSection]
  repeat' first
    | with_reducible refine filterMap_placement?_ends ?_ hregion ?_ <;>
        [exact ends_ofList rfl (.inr rfl); skip]
    | refine filterMap_placement?_inside (inside_ofList rfl rfl) ?_
  rfl

theorem placements_code :
    placements (fixed codeSections) = List.replicate 14 "kseg0_program_mem" := by
  rw [placements_fixed, codeSections]
  repeat' first
    | with_reducible refine filterMap_placement?_append ?_ ?_ <;>
        [exact inside_ofList rfl rfl; skip]
    | refine filterMap_placement?_inside (inside_ofList rfl rfl) ?_
    | refine filterMap_placement?_ofList rfl ?_
    | refine filterMap_placement?_unplaced rfl ?_
  rfl

theorem placements_data (hregion : skipBlanks region.toList = region.toList) :
    placements (fixed (dataSections region)) = List.replicate 13 region := by
  simp only [placements_fixed, dataSections, List.replicate]
  repeat' first
    | with_reducible refine filterMap_placement?_ends ?_ hregion ?_ <;>
        [exact ends_ofList rfl (.inl rfl); skip]
    | with_reducible refine
        filterMap_placement?_append (.append (.append (.append ?_ _) _) _) ?_ <;>
        [exact inside_ofList rfl rfl; skip]
    | with_reducible refine filterMap_placement?_append ?_ ?_ <;>
        [exact inside_ofList rfl rfl; skip]
    | refine filterMap_placement?_inside (inside_ofList rfl rfl) ?_
    | refine filterMap_placement?_unplaced rfl ?_
  rfl

theorem placements_debug : placements (fixed debugSections) = [] := by
  rw [placements_fixed, debugSections]
  repeat' first
    | with_reducible refine filterMap_placement?_append ?_ ?_ <;>
        [exact inside_ofList rfl rfl; skip]
    | refine filterMap_placement?_inside (inside_ofList rfl rfl) ?_
  rfl

theorem placements_debugData (d : MipsDevice) (hregion : skipBlanks region.toList = region.toList) :
    placements (debugData d region) = [region] := by
  unfold debugData
  rw [placements_fixed]
  cases d.dspr2 <;> cases d.fpu
  all_goals
    simp only [Bool.false_eq_true, if_false, if_true, List.cons_append, List.nil_append]
    repeat' first
      | with_reducible refine filterMap_placement?_ends ?_ hregion ?_ <;>
          [exact ends_ofList rfl (.inl rfl); skip]
      | refine filterMap_placement?_inside (inside_ofList rfl rfl) ?_
      | refine filterMap_placement?_unplaced rfl ?_
    rfl

theorem placements_variableVector (n : String) : placements (fixed (variableVector n)) = [] := by
  rw [placements_fixed, variableVector]
  refine filterMap_placement?_inside (inside_ofList rfl rfl) ?_
  refine filterMap_placement?_inside (.append (.append (inside_ofList rfl rfl) _) _) ?_
  refine filterMap_placement?_inside (.append (.append (.append (.append (.append (.append
    (inside_ofList rfl rfl) _) _) _) _) _) _) ?_
  rfl

theorem placements_variableVectors (l : InterruptList) :
    placements (variableVectors l) = ["kseg0_program_mem"] := by
  have hvectors : placements (fixed ((vectorNumbers l).flatMap
      fun n => variableVector (Numeral.natural n))) = [] := by
    rw [placements_flatMap, List.flatMap_eq_nil_iff]
    exact fun n _ => placements_variableVector _
  simp only [variableVectors, placements_append, Comment.placements_block, hvectors,
    List.append_nil, placements_fixed, ← List.filterMap_append, List.cons_append,
    List.nil_append]
  repeat' first
    | refine filterMap_placement?_inside (inside_ofList rfl rfl) ?_
    | refine filterMap_placement?_ofList rfl ?_
    | refine filterMap_placement?_unplaced rfl ?_
  rfl

/-- A jump is a section in the region of exceptions. -/
theorem placements_trampoline (microMipsOnly : Bool) (n : Nat) :
    placements (fixed (trampoline microMipsOnly n)) = ["exception_mem"] := by
  have hcontents : (slot microMipsOnly n).contents.filterMap placement? = [] :=
    List.filterMap_eq_nil_iff.mpr fun _ => placement?_of_mem_contents
  rw [placements_fixed, trampoline_eq, List.filterMap_cons_none, List.filterMap_append, hcontents,
    List.nil_append]
  · exact filterMap_placement?_ofList rfl rfl
  · exact placement?_of_inside (.append (.append (.append (.append
      (inside_ofList rfl rfl) _) _) _) _)

theorem mem_placements_trampolines (d : MipsDevice) {name : String} :
    name ∈ placements (trampolines d) ↔ name = "exception_mem" := by
  have hjumps : placements (trampolines d)
      = (vectorNumbers d.interrupts).flatMap fun _ => ["exception_mem"] := by
    have hnote : placements (fixed (if d.microMipsOnly = true then
        ["  /* j (.vector_n >> 1)", "   * ssnop", "   */"]
        else ["  /* lui k0, %hi(.vector_n)", "   * ori k0, k0, %lo(.vector_n)", "   * jr k0",
          "   * ssnop", "   */"])) = [] := by
      rw [placements_fixed]
      split
      all_goals
        repeat' refine filterMap_placement?_inside (inside_ofList rfl rfl) ?_
        rfl
    rw [trampolines, placements_fixed_append, placements_fixed_append, placements_flatMap, hnote,
      placements_blank, List.nil_append, List.append_nil]
    simp only [placements_trampoline]
  have hfirst : 0 ∈ vectorNumbers d.interrupts :=
    mem_vectorNumbers.mpr d.interrupts.lastVectorNumber_nonneg
  rw [hjumps, List.mem_flatMap]
  constructor
  · rintro ⟨-, -, h⟩
    exact List.mem_singleton.mp h
  · rintro rfl
    exact ⟨0, hfirst, List.mem_singleton_self _⟩

theorem mem_placements_configSections (rs : List ConfigRegister) {name : String} :
    name ∈ placements (configSections rs) ↔ ∃ r ∈ rs, r.sectionName = name := by
  have hregister : ∀ r : ConfigRegister, placements (fixed
      ["  ." ++ r.sectionName ++ " : \x7b", "    KEEP(*(." ++ r.sectionName ++ "))",
        "  \x7d > " ++ r.sectionName, ""]) = [r.sectionName] := by
    intro r
    have hname : skipBlanks r.sectionName.toList = r.sectionName.toList := by
      simp [ConfigRegister.sectionName, skipBlanks]
    rw [placements_fixed]
    refine filterMap_placement?_inside (.append (.append (inside_ofList rfl rfl) _) _) ?_
    refine filterMap_placement?_inside (.append (.append (inside_ofList rfl rfl) _) _) ?_
    exact filterMap_placement?_ends (ends_ofList rfl (.inr rfl)) hname rfl
  have hclose : placements (fixed ["\x7d", ""]) = [] := by
    rw [placements_fixed]
    exact filterMap_placement?_unplaced rfl (filterMap_placement?_unplaced rfl rfl)
  rw [configSections, placements_fixed_append, placements_fixed_append, placements_flatMap,
    placements_opening, hclose, List.nil_append, List.append_nil, List.mem_flatMap]
  simp only [hregister, List.mem_singleton, eq_comm]

end Parts

theorem skipBlanks_exceptionPlace (plan : List Region) :
    skipBlanks (exceptionPlace plan).toList = (exceptionPlace plan).toList := by
  rw [exceptionPlace]
  split <;> simp [skipBlanks]

theorem skipBlanks_dataPlace (plan : List Region) :
    skipBlanks (dataPlace plan).toList = (dataPlace plan).toList := by
  rw [dataPlace]
  split <;> simp [skipBlanks]

/-- The parts of the script name the same regions again. -/
theorem placed_iff {boot cache exceptions program data jumps caching variable_ : Prop} :
    ((((((boot ∨ caching ∧ (cache ∨ exceptions)) ∨ exceptions) ∨ variable_ ∧ program) ∨ program)
      ∨ data) ∨ data) ∨ jumps ↔
      boot ∨ program ∨ exceptions ∨ data ∨ caching ∧ cache ∨ jumps := by
  tauto

/-- The regions in which programs and data are placed. -/
theorem mem_placements_sections (d : MipsDevice) (plan : List Region) {name : String} :
    name ∈ placements (sections d plan) ↔
      name = "kseg1_boot_mem" ∨ name = "kseg0_program_mem" ∨ name = exceptionPlace plan ∨
      name = dataPlace plan ∨ (d.l1cache = true ∧ name = "kseg1_boot_mem_4B0") ∨
      (d.interrupts.variableOffsets = false ∧ name = "exception_mem") := by
  have hexception := skipBlanks_exceptionPlace plan
  have hdata := skipBlanks_dataPlace plan
  have hblank : placements [Line.blank] = [] := placements_blank
  -- the parts that some devices leave out
  have hcache : name ∈ placements (if d.l1cache = true then
        fixed (cacheSections (exceptionPlace plan)) ++ [Line.blank] else []) ↔
      d.l1cache = true ∧ (name = "kseg1_boot_mem_4B0" ∨ name = exceptionPlace plan) := by
    cases d.l1cache
    · simp
    · simp [placements_cache hexception, hblank]
  have hvariable : name ∈ placements (if d.interrupts.variableOffsets = true then
        variableVectors d.interrupts else []) ↔
      d.interrupts.variableOffsets = true ∧ name = "kseg0_program_mem" := by
    cases d.interrupts.variableOffsets
    · simp
    · simp [placements_variableVectors]
  have hjumps : name ∈ placements (if d.interrupts.variableOffsets = true then []
        else trampolines d) ↔
      d.interrupts.variableOffsets = false ∧ name = "exception_mem" := by
    cases d.interrupts.variableOffsets
    · simp [mem_placements_trampolines]
    · simp
  simp only [sections, placements_append, placements_opening, placements_closing, hblank,
    placements_boot, placements_code, placements_debug, placements_exception hexception,
    placements_debugData d hdata, placements_data hdata, List.append_nil, List.nil_append,
    List.mem_append, List.mem_cons, List.not_mem_nil, or_false, or_self, List.mem_replicate, ne_eq,
    OfNat.ofNat_ne_zero, not_false_eq_true, true_and, hcache, hvariable, hjumps]
  exact placed_iff

end MipsScript

/-! ### The regions of the memory plan -/

namespace MipsDevice

/-- The names of the regions that the script of a device declares. -/
def regionNames (d : MipsDevice) : List String := (d.memoryPlan d.dcrs).map Region.name

/-- Devices with memory at the address at which the processor starts, and with memory for programs
and for data. -/
structure HasMemory (d : MipsDevice) : Prop where
  /-- The program that starts the device. -/
  boot : ∃ m ∈ d.regions, m.kind = .boot ∧ m.first = resetAddress
  /-- Programs. -/
  code : ∃ m ∈ d.regions, m.kind = .code ∧ Text.lower m.name = "code"
  /-- Data. -/
  data : ∃ m ∈ d.regions, m.kind = .sram ∧ (m.name = "kseg0_data_mem" ∨ m.name = "kseg1_data_mem")

variable {d : MipsDevice} {name : String}

theorem mem_regionNames : name ∈ d.regionNames ↔
    ∃ r ∈ d.baseRegions ++ d.dcrs.map configRegion, r.name = name := by
  simp only [regionNames, List.mem_map, (d.perm_memoryPlan d.dcrs).mem_iff]

theorem mem_regionNames_of_mem {m : MemoryRegion} (hm : m ∈ d.regions)
    (hname : name ∈ (planRegion m).map Region.name) : name ∈ d.regionNames := by
  obtain ⟨r, hr, hname⟩ := List.mem_map.mp hname
  exact mem_regionNames.mpr ⟨r, List.mem_append_left _ (List.mem_append_left _
    (List.mem_flatMap.mpr ⟨m, hm, hr⟩)), hname⟩

theorem exception_mem_regionNames (h : d.interrupts.variableOffsets = false) :
    "exception_mem" ∈ d.regionNames :=
  mem_regionNames.mpr ⟨d.exceptionRegion, by simp [baseRegions, h], rfl⟩

theorem sectionName_mem_regionNames {r : ConfigRegister} (hr : r ∈ d.dcrs) :
    r.sectionName ∈ d.regionNames :=
  mem_regionNames.mpr ⟨configRegion r, List.mem_append_right _ (List.mem_map_of_mem hr), rfl⟩

/-- Boot memory of every size has a part that is not cached, and large boot memory has a second
one. -/
theorem boot_mem_regionNames {m : MemoryRegion} (hm : m ∈ d.regions) (hkind : m.kind = .boot)
    (hfirst : m.first = resetAddress) :
    "kseg1_boot_mem" ∈ d.regionNames ∧
    (12 * 1024 < Region.word m.stop - Region.word m.first →
      "kseg1_boot_mem_4B0" ∈ d.regionNames) := by
  have hplan : planRegion m = bootRegions (Region.word m.stop - Region.word m.first) := by
    simp only [planRegion, hkind, hfirst, if_true]
    rfl
  refine ⟨mem_regionNames_of_mem hm ?_, fun hsize => mem_regionNames_of_mem hm ?_⟩
  · rw [hplan, bootRegions]
    split_ifs <;> simp
  · rw [hplan, bootRegions, if_neg (by omega), if_neg (by omega)]
    split_ifs <;> simp

theorem HasMemory.program_mem_regionNames (hd : d.HasMemory) :
    "kseg0_program_mem" ∈ d.regionNames := by
  obtain ⟨m, hm, hkind, hname⟩ := hd.code
  refine mem_regionNames_of_mem hm ?_
  simp [planRegion, hkind, hname]

theorem HasMemory.data_mem_regionNames (hd : d.HasMemory) :
    "kseg0_data_mem" ∈ d.regionNames ∨ "kseg1_data_mem" ∈ d.regionNames := by
  obtain ⟨m, hm, hkind, hname⟩ := hd.data
  have hfind :
      ([0, 1].find? fun k => Text.lower "kseg0_data_mem" == dataMemoryName k) = some 0 := by
    decide +kernel
  have hfind' :
      ([0, 1].find? fun k => Text.lower "kseg1_data_mem" == dataMemoryName k) = some 1 := by
    decide +kernel
  rcases hname with hname | hname
  · refine .inl (mem_regionNames_of_mem hm ?_)
    simp only [planRegion, hkind, hname, hfind]
    exact List.mem_singleton_self _
  · refine .inr (mem_regionNames_of_mem hm ?_)
    simp only [planRegion, hkind, hname, hfind']
    exact List.mem_singleton_self _

end MipsDevice

/-! ### The script of a device -/

namespace MipsScript

variable {d : MipsDevice}

/-- The region for exceptions and that for data are declared. -/
theorem exceptionPlace_mem (hd : d.HasMemory) :
    exceptionPlace (d.memoryPlan d.dcrs) ∈ d.regionNames := by
  rw [exceptionPlace]
  split
  · next h => exact List.contains_iff_mem.mp h
  · exact hd.program_mem_regionNames

theorem dataPlace_mem (hd : d.HasMemory) : dataPlace (d.memoryPlan d.dcrs) ∈ d.regionNames := by
  rw [dataPlace]
  split
  · next h => exact List.contains_iff_mem.mp h
  · next h =>
    refine hd.data_mem_regionNames.resolve_left fun hmem => h ?_
    exact List.contains_iff_mem.mpr hmem

/-- The regions in which the script of a device places sections, those of configuration registers
included. -/
def placed (d : MipsDevice) : List String :=
  placements (configSections d.dcrs ++ sections d (d.memoryPlan d.dcrs))

/-- A region that is not declared is the one for the code that initializes the cache. -/
theorem mem_regionNames_of_mem_placed (hd : d.HasMemory) {name : String} (hname : name ∈ placed d) :
    name ∈ d.regionNames ∨ (d.l1cache = true ∧ name = "kseg1_boot_mem_4B0") := by
  obtain ⟨m, hm, hkind, hfirst⟩ := hd.boot
  rw [placed, placements_append, List.mem_append, mem_placements_configSections,
    mem_placements_sections] at hname
  rcases hname with ⟨r, hr, rfl⟩ | rfl | rfl | rfl | rfl | hcache | ⟨hfixed, rfl⟩
  · exact .inl (MipsDevice.sectionName_mem_regionNames hr)
  · exact .inl (MipsDevice.boot_mem_regionNames hm hkind hfirst).1
  · exact .inl hd.program_mem_regionNames
  · exact .inl (exceptionPlace_mem hd)
  · exact .inl (dataPlace_mem hd)
  · exact .inr hcache
  · exact .inl (MipsDevice.exception_mem_regionNames hfixed)

theorem cache_mem_placed (h : d.l1cache = true) : "kseg1_boot_mem_4B0" ∈ placed d := by
  rw [placed, placements_append, List.mem_append, mem_placements_sections]
  exact .inr (.inr (.inr (.inr (.inr (.inl ⟨h, rfl⟩)))))

/-- A device without faults has a script. -/
theorem exists_lines {d : MipsDevice} {license : License} {block : List Line}
    (hplan : d.checkPlan d.dcrs = .ok ()) (hblock : license.block "bsd" = .ok block)
    (hbase : d.exceptionWriting.checkHex = .ok ())
    (hlast : d.interrupts.lastVectorWriting.checkBits = .ok ()) (reserve : Reserve) :
    ∃ ls, lines d reserve license = .ok ls := by
  rw [lines, hplan, hblock, hbase, hlast]
  cases d.interrupts.variableOffsets
  · exact ⟨_, rfl⟩
  · exact ⟨_, rfl⟩

/-- **The only region that a script may leave undeclared is the one for the code that initializes
the cache.**  On devices with memory to start from, for programs and for data, all sections are
placed in declared regions exactly if there is no cache or the region is declared, which it is as
soon as the boot memory at the address where the processor starts has more than twelve kilobytes. -/
theorem placements_declared_iff {reserve : Reserve} {license : License} {ls : List Line}
    (hd : d.HasMemory) (h : lines d reserve license = .ok ls) :
    (∃ block, license.block "bsd" = .ok block ∧
      ls = block
        ++ inserted (preamble reserve.stack reserve.heap ("0x" ++ Numeral.hex d.exceptionBase 8))
        ++ Region.memoryLines (d.memoryPlan d.dcrs)
        ++ (configSections d.dcrs ++ sections d (d.memoryPlan d.dcrs))) ∧
    ((∀ name ∈ placed d, name ∈ d.regionNames) ↔
      (d.l1cache = true → "kseg1_boot_mem_4B0" ∈ d.regionNames)) ∧
    (∀ name ∈ placed d, name ∉ d.regionNames → name = "kseg1_boot_mem_4B0") ∧
    ((∃ m ∈ d.regions, m.kind = .boot ∧ m.first = resetAddress ∧
        12 * 1024 < Region.word m.stop - Region.word m.first) →
      "kseg1_boot_mem_4B0" ∈ d.regionNames) := by
  refine ⟨?_, ⟨fun hall hcache => hall _ (cache_mem_placed hcache), fun hcache name hname => ?_⟩,
    fun name hname hnone => ?_, ?_⟩
  · obtain ⟨block, hblock, rfl⟩ := eq_of_lines_eq_ok h
    exact ⟨block, hblock, by rw [List.append_assoc _ (configSections d.dcrs)]⟩
  · rcases mem_regionNames_of_mem_placed hd hname with hmem | ⟨hl1cache, rfl⟩
    · exact hmem
    · exact hcache hl1cache
  · exact ((mem_regionNames_of_mem_placed hd hname).resolve_left hnone).2
  · rintro ⟨m, hm, hkind, hfirst, hsize⟩
    exact (MipsDevice.boot_mem_regionNames hm hkind hfirst).2 hsize

/-! ### A device with a cache -/

/-- A device with a cache, whose boot memory extends up to an address. -/
def cachedDevice (stop : Int) : MipsDevice :=
  { name := "PIC32MX"
    subfamily := "PIC32MX"
    l1cache := true
    regions :=
      [{ name := "boot", kind := .boot, first := 0x1FC00000, stop },
        { name := "code", kind := .code, first := 0x1D000000, stop := 0x1D080000 },
        { name := "kseg1_data_mem", kind := .sram, first := 0, stop := 0x20000 }]
    interrupts := { variableOffsets := true } }

/-- The data that describe the device. -/
def cachedData (stop : Int) : Data :=
  .table
    [(.text "name", .text "PIC32MX"),
      (.text "features", .table [(.text "l1cache", .bool true)]),
      (.text "interrupts", .table [(.text "variableOffsets", .bool true)]),
      (.text "regions", .list
        [Description.regionData "boot" "BOOT" 0x1FC00000 stop,
          Description.regionData "code" "CODE" 0x1D000000 0x1D080000,
          Description.regionData "kseg1_data_mem" "SRAM" 0 0x20000])]

/-- A license without a text. -/
def emptyLicense : License :=
  { header := "", generator := "", generatedBy := "", today := default }

theorem hasMemory_cachedDevice (stop : Int) : (cachedDevice stop).HasMemory where
  boot := ⟨_, List.mem_cons_self, rfl, rfl⟩
  code := ⟨_, List.mem_cons_of_mem _ List.mem_cons_self, rfl, by decide +kernel⟩
  data := ⟨_, List.mem_cons_of_mem _ (List.mem_cons_of_mem _ List.mem_cons_self), rfl, .inr rfl⟩

theorem text_emptyLicense : emptyLicense.text "bsd" = .ok "" := by
  have hfill : ∀ values, Template.fill "" values = .ok "" := by
    intro values
    simp [Template.fill, Template.pieces, Template.piecesFrom, Template.fillPieces, Except.map]
  have hvendor : License.vendor? "bsd" = some License.vendorBsd := by simp [License.vendor?]
  rw [License.text, emptyLicense, hfill, hfill, hvendor]
  exact hfill _

theorem exists_lines_cachedDevice (stop : Int) :
    ∃ ls, lines (cachedDevice stop) {} emptyLicense = .ok ls := by
  have hblock : emptyLicense.block "bsd" = .ok (Comment.block "" ++ [Line.blank]) := by
    rw [License.block, text_emptyLicense]
    rfl
  exact exists_lines rfl hblock rfl rfl {}

/-- With eighty kilobytes of boot memory all regions are declared. -/
theorem placements_declared_of_large :
    (cachedDevice 0x1FC14000).HasMemory ∧
    (∃ ls, lines (cachedDevice 0x1FC14000) {} emptyLicense = .ok ls) ∧
    "kseg1_boot_mem_4B0" ∈ placed (cachedDevice 0x1FC14000) ∧
    ∀ name ∈ placed (cachedDevice 0x1FC14000), name ∈ (cachedDevice 0x1FC14000).regionNames := by
  have hmemory := hasMemory_cachedDevice 0x1FC14000
  obtain ⟨ls, hls⟩ := exists_lines_cachedDevice 0x1FC14000
  obtain ⟨-, hiff, -, hlarge⟩ := placements_declared_iff hmemory hls
  have hsize : 12 * 1024 < Region.word 0x1FC14000 - Region.word 0x1FC00000 := by decide
  exact ⟨hmemory, ⟨ls, hls⟩, cache_mem_placed rfl,
    hiff.mpr fun _ => hlarge ⟨_, List.mem_cons_self, rfl, rfl, hsize⟩⟩

/-- With less than twelve kilobytes the region for the code that initializes the cache is missing,
and yet the code is placed there. -/
theorem placements_undeclared_of_small :
    Description.device (cachedData 0x1FC02FF0) = .ok (cachedDevice 0x1FC02FF0) ∧
    (cachedDevice 0x1FC02FF0).HasMemory ∧
    (∃ ls, lines (cachedDevice 0x1FC02FF0) {} emptyLicense = .ok ls) ∧
    "kseg1_boot_mem_4B0" ∈ placed (cachedDevice 0x1FC02FF0) ∧
    "kseg1_boot_mem_4B0" ∉ (cachedDevice 0x1FC02FF0).regionNames := by
  have hnames : ∀ r ∈ (cachedDevice 0x1FC02FF0).baseRegions
      ++ (cachedDevice 0x1FC02FF0).dcrs.map MipsDevice.configRegion,
      r.name ≠ "kseg1_boot_mem_4B0" := by decide +kernel
  refine ⟨by cbv, hasMemory_cachedDevice _, exists_lines_cachedDevice _, cache_mem_placed rfl, ?_⟩
  rw [MipsDevice.mem_regionNames]
  rintro ⟨r, hr, hname⟩
  exact hnames r hr hname

end MipsScript

end ChipSupport
