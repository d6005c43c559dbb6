import ChipSupport.Arm.Script
import ChipSupport.Proofs.Script.Section
import ChipSupport.Proofs.Sorting

/-!
# The memory plan of an Arm device

Several segments may be meant for one region, of which the first one in the document counts.  The
plan has a region for each name that some segment is meant for, and without main flash or main
memory there is no plan.  The sections of the script refer to these two regions only, by the place
of a section and by the ends of memory.

## Main definitions

* `Device.HasRegion`, `Device.firstSegment?` — the segments that are meant for a region.
* `Script.measured`, `Script.used` — the regions that the lines of a script refer to.
* `ArmScript.sections` — what a script says behind the declaration of its regions.

## Main results

* `mem_firstOfEachName` — a region is kept if no earlier one has its name.
* `Device.memoryPlan_cases` — the plan, or which region is missing.
* `Device.memoryPlan_exact` — **a plan has one region for each name, and every region that the
  script refers to.** -/

namespace ChipSupport

/-! ### The first region of each name -/

/-- A region is kept if its name was not seen and it is the first one of that name. -/
theorem mem_firstOfEachName {seen : List String} {rs : List Region} {r : Region} :
    r ∈ firstOfEachName seen rs ↔
      r.name ∉ seen ∧ rs.find? (fun x => x.name == r.name) = some r := by
  induction rs generalizing seen with
  | nil => simp [firstOfEachName]
  | cons x rest ih =>
    rw [firstOfEachName]
    by_cases hx : x.name ∈ seen
    · -- a name that was seen is not that of a region that is kept
      rw [if_pos (by simpa using hx), ih]
      constructor
      · rintro ⟨hr, hfind⟩
        have hne : x.name ≠ r.name := fun h => hr (h ▸ hx)
        rw [List.find?_cons_of_neg (by simpa using hne)]
        exact ⟨hr, hfind⟩
      · rintro ⟨hr, hfind⟩
        have hne : x.name ≠ r.name := fun h => hr (h ▸ hx)
        rw [List.find?_cons_of_neg (by simpa using hne)] at hfind
        exact ⟨hr, hfind⟩
    · rw [if_neg (by simpa using hx), List.mem_cons, ih]
      by_cases hname : x.name = r.name
      · rw [List.find?_cons_of_pos (by simpa using hname)]
        constructor
        · rintro (rfl | ⟨hr, -⟩)
          · exact ⟨hx, rfl⟩
          · exact absurd (hname ▸ List.mem_cons_self) hr
        · rintro ⟨-, hfirst⟩
          exact .inl (Option.some.inj hfirst).symm
      · rw [List.find?_cons_of_neg (by simpa using hname), List.mem_cons, not_or]
        constructor
        · rintro (rfl | ⟨⟨-, hr⟩, hfind⟩)
          · exact absurd rfl hname
          · exact ⟨hr, hfind⟩
        · rintro ⟨hr, hfind⟩
          exact .inr ⟨⟨Ne.symm hname, hr⟩, hfind⟩

/-- No two regions that are kept have the same name. -/
theorem nodup_firstOfEachName (seen : List String) (rs : List Region) :
    ((firstOfEachName seen rs).map Region.name).Nodup := by
  induction rs generalizing seen with
  | nil => exact List.nodup_nil
  | cons x rest ih =>
    rw [firstOfEachName]
    split
    · exact ih seen
    · rw [List.map_cons, List.nodup_cons]
      refine ⟨fun hmem => ?_, ih _⟩
      obtain ⟨r, hr, hname⟩ := List.mem_map.mp hmem
      exact (mem_firstOfEachName.mp hr).1 (hname ▸ List.mem_cons_self)

/-! ### What a script refers to -/

namespace Script

/-- The texts behind a mark, each up to the bracket that closes it. -/
def behind (mark : List Char) : List Char → List (List Char)
  | [] => []
  | c :: cs =>
    if mark.isPrefixOf (c :: cs) then
      ((c :: cs).drop mark.length).takeWhile (· != ')') :: behind mark cs
    else behind mark cs

/-- The regions of which a line asks the first address or the number of bytes. -/
def measured (line : List Char) : List (List Char) :=
  behind ['O', 'R', 'I', 'G', 'I', 'N', '('] line ++ behind ['L', 'E', 'N', 'G', 'T', 'H', '('] line

/-- The regions that a line refers to: the one in which a section is placed, and those of which the
place is asked for. -/
def usedBy (line : List Char) : List (List Char) := (regionOf line).toList ++ measured line

/-- The regions that lines refer to. -/
def used (ls : List Line) : List String :=
  ls.flatMap fun l => (usedBy l.render.toList).map String.ofList

/-- Texts and their characters. -/
def Spelled (texts : List String) (chars : List (List Char)) : Prop :=
  texts = chars.map String.ofList

theorem spelled_nil : Spelled [] [] := rfl

theorem spelled_cons {s : String} {cs : List Char} {texts : List String} {chars : List (List Char)}
    (hs : s = String.ofList cs) (h : Spelled texts chars) : Spelled (s :: texts) (cs :: chars) := by
  rw [Spelled, hs, h, List.map_cons]

/-- A text that is put together from two. -/
theorem append_eq_ofList {s t : String} {cs ds : List Char} (hs : s = String.ofList cs)
    (ht : t = String.ofList ds) : s ++ t = String.ofList (cs ++ ds) := by
  rw [hs, ht, String.ofList_append]

theorem spelled_append {texts texts' : List String} {chars chars' : List (List Char)}
    (h : Spelled texts chars) (h' : Spelled texts' chars') :
    Spelled (texts ++ texts') (chars ++ chars') := by
  rw [Spelled, h, h', List.map_append]

/-- The regions that fixed texts refer to are read off their characters. -/
theorem used_fixed {texts : List String} {chars : List (List Char)} (h : Spelled texts chars) :
    used (fixed texts) = (chars.flatMap usedBy).map String.ofList := by
  have hline (cs : List Char) :
      (usedBy (Line.text (String.ofList cs)).render.toList).map String.ofList
        = (usedBy cs).map String.ofList := by
    rw [Line.render, String.toList_ofList]
  rw [used, fixed, List.flatMap_map, h, List.flatMap_map, List.map_flatMap]
  exact List.flatMap_congr fun cs _ => hline cs

theorem mem_used_fixed_iff {texts names : List String} {chars : List (List Char)}
    (h : Spelled texts chars)
    (hnames : (chars.flatMap usedBy).map String.ofList ⊆ names ∧
      names ⊆ (chars.flatMap usedBy).map String.ofList) (name : String) :
    name ∈ used (fixed texts) ↔ name ∈ names := by
  rw [used_fixed h]
  exact ⟨fun hname => hnames.1 hname, fun hname => hnames.2 hname⟩

end Script

namespace ArmScript

open Script

/-! ### The sections of the script -/

/-- The texts behind the declaration of the regions. -/
def sectionTexts (cached : Bool) : List String :=
  memoryEnds ++ ([""] ++ (["SECTIONS", "\x7b"] ++ (codeSections ++ ([""] ++ (dataStart
    ++ ((if cached then uncachedData else []) ++ (dataRest
    ++ ((if cached then cacheLineAlign else []) ++ (persistRest (if cached then "32" else "4")
    ++ ([""] ++ (runtimeSections ++ ["\x7d"])))))))))))

/-- The sections refer to main flash and to main memory, and to nothing else. -/
theorem mem_used_sectionTexts (cached : Bool) (name : String) :
    name ∈ used (fixed (sectionTexts cached)) ↔ name ∈ Device.neededRegions := by
  cases cached
  all_goals
    apply mem_used_fixed_iff
    · unfold sectionTexts memoryEnds codeSections dataStart uncachedData dataRest cacheLineAlign
        persistRest runtimeSections
      repeat' first
      | exact spelled_nil
      | with_reducible apply spelled_append
      | apply spelled_cons
      | with_reducible apply append_eq_ofList
      | exact rfl
    · decide +kernel

/-- A script is made of the licence, what stands in front of the regions, their declaration and the
sections. -/
theorem lines_eq_map {d : Device} {plan : List Region} (hplan : d.memoryPlan = .ok plan)
    (reserve : Reserve) (license : License) :
    lines d reserve license = (license.block "bsd").map fun block =>
      block ++ inserted (preamble reserve.stack reserve.heap) ++ Region.memoryLines plan
        ++ fixed (sectionTexts d.hasCache) := by
  have hsections : fixed (sectionTexts d.hasCache)
      = fixed memoryEnds ++ [Line.blank] ++ fixed ["SECTIONS", "\x7b"] ++ fixed codeSections
        ++ [Line.blank] ++ dataSections d.hasCache ++ [Line.blank] ++ fixed runtimeSections
        ++ fixed ["\x7d"] := by
    rw [dataSections, sectionTexts]
    cases d.hasCache <;> simp [fixed, Line.blank]
  rw [lines, hplan, hsections]
  change linesFor d plan reserve license = _
  rw [linesFor]
  cases license.block "bsd" with
  | error f => rfl
  | ok block =>
    simp only [Except.map, ← List.append_assoc]
    rfl

end ArmScript

namespace Device

/-! ### The plan -/

/-- Whether some segment is meant for a region. -/
def HasRegion (d : Device) (name : String) : Prop :=
  ∃ s ∈ d.segments, (planSegment? s).map Region.name = some name

/-- The first segment that is meant for a region. -/
def firstSegment? (d : Device) (name : String) : Option MemorySegment :=
  d.segments.find? fun s => decide ((planSegment? s).map Region.name = some name)

theorem hasRegion_iff_exists_plan {d : Device} {name : String} :
    d.HasRegion name ↔ ∃ r ∈ d.segments.filterMap planSegment?, r.name = name := by
  constructor
  · rintro ⟨s, hs, hname⟩
    obtain ⟨r, hr, rfl⟩ := Option.map_eq_some_iff.mp hname
    exact ⟨r, List.mem_filterMap.mpr ⟨s, hs, hr⟩, rfl⟩
  · rintro ⟨r, hr, rfl⟩
    obtain ⟨s, hs, hplan⟩ := List.mem_filterMap.mp hr
    exact ⟨s, hs, by rw [hplan, Option.map_some]⟩

/-- The planned regions are those of the first segments that are meant for them. -/
theorem mem_plannedRegions {d : Device} {r : Region} :
    r ∈ d.plannedRegions ↔ ∃ s, d.firstSegment? r.name = some s ∧ planSegment? s = some r := by
  have hmeant (s : MemorySegment) :
      (planSegment? s).any (fun x => x.name == r.name)
        = decide ((planSegment? s).map Region.name = some r.name) := by
    cases planSegment? s with
    | none => rfl
    | some x => simp [beq_eq_decide]
  have hfind : (d.segments.filterMap planSegment?).find? (fun x => x.name == r.name)
      = (d.firstSegment? r.name).bind planSegment? := by
    rw [List.find?_filterMap, firstSegment?]
    simp only [hmeant]
  rw [plannedRegions, mem_firstOfEachName, hfind, Option.bind_eq_some_iff]
  exact and_iff_right List.not_mem_nil

/-- A region is planned for each name that some segment is meant for. -/
theorem mem_names_plannedRegions {d : Device} {name : String} :
    name ∈ d.plannedRegions.map Region.name ↔ d.HasRegion name := by
  rw [List.mem_map, hasRegion_iff_exists_plan]
  constructor
  · rintro ⟨r, hr, rfl⟩
    rw [plannedRegions, mem_firstOfEachName] at hr
    exact ⟨r, List.mem_of_find?_eq_some hr.2, rfl⟩
  · rintro ⟨r, hr, rfl⟩
    have hsome : ((d.segments.filterMap planSegment?).find? fun x => x.name == r.name).isSome :=
      List.find?_isSome.mpr ⟨r, hr, beq_self_eq_true r.name⟩
    obtain ⟨first, hfirst⟩ := Option.isSome_iff_exists.mp hsome
    have hname : first.name = r.name := by simpa using List.find?_some hfirst
    refine ⟨first, ?_, hname⟩
    rw [plannedRegions, mem_firstOfEachName, hname]
    exact ⟨List.not_mem_nil, hfirst⟩

/-- The plan of a device, or the first of the two regions that is missing. -/
theorem memoryPlan_cases (d : Device) :
    (¬ d.HasRegion "rom" ∧ d.memoryPlan = .error (.regionMissing d.name "rom")) ∨
    (d.HasRegion "rom" ∧ ¬ d.HasRegion "ram" ∧
      d.memoryPlan = .error (.regionMissing d.name "ram")) ∨
    (d.HasRegion "rom" ∧ d.HasRegion "ram" ∧
      d.memoryPlan = .ok (Region.sorted d.plannedRegions)) := by
  have hcontains (name : String) :
      (d.plannedRegions.map Region.name).contains name = true ↔ d.HasRegion name := by
    rw [List.contains_iff_mem, mem_names_plannedRegions]
  rw [memoryPlan, neededRegions]
  by_cases hrom : d.HasRegion "rom"
  · by_cases hram : d.HasRegion "ram"
    · refine .inr (.inr ⟨hrom, hram, ?_⟩)
      simp only [List.find?, (hcontains _).mpr hrom, (hcontains _).mpr hram, Bool.not_true]
    · refine .inr (.inl ⟨hrom, hram, ?_⟩)
      rw [← hcontains, Bool.not_eq_true] at hram
      simp only [List.find?, (hcontains _).mpr hrom, hram, Bool.not_true, Bool.not_false]
  · refine .inl ⟨hrom, ?_⟩
    rw [← hcontains, Bool.not_eq_true] at hrom
    simp only [List.find?, hrom, Bool.not_false]

theorem memoryPlan_eq_ok {d : Device} {plan : List Region} (h : d.memoryPlan = .ok plan) :
    d.HasRegion "rom" ∧ d.HasRegion "ram" ∧ plan = Region.sorted d.plannedRegions := by
  rcases d.memoryPlan_cases with ⟨-, hplan⟩ | ⟨-, -, hplan⟩ | ⟨hrom, hram, hplan⟩
  · rw [hplan] at h
    cases h
  · rw [hplan] at h
    cases h
  · rw [hplan] at h
    exact ⟨hrom, hram, (Except.ok.inj h).symm⟩

/-- There is no plan exactly if one of the two regions is missing, which is then reported. -/
theorem memoryPlan_eq_error_iff {d : Device} {f : Fault} : d.memoryPlan = .error f ↔
    (¬ d.HasRegion "rom" ∧ f = .regionMissing d.name "rom") ∨
    (d.HasRegion "rom" ∧ ¬ d.HasRegion "ram" ∧ f = .regionMissing d.name "ram") := by
  rcases d.memoryPlan_cases with ⟨hrom, hplan⟩ | ⟨hrom, hram, hplan⟩ | ⟨hrom, hram, hplan⟩
  · rw [hplan, Except.error.injEq, eq_comm]
    simp [hrom]
  · rw [hplan, Except.error.injEq, eq_comm]
    simp [hrom, hram]
  · rw [hplan]
    simp [hrom, hram]

section Plan

variable {d : Device} {plan : List Region} (h : d.memoryPlan = .ok plan)
include h

/-- A plan has the planned regions. -/
theorem perm_memoryPlan : plan.Perm d.plannedRegions := by
  obtain ⟨-, -, rfl⟩ := memoryPlan_eq_ok h
  exact List.mergeSort_perm _ _

theorem mem_names_memoryPlan (name : String) :
    name ∈ plan.map Region.name ↔ d.HasRegion name := by
  rw [((perm_memoryPlan h).map Region.name).mem_iff, mem_names_plannedRegions]

theorem nodup_names_memoryPlan : (plan.map Region.name).Nodup := by
  rw [((perm_memoryPlan h).map Region.name).nodup_iff]
  exact nodup_firstOfEachName [] _

/-- A plan has the two regions that every script needs. -/
theorem needed_mem_memoryPlan : ∀ name ∈ neededRegions, name ∈ plan.map Region.name := by
  intro name hname
  obtain ⟨hrom, hram, -⟩ := memoryPlan_eq_ok h
  rw [neededRegions, List.mem_pair] at hname
  rw [mem_names_memoryPlan h]
  rcases hname with rfl | rfl
  · exact hrom
  · exact hram

end Plan

/-- **A plan has one region for each name, and every region that the script refers to.**  There is
no plan exactly if no segment is meant for main flash or none for main memory.  The regions of a
plan ascend by address, and no two have the same name.  There is a region for each name that some
segment is meant for, which is that of the first such segment.  The sections of the script, which
stand behind the declaration of the plan, refer to regions that are declared once. -/
theorem memoryPlan_exact (d : Device) :
    ((∃ f, d.memoryPlan = .error f) ↔ ¬ d.HasRegion "rom" ∨ ¬ d.HasRegion "ram") ∧
    (∀ f, d.memoryPlan = .error f → f.isDocumentFault = true ∧
      ∃ name ∈ neededRegions, ¬ d.HasRegion name ∧ f = .regionMissing d.name name) ∧
    ∀ plan, d.memoryPlan = .ok plan →
      plan.Pairwise (fun r s => r.start ≤ s.start) ∧
      (plan.map Region.name).Nodup ∧
      (∀ name ∈ neededRegions, name ∈ plan.map Region.name) ∧
      (∀ name, name ∈ plan.map Region.name ↔ d.HasRegion name) ∧
      (∀ r, r ∈ plan ↔ ∃ s, d.firstSegment? r.name = some s ∧ planSegment? s = some r) ∧
      (∀ reserve license, ArmScript.lines d reserve license
        = (license.block "bsd").map fun block =>
          block ++ Script.inserted (ArmScript.preamble reserve.stack reserve.heap)
            ++ Region.memoryLines plan ++ Script.fixed (ArmScript.sectionTexts d.hasCache)) ∧
      ∀ name ∈ Script.used (Script.fixed (ArmScript.sectionTexts d.hasCache)),
        (plan.map Region.name).count name = 1 := by
  refine ⟨?_, ?_, ?_⟩
  · simp only [memoryPlan_eq_error_iff]
    constructor
    · rintro ⟨f, ⟨hrom, -⟩ | ⟨-, hram, -⟩⟩
      · exact .inl hrom
      · exact .inr hram
    · intro h
      by_cases hrom : d.HasRegion "rom"
      · exact ⟨_, .inr ⟨hrom, h.resolve_left (not_not_intro hrom), rfl⟩⟩
      · exact ⟨_, .inl ⟨hrom, rfl⟩⟩
  · intro f hf
    rcases memoryPlan_eq_error_iff.mp hf with ⟨hrom, rfl⟩ | ⟨-, hram, rfl⟩
    · exact ⟨rfl, "rom", List.mem_cons_self, hrom, rfl⟩
    · exact ⟨rfl, "ram", List.mem_cons_of_mem _ List.mem_cons_self, hram, rfl⟩
  · intro plan hplan
    refine ⟨?_, nodup_names_memoryPlan hplan, needed_mem_memoryPlan hplan,
      mem_names_memoryPlan hplan, ?_, ArmScript.lines_eq_map hplan, ?_⟩
    · obtain ⟨-, -, rfl⟩ := memoryPlan_eq_ok hplan
      exact Sorting.pairwise_mergeSort Region.start _
    · intro r
      rw [(perm_memoryPlan hplan).mem_iff, mem_plannedRegions]
    · intro name hname
      rw [ArmScript.mem_used_sectionTexts] at hname
      exact List.count_eq_one_of_mem (nodup_names_memoryPlan hplan)
        (needed_mem_memoryPlan hplan name hname)

/-- A device with two segments of main flash and an external memory, and one that has no region. -/
def dualBank : Device :=
  { name := "ATSAME70Q21B"
    architecture := "CORTEX-M7"
    segments :=
      [{ name := "IRAM", start := 0x20400000, size := 0x60000 },
        { name := "Flash", start := 0x00400000, size := 0x100000 },
        { name := "IROM", start := 0x00800000, size := 0x4000 },
        { name := "IFLASH", start := 0x00300000, size := 0x100000 },
        { name := "EBI_CS0", start := 0x60000000, size := 0x1000000 },
        { name := "ITCM", start := 0, size := 0x400000 }] }

/-- The first segment of main flash counts, whatever its address. -/
theorem memoryPlan_exact_dualBank :
    ∃ plan, dualBank.memoryPlan = .ok plan ∧
      ⟨"rom", 0x00400000, 0x100000, Access.execute + Access.read⟩ ∈ plan ∧
      (plan.map Region.name).Nodup ∧ "ebi_cs0" ∈ plan.map Region.name := by
  obtain ⟨herror, -, hplan⟩ := memoryPlan_exact dualBank
  have hrom : dualBank.HasRegion "rom" :=
    ⟨{ name := "Flash", start := 0x00400000, size := 0x100000 }, by decide, by decide +kernel⟩
  have hram : dualBank.HasRegion "ram" :=
    ⟨{ name := "IRAM", start := 0x20400000, size := 0x60000 }, by decide, by decide +kernel⟩
  have hexternal : dualBank.HasRegion "ebi_cs0" :=
    ⟨{ name := "EBI_CS0", start := 0x60000000, size := 0x1000000 }, by decide, by decide +kernel⟩
  cases hd : dualBank.memoryPlan with
  | error f =>
    rcases herror.mp ⟨f, hd⟩ with h | h
    · exact absurd hrom h
    · exact absurd hram h
  | ok plan =>
    obtain ⟨-, hnodup, -, hnames, hmem, -⟩ := hplan plan hd
    have hfirst : dualBank.firstSegment? "rom"
        = some { name := "Flash", start := 0x00400000, size := 0x100000 } := by
      decide +kernel
    exact ⟨plan, rfl, (hmem _).mpr ⟨_, hfirst, by decide +kernel⟩, hnodup,
      (hnames _).mpr hexternal⟩

end Device

end ChipSupport
