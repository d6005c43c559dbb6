import ChipSupport.Proofs.Mips.Description
import ChipSupport.Proofs.Mips.Trampolines

/-!
# Lengths of planned regions

A region of a description does not end before it begins, and its addresses may be of any size.  A
planned region has words for addresses, and its length is the distance of two words.  A region that
ends where the words end, with the last of all bytes, is planned with an end of zero.

## Main definitions

* `MemoryRegion.kept` — the regions of a device that are planned with the addresses they have.
* `MipsDevice.ranges` — the addresses between which the planned regions lie.

## Main results

* `lengths_planRegion` — which of the regions that are planned for a region have a length below
  zero.
* `MipsDevice.lengths_memoryPlan` — the same for the plan of a device.
* `MipsDevice.checkPlan_of_byDigits` — addresses that are written by digits make a plan.
* `MipsDevice.lengths_nonneg_iff` — **no region has a length below zero as long as the word of its
  end is not below the word of its first address.**
-/

namespace ChipSupport

/-! ### Regions of the description -/

/-- Whether the plan has a region between the addresses of a region of the device.  Boot flash that
the processor starts from has a fixed layout, and other regions are left out. -/
def MemoryRegion.kept (m : MemoryRegion) : Bool :=
  match m.kind with
  | .boot => decide (m.first ≠ resetAddress)
  | .code => decide (Text.lower m.name = "code")
  | .sram => ([0, 1].find? fun k => Text.lower m.name == dataMemoryName k).isSome
  | .ebi | .sqi | .sdram | .fuse | .peripheral => true
  | .unspecified => false

/-- The fixed layouts of boot flash have no region with a length below zero. -/
theorem length_bootRegions_nonneg (size : Int) : ∀ r ∈ bootRegions size, 0 ≤ r.length := by
  rw [bootRegions]
  split_ifs <;> decide +kernel

variable {m : MemoryRegion}

theorem planRegion_of_kept (h : m.kept = true) :
    planRegion m ≠ [] ∧
      ∀ r ∈ planRegion m, r.length = Region.word m.stop - Region.word m.first := by
  rw [MemoryRegion.kept] at h
  rw [planRegion]
  cases hkind : m.kind <;> rw [hkind] at h
  case boot => simp [of_decide_eq_true h]
  case code => simp [of_decide_eq_true h]
  case sram =>
    obtain ⟨k, hk⟩ := Option.isSome_iff_exists.mp h
    simp [hk]
  case unspecified => cases h
  all_goals simp

theorem length_nonneg_of_not_kept (h : m.kept = false) : ∀ r ∈ planRegion m, 0 ≤ r.length := by
  rw [MemoryRegion.kept] at h
  rw [planRegion]
  cases hkind : m.kind <;> rw [hkind] at h
  case boot =>
    rw [decide_eq_false_iff_not, not_not] at h
    simp only [h, if_true]
    exact length_bootRegions_nonneg _
  case code => simp [of_decide_eq_false h]
  case sram => simp [Option.not_isSome_iff_eq_none.mp (Bool.eq_false_iff.mp h)]
  case unspecified => simp
  all_goals cases h

/-- A region is planned with a length that is not below zero, unless it keeps its addresses and the
word of its end is below that of its first address. -/
theorem lengths_planRegion (m : MemoryRegion) :
    (∀ r ∈ planRegion m, 0 ≤ r.length) ↔ (m.kept = true → m.first % 2 ^ 32 ≤ m.stop % 2 ^ 32) := by
  cases hkept : m.kept with
  | false => simpa using length_nonneg_of_not_kept hkept
  | true =>
    obtain ⟨hsome, hlength⟩ := planRegion_of_kept hkept
    rw [Region.word_eq, Region.word_eq] at hlength
    obtain ⟨r₀, hr₀⟩ := List.exists_mem_of_ne_nil _ hsome
    constructor
    · intro h _
      have := h r₀ hr₀
      rw [hlength r₀ hr₀] at this
      omega
    · intro h r hr
      rw [hlength r hr]
      have := h rfl
      omega

namespace MipsDevice

/-! ### The plan of a device -/

variable {d : MipsDevice}

/-- Where the vector table ends. -/
def exceptionStop (d : MipsDevice) : Int :=
  d.exceptionBase + 0x200 + d.vectorSize * (d.interrupts.lastVectorNumber + 1)

/-- The addresses between which the planned regions lie, as the description gives them: those of the
memory regions, of the exception vectors and of the configuration registers. -/
def ranges (d : MipsDevice) : List (Int × Int) :=
  (d.regions.filter MemoryRegion.kept).map (fun m => (m.first, m.stop))
    ++ (if d.interrupts.variableOffsets then [] else [(d.exceptionBase, d.exceptionStop)])
    ++ d.dcrs.map fun r => (r.address, r.address + 4)

/-- The regions of a plan have lengths that are not below zero, unless some word of an end is below
the word of a first address. -/
theorem lengths_memoryPlan (d : MipsDevice) :
    (∀ r ∈ d.memoryPlan d.dcrs, 0 ≤ r.length) ↔ ∀ p ∈ d.ranges, p.1 % 2 ^ 32 ≤ p.2 % 2 ^ 32 := by
  have hregions : (∀ r ∈ d.regions.flatMap planRegion, 0 ≤ r.length) ↔
      ∀ p ∈ (d.regions.filter MemoryRegion.kept).map fun m => (m.first, m.stop),
        p.1 % 2 ^ 32 ≤ p.2 % 2 ^ 32 := by
    rw [List.forall_mem_flatMap, List.forall_mem_map]
    simp only [lengths_planRegion, List.mem_filter, and_imp]
  have hexceptions : 0 ≤ d.exceptionRegion.length ↔
      d.exceptionBase % 2 ^ 32 ≤ d.exceptionStop % 2 ^ 32 := by
    rw [exceptionRegion, Region.length_span, sub_nonneg, Region.word_eq, Region.word_eq,
      exceptionStop]
  have hconfig : ∀ r, 0 ≤ (configRegion r).length ↔
      r.address % 2 ^ 32 ≤ (r.address + 4) % 2 ^ 32 := by
    intro r
    rw [configRegion, Region.length_inSegment, Region.length_span, sub_nonneg, Region.word_eq,
      Region.word_eq]
  simp only [(d.perm_memoryPlan d.dcrs).mem_iff, baseRegions, ranges, List.forall_mem_append,
    hregions, List.forall_mem_map, hconfig]
  cases d.interrupts.variableOffsets <;> simp [hexceptions]

/-- The addresses of a device stand in order before they are cut down to words. -/
theorem le_of_mem_ranges (hordered : d.Ordered) : ∀ p ∈ d.ranges, 0 ≤ p.1 ∧ p.1 ≤ p.2 := by
  have hbase : 0 ≤ d.exceptionBase := by
    rw [exceptionBase]
    split
    · decide
    · exact hordered.base
  have hlast := d.interrupts.lastVectorNumber_nonneg
  have htable : 0 ≤ d.vectorSize * (d.interrupts.lastVectorNumber + 1) :=
    mul_nonneg d.vectorSize_nonneg (by omega)
  simp only [ranges, List.forall_mem_append, List.forall_mem_map, List.mem_filter]
  refine ⟨⟨fun m hm => hordered.regions m hm.1, ?_⟩, fun r hr => ⟨hordered.dcrs r hr, by omega⟩⟩
  split
  · exact List.forall_mem_nil _
  · rw [List.forall_mem_singleton, exceptionStop]
    omega

/-! ### The numbers of a plan -/

theorem lastVectorWriting_of_digits {l : InterruptList} (h : ∀ v ∈ l.vectors, v.writing = .digits) :
    l.lastVectorWriting = .digits := by
  rw [InterruptList.lastVectorWriting]
  split
  · rfl
  · cases hlast : l.vectors.find? fun v => v.number == l.lastVectorNumber with
    | none => rfl
    | some v => exact h v (List.mem_of_find?_eq_some hlast)

/-- Numbers that are written by digits have words. -/
theorem checkPlan_of_byDigits (h : d.ByDigits) : d.checkPlan d.dcrs = .ok () := by
  have hregions : d.regions.forM MemoryRegion.check = .ok () := by
    refine Steps.forM_eq_ok fun m hm => ?_
    rw [MemoryRegion.check, (h.regions m hm).1, (h.regions m hm).2]
    rfl
  have hexceptions : d.checkExceptions = .ok () := by
    have hbase : d.exceptionWriting = .digits := by
      rw [exceptionWriting, h.base, ite_self]
    rw [checkExceptions, hbase, lastVectorWriting_of_digits h.vectors]
  have hdcrs : (d.dcrs.forM fun r => r.addressWriting.checkBits) = .ok () := by
    refine Steps.forM_eq_ok fun r hr => ?_
    rw [h.dcrs r hr]
    rfl
  rw [checkPlan, hregions, hexceptions, hdcrs]
  cases d.interrupts.variableOffsets <;> rfl

/-- **The lengths of a plan.**  A device that was described has a memory plan.  Its regions do not
end before they begin, in the description; in the plan they do exactly if the word of the end is
below the word of the first address, for a memory region, the exception vectors or a configuration
register.  Where all ends are words, no region has a length below zero. -/
theorem lengths_nonneg_iff {data : Data} {source : String}
    (h : Description.device data source = .ok d) (hdigits : d.ByDigits) :
    d.checkPlan d.dcrs = .ok () ∧
    (∀ p ∈ d.ranges, 0 ≤ p.1 ∧ p.1 ≤ p.2) ∧
    ((∀ r ∈ d.memoryPlan d.dcrs, 0 ≤ r.length) ↔ ∀ p ∈ d.ranges, p.1 % 2 ^ 32 ≤ p.2 % 2 ^ 32) ∧
    ((∀ p ∈ d.ranges, p.2 < 2 ^ 32) → ∀ r ∈ d.memoryPlan d.dcrs, 0 ≤ r.length) := by
  have hle := le_of_mem_ranges (Description.ordered_of_device h hdigits)
  refine ⟨checkPlan_of_byDigits hdigits, hle, lengths_memoryPlan d, fun hwords => ?_⟩
  rw [lengths_memoryPlan]
  intro p hp
  obtain ⟨hpos, hp12⟩ := hle p hp
  have hlt := hwords p hp
  rw [Int.emod_eq_of_lt hpos (by omega), Int.emod_eq_of_lt (by omega) hlt]
  exact hp12

/-- The data of a device whose registers lie at the end of the addresses. -/
def highData (stop : Int) : Data :=
  .table
    [(.text "name", .text "PIC32MX"),
      (.text "regions", .list [Description.regionData "sfrs" "PERIPHERAL" 0xFFFFF000 stop]),
      (.text "dcrs", .list
        [.table [(.text "name", .text "DEVCFG0"), (.text "address", .int 0x1FC02FFC)]])]

/-- The device that the data describe. -/
def highDevice (stop : Int) : MipsDevice :=
  { name := "PIC32MX"
    subfamily := "PIC32MX"
    regions := [{ name := "sfrs", kind := .peripheral, first := 0xFFFFF000, stop }]
    dcrs :=
      [{ name := "DEVCFG0", address := 0x1FC02FFC, default_ := 0xFFFFFFFF, impl := 0xFFFFFFFF }] }

theorem byDigits_highDevice (stop : Int) : (highDevice stop).ByDigits where
  regions := List.forall_mem_singleton.mpr ⟨rfl, rfl⟩
  base := rfl
  vectors := List.forall_mem_nil _
  dcrs := List.forall_mem_singleton.mpr rfl

theorem ranges_highDevice (stop : Int) :
    (highDevice stop).ranges
      = [(0xFFFFF000, stop), (0x9D000000, 0x9D000220), (0x1FC02FFC, 0x1FC03000)] := rfl

/-- Without the last of all bytes no region has a length below zero. -/
theorem lengths_nonneg_without_last_byte :
    Description.device (highData 0xFFFFFFFF) = .ok (highDevice 0xFFFFFFFF) ∧
    (highDevice 0xFFFFFFFF).ByDigits ∧
    (∀ p ∈ (highDevice 0xFFFFFFFF).ranges, p.2 < 2 ^ 32) ∧
    ∀ r ∈ (highDevice 0xFFFFFFFF).memoryPlan (highDevice 0xFFFFFFFF).dcrs, 0 ≤ r.length := by
  have hdevice : Description.device (highData 0xFFFFFFFF) = .ok (highDevice 0xFFFFFFFF) := by cbv
  have hdigits := byDigits_highDevice 0xFFFFFFFF
  have hwords : ∀ p ∈ (highDevice 0xFFFFFFFF).ranges, p.2 < 2 ^ 32 := by
    rw [ranges_highDevice]
    decide
  exact ⟨hdevice, hdigits, hwords, (lengths_nonneg_iff hdevice hdigits).2.2.2 hwords⟩

/-- With the last of all bytes the registers are planned with a length below zero. -/
theorem length_negative_with_last_byte :
    Description.device (highData 0x100000000) = .ok (highDevice 0x100000000) ∧
    (highDevice 0x100000000).ByDigits ∧
    ∃ r ∈ (highDevice 0x100000000).memoryPlan (highDevice 0x100000000).dcrs,
      r.name = "sfrs" ∧ r.length = -0xFFFFF000 := by
  refine ⟨by cbv, byDigits_highDevice _,
    (Region.span "sfrs" 0xFFFFF000 0x100000000).inSegment 1, ?_, rfl, by decide⟩
  rw [(perm_memoryPlan _ _).mem_iff]
  exact List.mem_cons_self

end MipsDevice

end ChipSupport
