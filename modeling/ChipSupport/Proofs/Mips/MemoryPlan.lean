import ChipSupport.Mips.Memory
import ChipSupport.Proofs.Script.Region
import ChipSupport.Proofs.Sorting

/-!
# Memory plans with and without configuration registers

The linker script of a device declares a region for each configuration register, and the header
names the other regions only.  Both plans are sorted by address, and many regions begin at the same
address, so that it takes a stable order for them to show these regions alike.

The region of a configuration register is the uncached view of its four bytes, unless they reach the
end of the address space: then the end of the region is cut down to a word below its first address,
and its length is below zero.

## Main definitions

* `MipsDevice.uncachedView` — the uncached view of the bytes of a configuration register.
* `MipsDevice.plannedView` — the region that a plan has for a configuration register.

## Main results

* `MipsDevice.filter_memoryPlan` — the regions at an address, in the order of the description.
* `MipsDevice.perm_memoryPlan_uncachedView_iff` — when a plan has all uncached views.
* `MipsDevice.memoryPlan_agree_iff` — **both plans agree on the regions that they share.**
-/

namespace ChipSupport.MipsDevice

variable (d : MipsDevice) (rs : List ConfigRegister)

theorem perm_memoryPlan : (d.memoryPlan rs).Perm (d.baseRegions ++ rs.map configRegion) :=
  List.mergeSort_perm _ _

theorem memoryPlan_nil : d.memoryPlan [] = Region.sorted d.baseRegions := by
  rw [memoryPlan, List.map_nil, List.append_nil]

/-- The regions of a plan ascend by address. -/
theorem pairwise_memoryPlan : (d.memoryPlan rs).Pairwise fun r s => r.start ≤ s.start :=
  Sorting.pairwise_mergeSort Region.start _

/-- The regions at an address stand in the order of the description, and those of configuration
registers stand behind the others. -/
theorem filter_memoryPlan (address : Int) :
    (d.memoryPlan rs).filter (fun r => decide (r.start = address))
      = d.baseRegions.filter (fun r => decide (r.start = address))
        ++ (rs.map configRegion).filter fun r => decide (r.start = address) := by
  rw [← List.filter_append]
  exact Sorting.filter_mergeSort Region.start address _

/-! ### The regions of configuration registers -/

/-- The uncached view of the four bytes of a configuration register: in the segment from 0xA0000000
on, at the low 29 bits of its address. -/
def uncachedView (r : ConfigRegister) : Region :=
  { name := r.sectionName, start := 0xA0000000 + r.address % 2 ^ 29, length := 4 }

/-- The uncached view of a configuration register, but with a length that is too small by the size
of the address space if its bytes reach the end of it. -/
def plannedView (r : ConfigRegister) : Region :=
  if r.address % 2 ^ 32 < 2 ^ 32 - 4 then uncachedView r
  else { uncachedView r with length := 4 - 2 ^ 32 }

theorem configRegion_eq (r : ConfigRegister) : configRegion r = plannedView r := by
  have hstart : (configRegion r).start = 0xA0000000 + r.address % 2 ^ 29 :=
    Region.start_inSegment_span r.sectionName 1
  have hlength : (configRegion r).length = _ :=
    Region.length_span_few r.sectionName (by decide) (by decide)
  have hregion : configRegion r
      = ⟨r.sectionName, (configRegion r).start, (configRegion r).length, 0⟩ := rfl
  rw [hregion, hstart, hlength, plannedView]
  split <;> rfl

theorem map_configRegion : rs.map configRegion = rs.map plannedView :=
  List.map_congr_left fun r _ => configRegion_eq r

theorem length_plannedView_iff (r : ConfigRegister) :
    (plannedView r).length = 4 ↔ r.address % 2 ^ 32 < 2 ^ 32 - 4 := by
  rw [plannedView]
  split
  · next h => exact iff_of_true rfl h
  · next h =>
    exact iff_of_false (show ¬ (4 - 2 ^ 32 : Int) = 4 by decide) h

/-- What a plan has beyond the one without configuration registers is a region for each of them. -/
theorem perm_memoryPlan_plannedView :
    (d.memoryPlan rs).Perm (d.memoryPlan [] ++ rs.map plannedView) := by
  have hbase : (d.memoryPlan []).Perm d.baseRegions := by
    rw [memoryPlan_nil]
    exact List.mergeSort_perm _ _
  rw [← map_configRegion]
  exact (d.perm_memoryPlan rs).trans (hbase.symm.append_right _)

/-- A plan has the uncached views of configuration registers exactly if none of them has bytes that
reach the end of the address space. -/
theorem perm_memoryPlan_uncachedView_iff :
    (d.memoryPlan rs).Perm (d.memoryPlan [] ++ rs.map uncachedView) ↔
      ∀ r ∈ rs, r.address % 2 ^ 32 < 2 ^ 32 - 4 := by
  constructor
  · intro h r hr
    have hviews : (rs.map plannedView).Perm (rs.map uncachedView) :=
      (List.perm_append_left_iff _).mp ((d.perm_memoryPlan_plannedView rs).symm.trans h)
    -- all uncached views have the same length
    obtain ⟨q, -, hq⟩ := List.mem_map.mp (hviews.subset (List.mem_map_of_mem hr))
    rw [← length_plannedView_iff, ← hq]
    rfl
  · intro h
    have hviews : rs.map plannedView = rs.map uncachedView :=
      List.map_congr_left fun r hr => if_pos (h r hr)
    rw [← hviews]
    exact d.perm_memoryPlan_plannedView rs

/-- **The plan without configuration registers is a part of the plan with them.**  What is left are
the uncached views of the registers, one for each, exactly if none of the registers has bytes that
reach the end of the address space; the length of each other one is too small by the size of the
address space.  Both plans ascend by address.  At each address the regions of the smaller plan stand
in the order of the description and in front of those that are left, which stand in the order of the
registers. -/
theorem memoryPlan_agree_iff :
    (d.memoryPlan []).Sublist (d.memoryPlan d.dcrs) ∧
    ((d.memoryPlan d.dcrs).Perm (d.memoryPlan [] ++ d.dcrs.map uncachedView) ↔
      ∀ r ∈ d.dcrs, r.address % 2 ^ 32 < 2 ^ 32 - 4) ∧
    (d.memoryPlan d.dcrs).Perm (d.memoryPlan [] ++ d.dcrs.map plannedView) ∧
    (d.memoryPlan []).Pairwise (fun r s => r.start ≤ s.start) ∧
    (d.memoryPlan d.dcrs).Pairwise (fun r s => r.start ≤ s.start) ∧
    ∀ address,
      (d.memoryPlan []).filter (fun r => decide (r.start = address))
        = d.baseRegions.filter (fun r => decide (r.start = address)) ∧
      (d.memoryPlan d.dcrs).filter (fun r => decide (r.start = address))
        = (d.memoryPlan []).filter (fun r => decide (r.start = address))
          ++ (d.dcrs.map plannedView).filter fun r => decide (r.start = address) := by
  have hbase : ∀ address, (d.memoryPlan []).filter (fun r => decide (r.start = address))
      = d.baseRegions.filter fun r => decide (r.start = address) := by
    intro address
    rw [filter_memoryPlan, List.map_nil, List.filter_nil, List.append_nil]
  refine ⟨?_, d.perm_memoryPlan_uncachedView_iff d.dcrs, d.perm_memoryPlan_plannedView d.dcrs,
    pairwise_memoryPlan d [], pairwise_memoryPlan d d.dcrs, fun address => ⟨hbase address, ?_⟩⟩
  · rw [memoryPlan_nil]
    exact Sorting.sublist_mergeSort Region.start (List.sublist_append_left _ _)
  · rw [hbase, filter_memoryPlan, map_configRegion]

/-- A device with a configuration register in the last four bytes of the address space. -/
def lastWordDevice : MipsDevice :=
  { name := "PIC32MX"
    subfamily := "PIC32MX"
    dcrs := [{ name := "DEVCFG0", address := 0xFFFFFFFC }] }

/-- The region of a register in the last four bytes is not its uncached view. -/
theorem lastWord_not_perm :
    ¬ (lastWordDevice.memoryPlan lastWordDevice.dcrs).Perm
      (lastWordDevice.memoryPlan [] ++ lastWordDevice.dcrs.map uncachedView) := by
  rw [perm_memoryPlan_uncachedView_iff]
  decide

end ChipSupport.MipsDevice
