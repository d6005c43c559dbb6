import ChipSupport.Mips.Description
import ChipSupport.Proofs.Data.Schema

/-!
# Numbers of a device that was described

A description is accepted if it follows the rules and no memory region ends before it begins.  The
rules make its numbers whole and not negative.  What a number is may be read off its digits; a
number with a point is a double precision number, which the rules accept as well if it is whole.

## Main definitions

* `MipsDevice.ByDigits` — devices whose addresses are written by digits.

## Main results

* `Description.device_eq_ok` — what it takes for a description to be accepted.
* `Description.nonneg_numberOf` — numbers are not negative.
* `Description.ordered_of_device` — **the addresses of a device that was described are not negative,
  and its regions do not end before they begin.**
-/

namespace ChipSupport

namespace MipsDevice

/-- Devices whose addresses and vector numbers are written by digits. -/
structure ByDigits (d : MipsDevice) : Prop where
  /-- The addresses of the memory regions. -/
  regions : ∀ m ∈ d.regions, m.firstWriting = .digits ∧ m.stopWriting = .digits
  /-- The address of the vector table. -/
  base : d.interrupts.baseWriting = .digits
  /-- The numbers of the vectors. -/
  vectors : ∀ v ∈ d.interrupts.vectors, v.writing = .digits
  /-- The addresses of the configuration registers. -/
  dcrs : ∀ r ∈ d.dcrs, r.addressWriting = .digits

/-- Devices whose addresses are not negative, and whose regions do not end before they begin. -/
structure Ordered (d : MipsDevice) : Prop where
  /-- The addresses of the memory regions. -/
  regions : ∀ m ∈ d.regions, 0 ≤ m.first ∧ m.first ≤ m.stop
  /-- The address of the vector table. -/
  base : 0 ≤ d.interrupts.defaultBaseAddress
  /-- The addresses of the configuration registers. -/
  dcrs : ∀ r ∈ d.dcrs, 0 ≤ r.address

end MipsDevice

namespace Description

/-- The data of a memory region. -/
def regionData (name kind : String) (first stop : Int) : Data :=
  .table [(.text "name", .text name), (.text "type", .text kind), (.text "begin", .int first),
    (.text "end", .int stop)]

theorem ofFloat_ne_digits (x : Float) : Writing.ofFloat x ≠ .digits := by
  rw [Writing.ofFloat]
  split <;> decide

/-- A description is accepted if it follows the rules and no region ends before it begins. -/
theorem device_eq_ok {data : Data} {source : String} {d : MipsDevice}
    (h : device data source = .ok d) :
    schema.violations data = [] ∧ d = deviceOf data ∧ ∀ m ∈ d.regions, m.first ≤ m.stop := by
  obtain ⟨problems, hproblems, h⟩ := Steps.bind_eq_ok_iff.mp h
  cases problems with
  | cons p ps => cases h
  | nil =>
    simp only [List.isEmpty_nil, Bool.not_true, Bool.false_eq_true, if_false] at h
    split at h
    next => cases h
    next hnone =>
      cases h
      refine ⟨Schema.violations_of_problems hproblems, rfl, fun m hm => ?_⟩
      have hm' := List.find?_eq_none.mp hnone m hm
      rw [decide_eq_true_eq] at hm'
      omega

section Values

variable {required : List String} {fields : List (String × Schema)} {d : Data} {name : String}

/-- A number that is written by digits is not below its bound, or it is the number for none. -/
theorem nonneg_numberOf (h : (Schema.record required fields).violations d = [])
    (hname : (name, amount) ∈ fields) (hdigits : writingOf d name = .digits) :
    0 ≤ numberOf d name := by
  rw [numberOf]
  split
  next n hvalue => exact Schema.le_of_violations (Schema.violations_field h hname hvalue)
  next x hvalue =>
    rw [writingOf, hvalue] at hdigits
    exact absurd hdigits (ofFloat_ne_digits x)
  next => exact le_rfl

theorem violations_itemsOf {item : Schema}
    (h : (Schema.record required fields).violations d = [])
    (hname : (name, Schema.list item) ∈ fields) : ∀ i ∈ itemsOf d name, item.violations i = [] := by
  rw [itemsOf]
  split
  next items hvalue => exact Schema.violations_item (Schema.violations_field h hname hvalue)
  next => exact List.forall_mem_nil _

end Values

/-- **The addresses of a device that was described are not negative, and its regions do not end
before they begin,** as long as they are written by digits. -/
theorem ordered_of_device {data : Data} {source : String} {d : MipsDevice}
    (h : device data source = .ok d) (hdigits : d.ByDigits) : d.Ordered := by
  obtain ⟨hrules, rfl, hordered⟩ := device_eq_ok h
  have hregions : ∀ i ∈ itemsOf data "regions", regionSchema.violations i = [] :=
    violations_itemsOf hrules (by simp)
  have hdcrs : ∀ i ∈ itemsOf data "dcrs", registerSchema.violations i = [] :=
    violations_itemsOf hrules (by simp)
  refine ⟨fun m hm => ⟨?_, hordered m hm⟩, ?_, List.forall_mem_map.mpr fun i hi => ?_⟩
  · obtain ⟨i, hi, rfl⟩ := List.mem_map.mp hm
    exact nonneg_numberOf (hregions i hi) (by simp) (hdigits.regions _ hm).1
  · -- without a description of interrupts the vector table has no address
    cases hinterrupts : data.get? "interrupts" with
    | none =>
      simp only [deviceOf, hinterrupts]
      exact le_rfl
    | some i =>
      have hi : interruptsSchema.violations i = [] :=
        Schema.violations_field hrules (by simp) hinterrupts
      have hbase := hdigits.base
      simp only [deviceOf, hinterrupts] at hbase ⊢
      exact nonneg_numberOf hi (by simp) hbase
  · exact nonneg_numberOf (hdcrs i hi) (by simp) (hdigits.dcrs _ (List.mem_map_of_mem hi))

end Description

end ChipSupport
