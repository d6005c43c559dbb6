import ChipSupport.Mips.Script
import ChipSupport.Proofs.Formula
import ChipSupport.Proofs.Mips.MemoryPlan
import ChipSupport.Proofs.Script.Region
import ChipSupport.Proofs.Script.Section
import ChipSupport.Proofs.Steps

/-!
# Jumps from a fixed vector table

On a device with a fixed vector table the processor continues at the slot of an interrupt, from
where a jump leads to the vector.  The script places each slot by a formula that shifts the spacing
of the table, and declares the memory of all slots with a number of bytes for each vector.

## Main definitions

* `MipsScript.slot` — the section of a slot.
* `MipsScript.SlotsWritten` — sections for the vector table of a device.
* `MipsScript.SlotsFit` — sections that lie side by side in the region of exceptions.

## Main results

* `MipsScript.sectionsOf_trampolines` — the sections that the script describes.
* `MipsScript.evaluate_slot` — the addresses of the slots.
* `MipsScript.trampolines_fit` — **the jumps lie side by side in the region of exceptions.**
-/

namespace ChipSupport

/-! ### Vector numbers -/

namespace InterruptList

theorem le_foldl_max (a : Int) (ns : List Int) :
    a ≤ ns.foldl max a ∧ ∀ n ∈ ns, n ≤ ns.foldl max a := by
  induction ns generalizing a with
  | nil => exact ⟨le_rfl, List.forall_mem_nil _⟩
  | cons n ns ih =>
    obtain ⟨hfirst, hrest⟩ := ih (max a n)
    rw [List.foldl_cons, List.forall_mem_cons]
    exact ⟨(le_max_left a n).trans hfirst, (le_max_right a n).trans hfirst, hrest⟩

theorem lastVectorNumber_nonneg (l : InterruptList) : 0 ≤ l.lastVectorNumber :=
  (le_foldl_max 0 _).1

theorem number_le_lastVectorNumber {l : InterruptList} {v : Interrupt} (hv : v ∈ l.vectors) :
    v.number ≤ l.lastVectorNumber :=
  (le_foldl_max 0 _).2 v.number (List.mem_map_of_mem hv)

end InterruptList

theorem MipsDevice.vectorSize_nonneg (d : MipsDevice) : 0 ≤ d.vectorSize := by
  rw [vectorSize]
  split <;> decide

namespace MipsScript

open Script

theorem mem_vectorNumbers {l : InterruptList} {n : Nat} :
    n ∈ vectorNumbers l ↔ (n : Int) ≤ l.lastVectorNumber := by
  have hlast := l.lastVectorNumber_nonneg
  rw [vectorNumbers, List.mem_range]
  omega

/-! ### The lines of the script -/

/-- A script consists of the header of its license, the symbols that it provides, the memory plan,
and the sections of configuration registers, programs and data. -/
theorem eq_of_lines_eq_ok {d : MipsDevice} {reserve : Reserve} {license : License} {ls : List Line}
    (h : lines d reserve license = .ok ls) :
    ∃ block, license.block "bsd" = .ok block ∧
      ls = block
        ++ inserted (preamble reserve.stack reserve.heap ("0x" ++ Numeral.hex d.exceptionBase 8))
        ++ Region.memoryLines (d.memoryPlan d.dcrs) ++ configSections d.dcrs
        ++ sections d (d.memoryPlan d.dcrs) := by
  obtain ⟨-, -, h⟩ := Steps.bind_eq_ok_iff.mp h
  obtain ⟨block, hblock, h⟩ := Steps.bind_eq_ok_iff.mp h
  obtain ⟨-, -, h⟩ := Steps.bind_eq_ok_iff.mp h
  refine ⟨block, hblock, ?_⟩
  cases hoffsets : d.interrupts.variableOffsets
  · rw [hoffsets] at h
    exact (Except.ok.inj h).symm
  · simp only [hoffsets, if_true] at h
    obtain ⟨-, -, h⟩ := Steps.bind_eq_ok_iff.mp h
    exact (Except.ok.inj h).symm

theorem mem_script_of_mem_symbols {block symbols regions configs rest : List Line} {l : Line}
    (h : l ∈ symbols) : l ∈ block ++ symbols ++ regions ++ configs ++ rest := by
  simp only [List.mem_append, h, true_or, or_true]

/-- The jumps are the last sections of a script. -/
theorem exists_sections_eq {d : MipsDevice} (hfixed : d.interrupts.variableOffsets = false)
    (plan : List Region) : ∃ front, sections d plan = front ++ trampolines d ++ fixed ["\x7d"] := by
  simp only [sections, hfixed, Bool.false_eq_true, if_false]
  exact ⟨_, rfl⟩

theorem any_isLineEnd_hex (n : Int) (width : Nat) :
    (Numeral.hex n width).toList.any Text.isLineEnd = false := by
  have hdigit : ∀ d < 16, Text.isLineEnd (Numeral.digitChar d) = false := by decide +kernel
  have hsign : (Numeral.sign n).toList.any Text.isLineEnd = false := by
    rw [Numeral.sign]
    split <;> decide
  have hfill : ∀ length, (Numeral.fill '0' length width).toList.any Text.isLineEnd = false := by
    intro length
    rw [Numeral.fill, String.toList_ofList, List.any_replicate]
    split <;> decide
  have hdigits : ((Numeral.digits 16 n.natAbs).map Numeral.digitChar).any Text.isLineEnd
      = false := by
    rw [List.any_map, List.any_eq_false]
    intro d hd
    rw [Function.comp_apply, hdigit d (Numeral.digits_lt (by decide) _ d hd)]
    exact Bool.false_ne_true
  simp only [Numeral.hex, String.toList_append, String.toList_ofList, List.any_append, hsign, hfill,
    hdigits, Bool.or_false]

/-! ### The sections of the slots -/

/-- The name of the section of a slot, without the point in front. -/
def slotName (n : Nat) : String := "vector_dispatch_" ++ Numeral.natural n

/-- By how many bits the spacing is shifted for the distance of two slots. -/
def slotShift (microMipsOnly : Bool) : Nat := if microMipsOnly then 3 else 5

/-- The formula for the address of a slot. -/
def slotAddress (microMipsOnly : Bool) (n : Nat) : String :=
  "_ebase_address + 0x200 + ((_vector_spacing << " ++ Numeral.natural (slotShift microMipsOnly)
    ++ ") * " ++ Numeral.natural n ++ ") "

/-- The section of a slot, as a linker reads it. -/
def slot (microMipsOnly : Bool) (n : Nat) : OutputSection :=
  { name := "." ++ slotName n
    address := " " ++ slotAddress microMipsOnly n
    contents := (trampoline microMipsOnly n).tail.dropLast
    region := "exception_mem" }

theorem header?_slot (microMipsOnly : Bool) (n : Nat) :
    header? ("  ." ++ slotName n ++ " " ++ slotAddress microMipsOnly n ++ ":")
      = some { name := "." ++ slotName n, address := " " ++ slotAddress microMipsOnly n } := by
  have hfixed : ∀ c ∈ "vector_dispatch_".toList, c ≠ ' ' := by simp
  have hnumber : ∀ c ∈ (Numeral.natural n).toList, c ≠ ' ' := by
    rw [← Numeral.decimal_natCast]
    rintro c hc rfl
    exact absurd (Numeral.isAlphanum_of_mem_decimal hc) (by decide)
  have hname : (slotName n).toList = "vector_dispatch_".toList ++ (Numeral.natural n).toList :=
    String.toList_append
  refine header?_eq_some (fun c hc => ?_) _
  exact List.forall_mem_append.mpr ⟨hfixed, hnumber⟩ c (hname ▸ hc)

/-- Texts that are the same literals, cut at other places. -/
theorem cut_line {p q r t u v w s k : String} (hp : p = "  ." ++ q)
    (hr : r = " " ++ (t ++ (k ++ u))) (hw : w = v ++ ":") :
    p ++ s ++ r ++ s ++ w = "  ." ++ (q ++ s) ++ " " ++ (t ++ k ++ u ++ s ++ v) ++ ":" := by
  subst hp hr hw
  simp only [String.append_assoc]

/-- The lines of a slot: its name and its address, its contents, and the region in which it lies. -/
theorem trampoline_eq (microMipsOnly : Bool) (n : Nat) :
    trampoline microMipsOnly n
      = ("  ." ++ slotName n ++ " " ++ slotAddress microMipsOnly n ++ ":")
        :: ((slot microMipsOnly n).contents ++ ["  \x7d > exception_mem"]) := by
  have hlong : "  .vector_dispatch_" ++ Numeral.natural n
      ++ " _ebase_address + 0x200 + ((_vector_spacing << 5) * " ++ Numeral.natural n ++ ") :"
      = "  ." ++ slotName n ++ " " ++ slotAddress false n ++ ":" :=
    cut_line (by decide +kernel) (by decide +kernel) (by decide +kernel)
  have hshort : "  .vector_dispatch_" ++ Numeral.natural n
      ++ " _ebase_address + 0x200 + ((_vector_spacing << 3) * " ++ Numeral.natural n ++ ") :"
      = "  ." ++ slotName n ++ " " ++ slotAddress true n ++ ":" :=
    cut_line (by decide +kernel) (by decide +kernel) (by decide +kernel)
  cases microMipsOnly
  · simp only [trampoline, Bool.false_eq_true, if_false, longTrampoline, hlong, slot,
      List.tail_cons, List.dropLast, List.cons_append, List.nil_append]
  · simp only [trampoline, if_true, shortTrampoline, hshort, slot, List.tail_cons, List.dropLast,
      List.cons_append, List.nil_append]

/-- The contents of a slot end nowhere before its last line, and hold as many words as the jump has
instructions. -/
theorem placement?_of_mem_contents {microMipsOnly : Bool} {n : Nat} {line : String}
    (h : line ∈ (slot microMipsOnly n).contents) : placement? line = none := by
  revert line
  cases microMipsOnly <;>
    simp [slot, trampoline, longTrampoline, shortTrampoline, placement?, regionOf, skipBlanks]

theorem size_slot (microMipsOnly : Bool) (n : Nat) :
    (slot microMipsOnly n).size = if microMipsOnly then 8 else 16 := by
  cases microMipsOnly <;>
    simp [slot, trampoline, longTrampoline, shortTrampoline, OutputSection.size,
      OutputSection.isWord, skipBlanks, List.isPrefixOf]

/-- A slot is read from its lines, whatever stands behind them. -/
theorem sectionsFrom_trampoline (microMipsOnly : Bool) (n : Nat) (rest : List String) :
    sectionsFrom none (trampoline microMipsOnly n ++ rest)
      = slot microMipsOnly n :: sectionsFrom none rest := by
  have hend : placement? "  \x7d > exception_mem" = some "exception_mem" := by decide
  rw [trampoline_eq, List.cons_append, List.append_assoc, List.singleton_append,
    sectionsFrom_section (header?_slot microMipsOnly n) (fun _ => placement?_of_mem_contents) hend]
  rfl

/-- **The jumps are one section for each number of the vector table.** -/
theorem sectionsOf_trampolines (d : MipsDevice) :
    sectionsOf (trampolines d) = (vectorNumbers d.interrupts).map (slot d.microMipsOnly) := by
  have hslots : ∀ ns : List Nat, sectionsFrom none (ns.flatMap (trampoline d.microMipsOnly) ++ [""])
      = ns.map (slot d.microMipsOnly) := by
    intro ns
    induction ns with
    | nil => rfl
    | cons n ns ih =>
      rw [List.flatMap_cons, List.append_assoc, sectionsFrom_trampoline, ih, List.map_cons]
  have hrender : ∀ texts : List String, (fixed texts).map Line.render = texts := by
    intro texts
    rw [fixed, List.map_map]
    exact List.map_id texts
  rw [sectionsOf, trampolines, hrender, List.append_assoc, sectionsFrom_of_no_header, hslots]
  cases d.microMipsOnly <;> decide +kernel

/-! ### The addresses of the slots -/

/-- The symbols of the vector table, if slots lie as close together as they can. -/
def tableSymbols (base : Int) (symbol : String) : Option Int :=
  if symbol = "_vector_spacing" then some 1
  else if symbol = "_ebase_address" then some base else none

theorem cut_address {p b x h o v l k t s e : String} (hp : p = b ++ (x ++ (h ++ (o ++ (v ++ l))))) :
    " " ++ (p ++ k ++ t ++ s ++ e) = " " ++ b ++ x ++ h ++ o ++ v ++ l ++ k ++ t ++ s ++ e := by
  subst hp
  simp only [String.append_assoc]

/-- A slot lies as far behind the begin of the table as the slots before it take up. -/
theorem evaluate_slot (d : MipsDevice) (base : Int) (n : Nat) :
    Formula.evaluate (tableSymbols base) (slot d.microMipsOnly n).address
      = some (base + 0x200 + d.vectorSize * n) := by
  have hbase : tableSymbols base "_ebase_address" = some base := by simp [tableSymbols]
  have hspacing : tableSymbols base "_vector_spacing" = some 1 := by simp [tableSymbols]
  have haddress : (slot d.microMipsOnly n).address
      = " " ++ "_ebase_address" ++ " + 0x" ++ Numeral.hex (512 : Nat) ++ " + (("
        ++ "_vector_spacing" ++ " << " ++ Numeral.natural (slotShift d.microMipsOnly) ++ ") * "
        ++ Numeral.natural n ++ ") " := cut_address (by decide +kernel)
  have hsize : Bits.shiftLeft 1 (slotShift d.microMipsOnly) = d.vectorSize := by
    rw [MipsDevice.vectorSize]
    cases d.microMipsOnly <;> rfl
  rw [haddress, Formula.evaluate_place (by decide +kernel) (by decide +kernel) hbase hspacing,
    hsize]
  rfl

/-! ### The region of the slots -/

/-- Sections for the vector table of a device. -/
structure SlotsWritten (d : MipsDevice) (slots : List OutputSection) : Prop where
  /-- There is a section for each number up to the largest one of the device. -/
  names : slots.map OutputSection.name
    = (List.range (d.interrupts.lastVectorNumber + 1).toNat).map
        fun n => ".vector_dispatch_" ++ Numeral.natural n
  /-- No section returns. -/
  nodup : (slots.map OutputSection.name).Nodup
  /-- Every vector of the device has a section, except for those of the processor core. -/
  listed : ∀ v ∈ d.interrupts.vectors, 0 ≤ v.number →
    ∃ s ∈ slots, s.name = ".vector_dispatch_" ++ Numeral.decimal v.number
  /-- The sections are placed in the region of exceptions. -/
  region : ∀ s ∈ slots, s.region = d.exceptionRegion.name
  /-- The number of bytes of a jump depends on the instructions of the device. -/
  size : ∀ s ∈ slots, s.size = if d.microMipsOnly then 8 else 16

/-- Sections that lie side by side in the region of exceptions, behind its first 512 bytes. -/
structure SlotsFit (d : MipsDevice) (base : Int) (slots : List OutputSection) : Prop where
  /-- Every section lies behind the first 512 bytes, and in the region of exceptions. -/
  inside : ∀ s ∈ slots, ∃ a, Formula.evaluate (tableSymbols base) s.address = some a ∧
    base + 0x200 ≤ a ∧ d.exceptionRegion.start ≤ a ∧
    a + s.size ≤ d.exceptionRegion.start + d.exceptionRegion.length
  /-- Every section ends before the next ones begin. -/
  disjoint : slots.Pairwise fun s t => ∀ a b,
    Formula.evaluate (tableSymbols base) s.address = some a →
    Formula.evaluate (tableSymbols base) t.address = some b → a + s.size ≤ b

theorem name_slot (microMipsOnly : Bool) (n : Nat) :
    (slot microMipsOnly n).name = ".vector_dispatch_" ++ Numeral.natural n := by
  have hpoint : ".vector_dispatch_" = "." ++ "vector_dispatch_" := by decide +kernel
  exact String.append_assoc.symm.trans (congrArg (· ++ Numeral.natural n) hpoint.symm)

/-- A jump takes up no more than a slot. -/
theorem size_slot_le (d : MipsDevice) (n : Nat) : (slot d.microMipsOnly n).size ≤ d.vectorSize := by
  rw [size_slot, MipsDevice.vectorSize]
  split <;> decide

theorem slots_pairwise (d : MipsDevice) (base : Int) (k : Nat) :
    ((List.range k).map (slot d.microMipsOnly)).Pairwise fun s t => ∀ a b,
      Formula.evaluate (tableSymbols base) s.address = some a →
      Formula.evaluate (tableSymbols base) t.address = some b → a + s.size ≤ b := by
  rw [List.pairwise_map]
  refine List.pairwise_lt_range.imp fun {m n} hmn a b ha hb => ?_
  have hsize := size_slot_le d m
  rw [evaluate_slot, Option.some.injEq] at ha hb
  have hnext : d.vectorSize * (m + 1) ≤ d.vectorSize * n := by
    exact Int.mul_le_mul_of_nonneg_left (by omega) d.vectorSize_nonneg
  rw [mul_add, mul_one] at hnext
  omega

/-- The region of exceptions ends with the last slot. -/
theorem stop_exceptionRegion {d : MipsDevice} (hbase : 0 ≤ d.exceptionBase)
    (hend : d.exceptionBase + 0x200 + d.vectorSize * (d.interrupts.lastVectorNumber + 1) < 2 ^ 32) :
    d.exceptionRegion.start = d.exceptionBase ∧
    d.exceptionRegion.start + d.exceptionRegion.length
      = d.exceptionBase + 0x200 + d.vectorSize * (d.interrupts.lastVectorNumber + 1) := by
  have htable : 0 ≤ d.vectorSize * (d.interrupts.lastVectorNumber + 1) := by
    have hlast := d.interrupts.lastVectorNumber_nonneg
    exact Int.mul_nonneg d.vectorSize_nonneg (by omega)
  have hstart : d.exceptionRegion.start = d.exceptionBase := by
    rw [MipsDevice.exceptionRegion, Region.start_span, Region.word_of_lt hbase (by omega)]
  refine ⟨hstart, ?_⟩
  rw [hstart, MipsDevice.exceptionRegion, Region.length_span_of_lt _ hbase (by omega) hend]
  omega

theorem slotsWritten_trampolines (d : MipsDevice) :
    SlotsWritten d (sectionsOf (trampolines d)) := by
  have hnames : ((vectorNumbers d.interrupts).map (slot d.microMipsOnly)).map OutputSection.name
      = (vectorNumbers d.interrupts).map fun n => ".vector_dispatch_" ++ Numeral.natural n := by
    rw [List.map_map]
    exact List.map_congr_left fun n _ => name_slot d.microMipsOnly n
  rw [sectionsOf_trampolines]
  refine ⟨hnames, ?_, fun v hv hpos => ?_, ?_, ?_⟩
  · rw [hnames]
    refine List.nodup_range.map fun m n h => Numeral.natural_injective ?_
    exact String.append_right_inj _ |>.mp h
  · lift v.number to Nat using hpos with n hn
    refine ⟨slot d.microMipsOnly n, List.mem_map_of_mem (mem_vectorNumbers.mpr ?_), ?_⟩
    · rw [hn]
      exact InterruptList.number_le_lastVectorNumber hv
    · rw [name_slot, Numeral.decimal_natCast]
  · exact List.forall_mem_map.mpr fun n _ => rfl
  · exact List.forall_mem_map.mpr fun n _ => size_slot d.microMipsOnly n

theorem slotsFit_trampolines {d : MipsDevice} (hbase : 0 ≤ d.exceptionBase)
    (hend : d.exceptionBase + 0x200 + d.vectorSize * (d.interrupts.lastVectorNumber + 1) < 2 ^ 32) :
    SlotsFit d d.exceptionBase (sectionsOf (trampolines d)) := by
  obtain ⟨hstart, hstop⟩ := stop_exceptionRegion hbase hend
  rw [sectionsOf_trampolines]
  refine ⟨List.forall_mem_map.mpr fun n hn => ⟨_, evaluate_slot d _ n, ?_⟩, slots_pairwise d _ _⟩
  have hle : d.vectorSize * n + d.vectorSize
      ≤ d.vectorSize * (d.interrupts.lastVectorNumber + 1) := by
    have hlast := mem_vectorNumbers.mp hn
    rw [mul_add, mul_one]
    have := Int.mul_le_mul_of_nonneg_left hlast d.vectorSize_nonneg
    omega
  have hplace : 0 ≤ d.vectorSize * n := Int.mul_nonneg d.vectorSize_nonneg (by omega)
  have hsize := size_slot_le d n
  omega

/-- **The jumps from a fixed vector table lie side by side in the region of exceptions,** which is
among the regions of the memory plan: there is one for each number up to the largest vector number,
and so for each vector.  Their places are those for the addresses that the script itself provides,
of a table that begins at no negative address and ends below 2³². -/
theorem trampolines_fit {d : MipsDevice} (hfixed : d.interrupts.variableOffsets = false) :
    SlotsWritten d (sectionsOf (trampolines d)) ∧
    (0 ≤ d.exceptionBase →
      d.exceptionBase + 0x200 + d.vectorSize * (d.interrupts.lastVectorNumber + 1) < 2 ^ 32 →
      Formula.evaluate (fun _ => none) ("0x" ++ Numeral.hex d.exceptionBase 8)
        = some d.exceptionBase ∧
      SlotsFit d d.exceptionBase (sectionsOf (trampolines d))) ∧
    d.exceptionRegion.name = "exception_mem" ∧ (∀ rs, d.exceptionRegion ∈ d.memoryPlan rs) ∧
    ∀ reserve license ls, lines d reserve license = .ok ls →
      (∃ front back, ls = front ++ trampolines d ++ back) ∧
      .text "PROVIDE(_vector_spacing = 0x0001);" ∈ ls ∧
      .text ("PROVIDE(_ebase_address = " ++ ("0x" ++ Numeral.hex d.exceptionBase 8) ++ ");")
        ∈ ls := by
  refine ⟨slotsWritten_trampolines d, fun hbase hend => ?_, rfl, fun rs => ?_,
    fun reserve license ls h => ?_⟩
  · exact ⟨(Formula.evaluate_hexWord_iff _).mpr ⟨hbase, rfl⟩, slotsFit_trampolines hbase hend⟩
  · rw [(d.perm_memoryPlan rs).mem_iff, MipsDevice.baseRegions, hfixed]
    simp
  · have hspacing : "PROVIDE(_vector_spacing = 0x0001);".toList.any Text.isLineEnd = false := by
      decide +kernel
    have hplace : ("PROVIDE(_ebase_address = " ++ ("0x" ++ Numeral.hex d.exceptionBase 8)
        ++ ");").toList.any Text.isLineEnd = false := by
      simp only [String.toList_append, List.any_append, any_isLineEnd_hex, Bool.or_false]
      decide +kernel
    obtain ⟨block, -, rfl⟩ := eq_of_lines_eq_ok h
    obtain ⟨front, hfront⟩ := exists_sections_eq hfixed (d.memoryPlan d.dcrs)
    refine ⟨⟨_, _, by rw [hfront, ← List.append_assoc, ← List.append_assoc]⟩, ?_, ?_⟩
    · exact mem_script_of_mem_symbols (mem_inserted hspacing (by simp [preamble]))
    · exact mem_script_of_mem_symbols (mem_inserted hplace (by simp [preamble]))

/-- A device that executes microMIPS instructions only, with the first and the last vector of a
table of four. -/
def compactDevice : MipsDevice :=
  { name := "PIC32MM0016GPL020"
    mips32 := false
    micromips := true
    interrupts :=
      { vectors :=
          [{ number := 0, name := "CORE_TIMER" }, { number := 3, name := "EXTERNAL_0" }] } }

/-- The jumps of the device lie in a region that ends with the last one. -/
theorem compactDevice_trampolines_fit :
    compactDevice.interrupts.variableOffsets = false ∧ compactDevice.exceptionBase = 0x9D000000 ∧
    compactDevice.exceptionBase + 0x200
      + compactDevice.vectorSize * (compactDevice.interrupts.lastVectorNumber + 1) = 0x9D000220 ∧
    SlotsWritten compactDevice (sectionsOf (trampolines compactDevice)) ∧
    Formula.evaluate (fun _ => none) ("0x" ++ Numeral.hex compactDevice.exceptionBase 8)
      = some 0x9D000000 ∧
    SlotsFit compactDevice 0x9D000000 (sectionsOf (trampolines compactDevice)) := by
  obtain ⟨hwritten, hfit, -⟩ := trampolines_fit (d := compactDevice) rfl
  exact ⟨rfl, rfl, rfl, hwritten, hfit (by decide) (by decide)⟩

end MipsScript

end ChipSupport
