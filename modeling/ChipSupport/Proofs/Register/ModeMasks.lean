import ChipSupport.Proofs.Bits.Union
import ChipSupport.Proofs.Document.Group
import ChipSupport.Proofs.Register.Vector

/-!
# The bits in a table of modes

The table of modes has the bitfields of a register once for every mode that they list.  Merging
modes takes whole rows out of the table, but only such ones as have the same names and bits as a row
that is left, so that the bits of all rows together stay those of the register.

## Main definitions

* `Register.tableModes` — the modes of the table before any of them are merged.

## Main results

* `Register.modeTable_false`, `Register.modeTable_true` — the table, and the table with merged
  modes.
* `Register.pairwise_idxOf_eraseDups` — the order of first use.
* `Register.exists_sameAs_mem_modeTable` — every bitfield is left in some row.
* `Register.modeTable_masks` — **no bit of a register is lost in its table of modes.**
-/

namespace ChipSupport

open Register

/-! ### Masks of bitfields -/

namespace Bitfield

theorem sameFields_refl (fs : List Bitfield) : sameFields fs fs = true := sameFields_iff.mpr rfl

/-- Bitfields that are the same have the same bits. -/
theorem maskOf_of_sameFields {fs gs : List Bitfield} (h : sameFields fs gs = true) :
    maskOf fs = maskOf gs := by
  have hmasks := congrArg (List.map Prod.snd) (sameFields_iff.mp h)
  rw [List.map_map, List.map_map] at hmasks
  exact congrArg Bits.union hmasks

theorem testBit_maskOf (fs : List Bitfield) (k : Nat) :
    (maskOf fs).testBit k = fs.any fun f => f.mask.testBit k := by
  rw [maskOf, Bits.testBit_union, List.any_map]
  rfl

end Bitfield

namespace Register

/-! ### The order of first use -/

/-- **Items that are listed once each stand in the order of their first use.** -/
theorem pairwise_idxOf_eraseDups (xs : List String) :
    xs.eraseDups.Pairwise fun a b => xs.idxOf a < xs.idxOf b := by
  -- induction from the end, where an item is listed if it has not been used before
  induction xs using List.reverseRecOn with
  | nil => simp
  | append_singleton xs x ih =>
    have hkept : xs.eraseDups.Pairwise fun a b => (xs ++ [x]).idxOf a < (xs ++ [x]).idxOf b := by
      refine ih.imp_of_mem ?_
      intro a b ha hb hlt
      rw [List.mem_eraseDups] at ha hb
      rwa [List.idxOf_append_of_mem ha, List.idxOf_append_of_mem hb]
    rw [List.eraseDups_append]
    by_cases hx : x ∈ xs
    · have hnone : [x].removeAll xs = [] := by simp [List.removeAll, hx]
      rw [hnone, List.eraseDups_nil, List.append_nil]
      exact hkept
    · have hnew : ([x].removeAll xs).eraseDups = [x] := by
        simp [List.removeAll, hx, List.eraseDups_cons]
      rw [hnew, List.pairwise_append]
      refine ⟨hkept, List.pairwise_singleton _ _, ?_⟩
      intro a ha b hb
      rw [List.mem_eraseDups] at ha
      rw [List.mem_singleton.mp hb, List.idxOf_append_of_mem ha, List.idxOf_append_of_notMem hx]
      exact Nat.lt_add_right _ (List.idxOf_lt_length_of_mem ha)

/-! ### The table -/

/-- The modes of the table: those that are listed, or the default one if none is. -/
def tableModes (fs : List Bitfield) : List String :=
  if modeNames fs = [] then [Mode.default_] else modeNames fs

theorem mem_modeNames {fs : List Bitfield} {mode : String} :
    mode ∈ modeNames fs ↔ ∃ f ∈ fs, mode ∈ f.modes := by
  rw [modeNames, List.mem_eraseDups, List.mem_flatMap]

theorem mem_fieldsIn {fs : List Bitfield} {mode : String} {f : Bitfield} :
    f ∈ fieldsIn fs mode ↔ f ∈ fs ∧ mode ∈ f.modes := by
  rw [fieldsIn, Bitfield.mem_sorted, List.mem_filter, List.contains_iff_mem]

/-- The table before modes are merged: every mode has the bitfields that list it. -/
theorem modeTable_false (r : Register) :
    r.modeTable false
      = (tableModes r.bitfields).map fun mode => (mode, fieldsIn r.bitfields mode) := by
  unfold modeTable tableModes
  cases hnames : modeNames r.bitfields with
  | nil =>
    -- no bitfield lists the default mode
    have hnone : r.bitfields.filter (fun f => f.modes.contains Mode.default_) = [] := by
      rw [List.filter_eq_nil_iff]
      intro f hf hmode
      have hmem : Mode.default_ ∈ modeNames r.bitfields :=
        mem_modeNames.mpr ⟨f, hf, List.contains_iff_mem.mp hmode⟩
      rw [hnames] at hmem
      cases hmem
    rw [if_pos rfl, List.map_singleton, fieldsIn, hnone, Bitfield.sorted, List.mergeSort_nil]
  | cons name rest =>
    rw [if_neg (List.cons_ne_nil name rest)]
    rfl

/-- The table with merged modes: a register without modes is no special case. -/
theorem modeTable_true (r : Register) :
    r.modeTable true = Mode.coalesce Bitfield.sameFields (r.modeTable false) := by
  unfold modeTable
  cases modeNames r.bitfields with
  | nil => exact (Mode.coalesce_of_apart _ (List.pairwise_singleton _ _)).symm
  | cons name rest => rfl

theorem map_fst_modeTable_false (r : Register) :
    (r.modeTable false).map Prod.fst = tableModes r.bitfields := by
  rw [modeTable_false, List.map_map]
  exact List.map_id _

/-- No mode is listed twice, and the modes are in the order of first use. -/
theorem pairwise_tableModes (fs : List Bitfield) :
    (tableModes fs).Pairwise fun a b =>
      (fs.flatMap Bitfield.modes).idxOf a < (fs.flatMap Bitfield.modes).idxOf b := by
  unfold tableModes
  split
  · exact List.pairwise_singleton _ _
  · exact pairwise_idxOf_eraseDups (fs.flatMap Bitfield.modes)

theorem nodup_tableModes (fs : List Bitfield) : (tableModes fs).Nodup := by
  refine (pairwise_tableModes fs).imp ?_
  rintro a b hlt rfl
  exact Nat.lt_irrefl _ hlt

theorem mem_tableModes {fs : List Bitfield} (h : ∀ f ∈ fs, f.modes ≠ []) {mode : String} :
    mode ∈ tableModes fs ↔ (∃ f ∈ fs, mode ∈ f.modes) ∨ fs = [] ∧ mode = Mode.default_ := by
  unfold tableModes
  split
  next hnone =>
    -- without modes there are no bitfields
    have hfs : fs = [] := by
      rw [List.eq_nil_iff_forall_not_mem]
      intro f hf
      obtain ⟨mode, hmode⟩ := List.exists_mem_of_ne_nil _ (h f hf)
      have hmem : mode ∈ modeNames fs := mem_modeNames.mpr ⟨f, hf, hmode⟩
      rw [hnone] at hmem
      cases hmem
    simp [hfs]
  next hsome =>
    have hfs : fs ≠ [] := by
      rintro rfl
      exact hsome rfl
    rw [mem_modeNames]
    simp [hfs]

/-! ### Rows of the table -/

/-- The rows of the merged table are rows of the table, but for their names. -/
theorem exists_row (r : Register) {coalesce : Bool} {m : String × List Bitfield}
    (hm : m ∈ r.modeTable coalesce) :
    ∃ mode ∈ tableModes r.bitfields, m.2 = fieldsIn r.bitfields mode := by
  have hplain : ∀ m ∈ r.modeTable false, ∃ mode ∈ tableModes r.bitfields,
      m.2 = fieldsIn r.bitfields mode := by
    rw [modeTable_false]
    intro m hm
    obtain ⟨mode, hmode, rfl⟩ := List.mem_map.mp hm
    exact ⟨mode, hmode, rfl⟩
  cases coalesce with
  | false => exact hplain m hm
  | true =>
    rw [modeTable_true] at hm
    obtain ⟨row, hrow, hfields, -⟩ := Mode.exists_of_mem_coalesce hm
    obtain ⟨mode, hmode, heq⟩ := hplain row hrow
    exact ⟨mode, hmode, hfields.symm.trans heq⟩

theorem mem_bitfields_of_mem_modeTable {r : Register} {coalesce : Bool} {m : String × List Bitfield}
    (hm : m ∈ r.modeTable coalesce) {f : Bitfield} (hf : f ∈ m.2) : f ∈ r.bitfields := by
  obtain ⟨mode, -, hfields⟩ := exists_row r hm
  rw [hfields] at hf
  exact (mem_fieldsIn.mp hf).1

/-- **What a bitfield's mode has in the table is left in some row**, with the same bits. -/
theorem exists_sameAs_mem_modeTable (r : Register) (coalesce : Bool) {f : Bitfield}
    (hf : f ∈ r.bitfields) {mode : String} (hmode : mode ∈ f.modes) :
    ∃ m ∈ r.modeTable coalesce, ∃ fs, Bitfield.sameFields m.2 fs = true ∧ f ∈ fs := by
  have hlisted : mode ∈ tableModes r.bitfields := by
    have hname : mode ∈ modeNames r.bitfields := mem_modeNames.mpr ⟨f, hf, hmode⟩
    rw [tableModes, if_neg (List.ne_nil_of_mem hname)]
    exact hname
  have hrow : (mode, fieldsIn r.bitfields mode) ∈ r.modeTable false := by
    rw [modeTable_false]
    exact List.mem_map_of_mem hlisted
  have hfield : f ∈ fieldsIn r.bitfields mode := mem_fieldsIn.mpr ⟨hf, hmode⟩
  cases coalesce with
  | false => exact ⟨_, hrow, _, Bitfield.sameFields_refl _, hfield⟩
  | true =>
    rw [modeTable_true]
    obtain ⟨m, hm, hsame⟩ := Mode.exists_mem_coalesce Bitfield.sameFields_refl hrow
    exact ⟨m, hm, _, hsame, hfield⟩

/-! ### The bits of the rows -/

/-- The bits of all rows together are those of the register. -/
theorem union_modeTable {r : Register} (h : ∀ f ∈ r.bitfields, f.modes ≠ []) (coalesce : Bool) :
    Bits.union ((r.modeTable coalesce).map fun m => Bitfield.maskOf m.2) = r.mask := by
  refine Bits.ext_testBit fun k => ?_
  rw [Bits.testBit_union, List.any_map, mask, Bitfield.testBit_maskOf, Bool.eq_iff_iff,
    List.any_eq_true, List.any_eq_true]
  constructor
  · rintro ⟨m, hm, hbit⟩
    rw [Function.comp_apply, Bitfield.testBit_maskOf, List.any_eq_true] at hbit
    obtain ⟨f, hf, hbit⟩ := hbit
    exact ⟨f, mem_bitfields_of_mem_modeTable hm hf, hbit⟩
  · rintro ⟨f, hf, hbit⟩
    obtain ⟨mode, hmode⟩ := List.exists_mem_of_ne_nil _ (h f hf)
    obtain ⟨m, hm, fs, hsame, hfs⟩ := exists_sameAs_mem_modeTable r coalesce hf hmode
    refine ⟨m, hm, ?_⟩
    rw [Function.comp_apply, Bitfield.maskOf_of_sameFields hsame, Bitfield.testBit_maskOf,
      List.any_eq_true]
    exact ⟨f, hfs, hbit⟩

/-- **No bit of a register is lost in its table of modes.**  If every bitfield lists a mode, the
union of the masks of all bitfields of all rows is the mask of the register, whether modes are
merged or not, and every row has its bitfields lowest bit first.  Before modes are merged a row has
the bitfields that list its mode; the modes are those that are listed, each once and in the order of
first use, and a register without bitfields has the default mode. -/
theorem modeTable_masks {r : Register} (h : ∀ f ∈ r.bitfields, f.modes ≠ []) (coalesce : Bool) :
    Bits.union ((r.modeTable coalesce).map fun m => Bits.union (m.2.map Bitfield.mask))
      = r.mask ∧
    (∀ m ∈ r.modeTable coalesce, m.2.Pairwise fun f g => f.lsb ≤ g.lsb) ∧
    (∀ m ∈ r.modeTable false, m.2.Perm (r.bitfields.filter fun f => f.modes.contains m.1)) ∧
    ((r.modeTable false).map Prod.fst).Nodup ∧
    ((r.modeTable false).map Prod.fst).Pairwise (fun a b =>
      (r.bitfields.flatMap Bitfield.modes).idxOf a < (r.bitfields.flatMap Bitfield.modes).idxOf b) ∧
    ∀ mode, mode ∈ (r.modeTable false).map Prod.fst ↔
      (∃ f ∈ r.bitfields, mode ∈ f.modes) ∨ r.bitfields = [] ∧ mode = Mode.default_ := by
  rw [map_fst_modeTable_false]
  refine ⟨union_modeTable h coalesce, ?_, ?_, nodup_tableModes _, pairwise_tableModes _,
    fun mode => mem_tableModes h⟩
  · intro m hm
    obtain ⟨mode, -, hfields⟩ := exists_row r hm
    rw [hfields]
    exact Bitfield.pairwise_sorted _
  · rw [modeTable_false]
    intro m hm
    obtain ⟨mode, -, rfl⟩ := List.mem_map.mp hm
    exact List.mergeSort_perm _ _

/-- A control register of a serial interface, whose two modes of one protocol have the same
fields. -/
def serialControl : Register :=
  { name := "CTRLA"
    owner := "SERCOM"
    size := 4
    bitfields :=
      [{ name := "CPHA", mask := 0x10, modes := ["SPI_HOST", "SPI_CLIENT"] },
        { name := "ENABLE", mask := 0x2, modes := ["SPI_CLIENT", "SPI_HOST", "USART"] },
        { name := "SBMODE", mask := 0x40, modes := ["USART"] }] }

/-- The two modes of one protocol are merged, and the register keeps its bits. -/
theorem modeTable_masks_serial :
    (∀ f ∈ serialControl.bitfields, f.modes ≠ []) ∧
    (serialControl.modeTable true).map Prod.fst = ["SPI", "USART"] ∧
    Bits.union ((serialControl.modeTable true).map fun m => Bits.union (m.2.map Bitfield.mask))
      = serialControl.mask ∧
    serialControl.mask = 0x52 ∧
    (∀ m ∈ serialControl.modeTable true, m.2.Pairwise fun f g => f.lsb ≤ g.lsb) ∧
    (∀ m ∈ serialControl.modeTable false,
      m.2.Perm (serialControl.bitfields.filter fun f => f.modes.contains m.1)) ∧
    ((serialControl.modeTable false).map Prod.fst).Nodup ∧
    ((serialControl.modeTable false).map Prod.fst).Pairwise (fun a b =>
      (serialControl.bitfields.flatMap Bitfield.modes).idxOf a
        < (serialControl.bitfields.flatMap Bitfield.modes).idxOf b) ∧
    ("SPI_CLIENT" ∈ (serialControl.modeTable false).map Prod.fst ↔
      (∃ f ∈ serialControl.bitfields, "SPI_CLIENT" ∈ f.modes) ∨
        serialControl.bitfields = [] ∧ "SPI_CLIENT" = Mode.default_) := by
  have hlisted : ∀ f ∈ serialControl.bitfields, f.modes ≠ [] := by decide
  obtain ⟨hunion, hsorted, hfields, hnodup, horder, hmodes⟩ := modeTable_masks hlisted true
  exact ⟨hlisted, by cbv, hunion, by decide, hsorted, hfields, hnodup, horder,
    hmodes "SPI_CLIENT"⟩

end Register

end ChipSupport
