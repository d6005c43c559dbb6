import ChipSupport.Proofs.Register.ModeMasks
import ChipSupport.Proofs.RegisterBlock.ClosedForm

/-!
# Modes looked up by name

The block of a register goes through the rows of the mode table, and computes the mask of each mode
from the row that it finds under the mode's name.  That is the first row of the name, and merging
can give a name to two rows.  The two agree exactly if rows of one name have the same bitfields.

## Main definitions

* `Register.RowsFound`, `Register.MasksFound` — every row of the table, or its bits, are found under
  its name.
* `RegisterBlock.modeSection` — the lines for one of several modes.

## Main results

* `Register.forall_lookup_iff` — when looking up the names of a table gives its rows.
* `Register.rowsFound_iff`, `Register.masksFound_iff` — the same in terms of the modes before they
  are merged.
* `RegisterBlock.exists_modeSections` — the sections of the modes in a block.
* `RegisterBlock.modeLookup_agrees_iff` — **when the mode table agrees with what is found by name.**
-/

namespace ChipSupport

namespace Register

/-! ### Rows and names -/

/-- Every row of the table is found under its name, and so are its bits. -/
def RowsFound (r : Register) (coalesce : Bool) : Prop :=
  ∀ m ∈ r.modeTable coalesce, r.bitfieldsByMode m.1 coalesce = m.2 ∧
    r.maskByMode m.1 coalesce = Bitfield.maskOf m.2

/-- The bits of every row of the table are found under its name. -/
def MasksFound (r : Register) (coalesce : Bool) : Prop :=
  ∀ m ∈ r.modeTable coalesce, r.maskByMode m.1 coalesce = Bitfield.maskOf m.2

/-- What is found under the name of a row is a row of that name. -/
theorem exists_lookup {α : Type} {table : List (String × α)} {m : String × α} (hm : m ∈ table) :
    ∃ row ∈ table, row.1 = m.1 ∧ table.lookup m.1 = some row.2 := by
  induction table with
  | nil => cases hm
  | cons first rest ih =>
    rw [List.lookup_cons]
    by_cases hfirst : m.1 = first.1
    · exact ⟨first, List.mem_cons_self, hfirst.symm, by rw [hfirst, beq_self_eq_true]⟩
    · rcases List.mem_cons.mp hm with rfl | hm
      · exact absurd rfl hfirst
      · obtain ⟨row, hrow, hname, hlookup⟩ := ih hm
        refine ⟨row, List.mem_cons_of_mem first hrow, hname, ?_⟩
        rw [beq_false_of_ne hfirst]
        exact hlookup

/-- **Looking up the names of a table gives the values of its rows exactly if rows of one name have
the same value.** -/
theorem forall_lookup_iff {α β : Type} (g : α → β) (default : α) (table : List (String × α)) :
    (∀ m ∈ table, g ((table.lookup m.1).getD default) = g m.2) ↔
      ∀ a ∈ table, ∀ b ∈ table, a.1 = b.1 → g a.2 = g b.2 := by
  constructor
  · intro h a ha b hb hname
    rw [← h a ha, ← h b hb, hname]
  · intro h m hm
    obtain ⟨row, hrow, hname, hlookup⟩ := exists_lookup hm
    rw [hlookup, Option.getD_some]
    exact h row hrow m hm hname

variable (r : Register)

theorem rowsFound_iff_names_tell (coalesce : Bool) :
    r.RowsFound coalesce ↔ ∀ a ∈ r.modeTable coalesce, ∀ b ∈ r.modeTable coalesce,
      a.1 = b.1 → a.2 = b.2 := by
  refine Iff.trans ?_ (forall_lookup_iff id [] (r.modeTable coalesce))
  constructor
  · intro h m hm
    exact (h m hm).1
  · intro h m hm
    have hfields : r.bitfieldsByMode m.1 coalesce = m.2 := h m hm
    exact ⟨hfields, by rw [maskByMode, hfields]⟩

theorem masksFound_iff_names_tell (coalesce : Bool) :
    r.MasksFound coalesce ↔ ∀ a ∈ r.modeTable coalesce, ∀ b ∈ r.modeTable coalesce,
      a.1 = b.1 → Bitfield.maskOf a.2 = Bitfield.maskOf b.2 :=
  forall_lookup_iff Bitfield.maskOf [] _

/-- Before modes are merged no name stands twice. -/
theorem rowsFound_false : r.RowsFound false := by
  rw [rowsFound_iff_names_tell]
  intro a ha b hb hname
  have hnodup : ((r.modeTable false).map Prod.fst).Nodup := by
    rw [map_fst_modeTable_false]
    exact nodup_tableModes _
  rw [List.inj_on_of_nodup_map hnodup ha hb hname]

/-! ### Names before modes are merged -/

/-- The name of the row that a mode becomes part of. -/
def mergedName (mode : String) : String :=
  Mode.mergedName Bitfield.sameFields (r.modeTable false) (mode, fieldsIn r.bitfields mode)

section Plain

variable {r} (hplain : ∀ mode ∈ tableModes r.bitfields, Mode.Plain mode)
include hplain

theorem plain_modeTable_false : ∀ m ∈ r.modeTable false, Mode.Plain m.1 := by
  rw [modeTable_false]
  exact List.forall_mem_map.mpr hplain

/-- The names that merging leaves tell a property of the rows exactly if the merged names do. -/
theorem names_tell_modeTable_iff {γ : Type} {g : List Bitfield → γ}
    (hg : ∀ fs gs, Bitfield.sameFields fs gs = true → g fs = g gs) :
    (∀ a ∈ r.modeTable true, ∀ b ∈ r.modeTable true, a.1 = b.1 → g a.2 = g b.2) ↔
      ∀ a ∈ tableModes r.bitfields, ∀ b ∈ tableModes r.bitfields,
        r.mergedName a = r.mergedName b →
          g (fieldsIn r.bitfields a) = g (fieldsIn r.bitfields b) := by
  rw [modeTable_true, Mode.names_tell_coalesce_iff (fun fs gs => @sameFields_iff fs gs) hg
    (plain_modeTable_false hplain)]
  unfold mergedName
  rw [modeTable_false, List.forall_mem_map]
  simp only [List.forall_mem_map]

/-- **Where no name begins with a separator, every row is found under its name exactly if modes of
the same merged name have the same fields.** -/
theorem rowsFound_iff :
    r.RowsFound true ↔ ∀ a ∈ tableModes r.bitfields, ∀ b ∈ tableModes r.bitfields,
      r.mergedName a = r.mergedName b →
        Bitfield.sameFields (fieldsIn r.bitfields a) (fieldsIn r.bitfields b) = true := by
  simp only [sameFields_iff]
  rw [← names_tell_modeTable_iff hplain fun fs gs => sameFields_iff.mp, rowsFound_iff_names_tell]
  refine forall₂_congr fun a ha => forall₂_congr fun b hb => imp_congr_right fun hname => ?_
  constructor
  · intro hfields
    rw [hfields]
  · -- rows of one name with the same fields would have been merged
    intro hfields
    rw [modeTable_true] at ha hb
    rw [Mode.eq_of_mem_coalesce (fun fs gs => @sameFields_iff fs gs)
      (plain_modeTable_false hplain) ha hb
      hname (sameFields_iff.mpr hfields)]

/-- The bits of every row are found under its name exactly if modes of the same merged name have the
same bits. -/
theorem masksFound_iff :
    r.MasksFound true ↔ ∀ a ∈ tableModes r.bitfields, ∀ b ∈ tableModes r.bitfields,
      r.mergedName a = r.mergedName b → Bitfield.maskOf (fieldsIn r.bitfields a)
        = Bitfield.maskOf (fieldsIn r.bitfields b) := by
  rw [masksFound_iff_names_tell]
  exact names_tell_modeTable_iff hplain fun _ _ => Bitfield.maskOf_of_sameFields

end Plain

end Register

namespace RegisterBlock

open Register

/-! ### Sections of a block -/

/-- The lines for one of several modes: its name, the definitions for its bitfields, and its
mask. -/
def modeSection (register : String) (style : Style) (m : String × List Bitfield) (mask : Int) :
    List Line :=
  .text ("/* " ++ m.1 ++ " mode */") :: (m.2.flatMap (bitfieldBlock register style m.1)
    ++ maskBlock style (register ++ "_" ++ m.1) (register ++ " mask for mode " ++ m.1) mask
    ++ [Line.blank])

variable {style : Style}

/-- Where names carry the mode, the lines for one of several modes have the mask that is found under
its name. -/
theorem modeBlock_eq_modeSection (haware : style.modeAware = true) (register : String)
    (r : Register) (m : String × List Bitfield) :
    modeBlock register style r true m
      = modeSection register style m (r.maskByMode m.1 style.coalesceModes) := by
  simp [modeBlock, modeSection, haware]

/-- Sections with different masks are different, if masks are defined at all. -/
theorem modeSection_inj (hmacros : style.maskMacros ≠ []) {register : String}
    {m : String × List Bitfield} {mask mask' : Int}
    (h : modeSection register style m mask = modeSection register style m mask') :
    mask = mask' := by
  obtain ⟨ending, endings, hendings⟩ := List.exists_cons_of_ne_nil hmacros
  have hmasks := List.append_cancel_left (List.append_cancel_right (List.cons.inj h).2)
  rw [maskBlock, maskBlock, hendings, List.map_cons, List.map_cons, List.cons.injEq,
    Line.define.injEq] at hmasks
  exact maskText_inj hmasks.1.2.1

theorem maskMacros_ne_nil (hstyle : style ∈ Style.presets) : style.maskMacros ≠ [] := by
  have hall : ∀ s ∈ Style.presets, s.maskMacros ≠ [] := by
    simp [Style.presets, Style.legacy, Style.atmel, Style.microchip]
  exact hall style hstyle

/-- The block of a register with several modes has their sections in the order of the table. -/
theorem exists_modeSections (h : style.layouts.Standard) (haware : style.modeAware = true)
    {r : Register} (hseveral : 1 < (r.modeTable style.coalesceModes).length)
    (groupMode start : String) :
    ∃ front back, lines r groupMode start style = .ok (front
      ++ (r.modeTable style.coalesceModes).flatMap (fun m =>
        modeSection (style.convention.qualifiedRegisterName r groupMode start) style m
          (r.maskByMode m.1 style.coalesceModes)) ++ back) := by
  obtain ⟨title, union, hblock, -⟩ := exists_lines_eq h r groupMode start
  simp only [decide_eq_true hseveral, funext (modeBlock_eq_modeSection haware _ r)] at hblock
  rw [← List.cons_append, ← List.cons_append] at hblock
  exact ⟨_, _, hblock⟩

/-- **The mode table agrees with what is found by name exactly if rows of one name agree.**  Before
modes are merged it does.  Every row of the merged table is found under its name exactly if rows of
one name have the same bitfields; where no name begins with a separator, rows are found exactly if
modes of one merged name have the same fields, and their bits exactly if these modes have the same
bits.  The block of a register with several modes, in a preset where names carry the mode, has a
section for every mode, and the masks in all of them are those of the fields in them exactly if rows
of one name have the same bits. -/
theorem modeLookup_agrees_iff (r : Register) :
    r.RowsFound false ∧
    (r.RowsFound true ↔
      ∀ a ∈ r.modeTable true, ∀ b ∈ r.modeTable true, a.1 = b.1 → a.2 = b.2) ∧
    ((∀ mode ∈ tableModes r.bitfields, Mode.Plain mode) →
      (r.RowsFound true ↔ ∀ a ∈ tableModes r.bitfields, ∀ b ∈ tableModes r.bitfields,
        r.mergedName a = r.mergedName b →
          Bitfield.sameFields (fieldsIn r.bitfields a) (fieldsIn r.bitfields b) = true) ∧
      (r.MasksFound true ↔ ∀ a ∈ tableModes r.bitfields, ∀ b ∈ tableModes r.bitfields,
        r.mergedName a = r.mergedName b → Bitfield.maskOf (fieldsIn r.bitfields a)
          = Bitfield.maskOf (fieldsIn r.bitfields b))) ∧
    ∀ style ∈ Style.presets, style.modeAware = true →
      1 < (r.modeTable style.coalesceModes).length → ∀ groupMode start, ∃ front back,
        lines r groupMode start style = .ok (front
          ++ (r.modeTable style.coalesceModes).flatMap (fun m =>
            modeSection (style.convention.qualifiedRegisterName r groupMode start) style m
              (r.maskByMode m.1 style.coalesceModes)) ++ back) ∧
        ((∀ m ∈ r.modeTable style.coalesceModes,
            modeSection (style.convention.qualifiedRegisterName r groupMode start) style m
                (r.maskByMode m.1 style.coalesceModes)
              = modeSection (style.convention.qualifiedRegisterName r groupMode start) style m
                (Bitfield.maskOf m.2)) ↔
          ∀ a ∈ r.modeTable style.coalesceModes, ∀ b ∈ r.modeTable style.coalesceModes,
            a.1 = b.1 → Bitfield.maskOf a.2 = Bitfield.maskOf b.2) := by
  refine ⟨rowsFound_false r, rowsFound_iff_names_tell r true,
    fun hplain => ⟨rowsFound_iff hplain, masksFound_iff hplain⟩, ?_⟩
  intro style hstyle haware hseveral groupMode start
  obtain ⟨front, back, hblock⟩ := exists_modeSections (Style.standard_of_mem_presets hstyle) haware
    hseveral groupMode start
  refine ⟨front, back, hblock, ?_⟩
  rw [← masksFound_iff_names_tell, MasksFound]
  refine forall₂_congr fun m _ => ?_
  constructor
  · exact modeSection_inj (maskMacros_ne_nil hstyle)
  · intro hmask
    rw [hmask]

/-- The modes of the serial interface are found by their names, and so are their masks. -/
theorem modeLookup_agrees_serial :
    (∀ mode ∈ tableModes serialControl.bitfields, Mode.Plain mode) ∧
    Style.legacy ∈ Style.presets ∧ Style.legacy.modeAware = true ∧
    1 < (serialControl.modeTable Style.legacy.coalesceModes).length ∧
    serialControl.RowsFound false ∧ serialControl.RowsFound true ∧ serialControl.MasksFound true ∧
    ∃ front back, lines serialControl Mode.default_ "" Style.legacy = .ok (front
        ++ (serialControl.modeTable Style.legacy.coalesceModes).flatMap (fun m =>
          modeSection (Style.legacy.convention.qualifiedRegisterName serialControl Mode.default_ "")
            Style.legacy m (serialControl.maskByMode m.1 Style.legacy.coalesceModes)) ++ back) ∧
      ∀ m ∈ serialControl.modeTable Style.legacy.coalesceModes,
        modeSection (Style.legacy.convention.qualifiedRegisterName serialControl Mode.default_ "")
            Style.legacy m (serialControl.maskByMode m.1 Style.legacy.coalesceModes)
          = modeSection
            (Style.legacy.convention.qualifiedRegisterName serialControl Mode.default_ "")
            Style.legacy m (Bitfield.maskOf m.2) := by
  have hmodes : tableModes serialControl.bitfields = ["SPI_HOST", "SPI_CLIENT", "USART"] := by cbv
  have hplain : ∀ mode ∈ tableModes serialControl.bitfields, Mode.Plain mode := by
    rw [hmodes]
    simp [Mode.Plain]
  have hrows : (serialControl.modeTable true).map Prod.fst = ["SPI", "USART"] := by cbv
  have hnames : ∀ a ∈ serialControl.modeTable true, ∀ b ∈ serialControl.modeTable true,
      a.1 = b.1 → a.2 = b.2 := by
    have hnodup : ((serialControl.modeTable true).map Prod.fst).Nodup := by
      rw [hrows]
      decide
    intro a ha b hb hname
    rw [List.inj_on_of_nodup_map hnodup ha hb hname]
  have hseveral : 1 < (serialControl.modeTable true).length := by
    rw [← List.length_map Prod.fst, hrows]
    decide
  obtain ⟨hplainRows, hrowsFound, -, hblock⟩ := modeLookup_agrees_iff serialControl
  obtain ⟨front, back, hlines, hmasks⟩ :=
    hblock Style.legacy (by simp [Style.presets]) rfl hseveral Mode.default_ ""
  have hfound : serialControl.RowsFound true := hrowsFound.mpr hnames
  exact ⟨hplain, by simp [Style.presets], rfl, hseveral, hplainRows, hfound,
    fun m hm => (hfound m hm).2, front, back, hlines,
    hmasks.mpr fun a ha b hb hname => by rw [hnames a ha b hb hname]⟩

/-- The pads of a serial interface, whose two protocols of one name have different fields. -/
def serialPads : Register :=
  { name := "CTRLA"
    owner := "SERCOM"
    size := 4
    bitfields :=
      [{ name := "TXPO", mask := 0x1, modes := ["USART"] },
        { name := "RXPO", mask := 0x2, modes := ["USART_EXT", "USART_INT"] }] }

theorem modeTable_serialPads : serialPads.modeTable true
    = [("USART", [{ name := "TXPO", mask := 0x1, modes := ["USART"] }]),
      ("USART", [{ name := "RXPO", mask := 0x2, modes := ["USART_EXT", "USART_INT"] }])] := by
  cbv

/-- **The second of the modes of one name has the mask of the first one**, below its own
bitfield. -/
theorem serialPads_mask_wrong :
    ∃ m ∈ serialPads.modeTable true, m.2.map Bitfield.name = ["RXPO"] ∧
      serialPads.bitfieldsByMode m.1 true ≠ m.2 ∧
      serialPads.maskByMode m.1 true = 0x1 ∧ Bitfield.maskOf m.2 = 0x2 ∧
      ∃ front back, lines serialPads Mode.default_ "" Style.legacy
        = .ok (front ++ modeSection "SERCOM_CTRLA" Style.legacy m 0x1 ++ back) := by
  have hmask : serialPads.maskByMode "USART" true = 0x1 := by
    rw [maskByMode, bitfieldsByMode, modeTable_serialPads]
    decide
  have hseveral : 1 < (serialPads.modeTable Style.legacy.coalesceModes).length := by
    have hcount : (serialPads.modeTable true).length = 2 := by rw [modeTable_serialPads]; rfl
    exact hcount.symm ▸ one_lt_two
  obtain ⟨front, back, hlines⟩ := exists_modeSections
    (Style.standard_of_mem_presets (show Style.legacy ∈ Style.presets by simp [Style.presets]))
    rfl hseveral Mode.default_ ""
  refine ⟨_, by rw [modeTable_serialPads]; exact List.mem_cons_of_mem _ List.mem_cons_self, rfl, ?_,
    hmask, rfl, ?_⟩
  · rw [bitfieldsByMode, modeTable_serialPads]
    simp
  · have hname : Style.legacy.convention.qualifiedRegisterName serialPads Mode.default_ ""
        = "SERCOM_CTRLA" := by cbv
    have hcoalesce : Style.legacy.coalesceModes = true := rfl
    rw [hname, hcoalesce, modeTable_serialPads, List.flatMap_cons, List.flatMap_singleton, hmask,
      ← List.append_assoc] at hlines
    exact ⟨_, back, hlines⟩

end RegisterBlock

end ChipSupport
