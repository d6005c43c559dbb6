import ChipSupport.Proofs.RegisterBlock.Captions

/-!
# Blocks of registers that are the same

Modes are merged if their registers are the same: equal in name, place, size and access, and in the
names and bits of their bitfields.  The block of a register shows more than that, namely its reset
value, the modes of its bitfields and their options.  What it shows can be read off its definitions
again, so that the blocks of two such registers differ where the registers do.

## Main definitions

* `RegisterBlock.isOptionValue` — whether a definition gives the value of an option.
* `RegisterBlock.Bounded` — definitions that do not begin with the value of an option.

## Main results

* `RegisterBlock.options_of_definitions` — the options of a field are read off its definitions.
* `RegisterBlock.modes_of_definitions` — so is all that is shown of the bitfields.
* `RegisterBlock.equalButCaptions_iff_of_sameAs` — **when registers that are the same have the same
  block apart from captions.**
-/

namespace ChipSupport.RegisterBlock

/-! ### Definitions of blocks -/

/-- A caption is no part of what a line defines. -/
theorem EqualButCaptions.definitions_eq {ls : Layouts} {block block' : List Line}
    (h : EqualButCaptions ls block block') : definitions block = definitions block' := by
  induction h with
  | nil => rfl
  | @cons l l' block block' hl _ ih =>
    have hfirst : definitions [l] = definitions [l'] := by cases hl <;> rfl
    rw [← List.singleton_append, ← List.singleton_append (l := block'), definitions_append,
      definitions_append, hfirst, ih]

/-- A definition that gives the value of an option, by the start of the value and the end of the
name. -/
def isOptionValue (d : String × String) : Bool :=
  d.2.toList.head? == some '_' && d.1.toList.getLast? == some 'l'

/-- Definitions that do not begin with the value of an option. -/
def Bounded (ds : List (String × String)) : Prop := ∀ d ∈ ds.head?, isOptionValue d = false

/-- What the value of an option is defined as. -/
def valueDefinition (base : String) (o : String × String) : String × String :=
  ("  " ++ base ++ o.1 ++ "_Val", "_U_(" ++ o.2 ++ ")")

/-- What an option in its place is defined as. -/
def placedDefinition (base : String) (o : String × String) : String × String :=
  (base ++ o.1, optionText base o.1)

theorem isOptionValue_valueDefinition (base : String) (o : String × String) :
    isOptionValue (valueDefinition base o) = true := by
  have hlast : ("  " ++ base ++ o.1 ++ "_Val").toList.getLast? = some 'l' := by
    rw [String.toList_append, List.getLast?_append]
    rfl
  rw [isOptionValue, Bool.and_eq_true, beq_iff_eq, beq_iff_eq]
  exact ⟨by simp [valueDefinition], hlast⟩

/-- A value in brackets is not the value of an option. -/
theorem isOptionValue_eq_false {name value : String} (h : value.toList.head? = some '(') :
    isOptionValue (name, value) = false := by
  simp [isOptionValue, h]

theorem isOptionValue_placedDefinition (base : String) (o : String × String) :
    isOptionValue (placedDefinition base o) = false :=
  isOptionValue_eq_false (by simp [optionText])

theorem valueDefinition_injective (base : String) : Function.Injective (valueDefinition base) := by
  intro o o' h
  rw [valueDefinition, valueDefinition, Prod.mk.injEq, String.append_left_inj,
    String.append_right_inj, String.append_left_inj, String.append_right_inj] at h
  exact Prod.ext h.1 h.2

/-! ### Options read off definitions -/

/-- The values of options reach up to the options in their place, or to what follows. -/
theorem takeWhile_isOptionValue (base : String) (options : List (String × String))
    {rest : List (String × String)} (hrest : Bounded rest) :
    (options.map (valueDefinition base)
        ++ (options.map (placedDefinition base) ++ rest)).takeWhile isOptionValue
      = options.map (valueDefinition base) := by
  have hvalues : ∀ d ∈ options.map (valueDefinition base), isOptionValue d = true := by
    intro d hd
    obtain ⟨o, -, rfl⟩ := List.mem_map.mp hd
    exact isOptionValue_valueDefinition base o
  have hstop : (options.map (placedDefinition base) ++ rest).takeWhile isOptionValue = [] := by
    cases options with
    | nil =>
      cases rest with
      | nil => rfl
      | cons d ds => exact List.takeWhile_cons_of_neg (by rw [hrest d rfl]; decide)
    | cons o os =>
      exact List.takeWhile_cons_of_neg (by rw [isOptionValue_placedDefinition]; decide)
  rw [List.takeWhile_append_of_pos hvalues, hstop, List.append_nil]

/-- **The options of a field are read off its definitions, whatever follows them.** -/
theorem options_of_definitions {base : String}
    {options options' rest rest' : List (String × String)} (hrest : Bounded rest)
    (hrest' : Bounded rest')
    (h : options.map (valueDefinition base) ++ (options.map (placedDefinition base) ++ rest)
      = options'.map (valueDefinition base)
        ++ (options'.map (placedDefinition base) ++ rest')) :
    options = options' ∧ rest = rest' := by
  have hvalues := congrArg (List.takeWhile isOptionValue) h
  rw [takeWhile_isOptionValue base options hrest, takeWhile_isOptionValue base options' hrest']
    at hvalues
  have hoptions := List.map_injective_iff.mpr (valueDefinition_injective base) hvalues
  subst hoptions
  exact ⟨rfl, List.append_cancel_left (List.append_cancel_left h)⟩

/-! ### Bitfields read off definitions -/

section Bitfields

variable {style : Style} (register : String)

theorem bounded_nil : Bounded [] := by
  intro d hd
  cases hd

theorem bounded_cons {name value : String} (h : isOptionValue (name, value) = false)
    (ds : List (String × String)) : Bounded ((name, value) :: ds) := by
  intro d hd
  rw [List.head?_cons, Option.mem_some_iff] at hd
  rw [← hd, h]

/-- The definitions of a field begin with its position. -/
theorem bounded_fieldBlock (mode : String) (f : NamedField) (full : Bool)
    (rest : List (String × String)) :
    Bounded (definitions (fieldBlock register style mode f full) ++ rest) :=
  bounded_cons (isOptionValue_eq_false (by simp [positionText])) _

theorem definitions_bitfieldBlock (mode : String) (f : Bitfield) :
    definitions (bitfieldBlock register style mode f)
      = definitions (fieldBlock register style mode f.toNamed false)
        ++ ((f.options style).map (valueDefinition (optionBase register f.name mode style))
          ++ (f.options style).map (placedDefinition (optionBase register f.name mode style))) := by
  have hmap {g : NamedValue → Line} {d : NamedValue → String × String}
      (hg : ∀ v, definitions [g v] = [d v]) (vs : List NamedValue) :
      definitions (vs.map g) = vs.map d := by
    induction vs with
    | nil => rfl
    | cons v vs ih =>
      rw [List.map_cons, ← List.singleton_append, definitions_append, hg, ih]
      rfl
  generalize hbase : optionBase register f.name mode style = base
  rw [bitfieldBlock, hbase, definitions_append, definitions_append, Bitfield.options, List.map_map,
    List.map_map, hmap (d := valueDefinition base ∘ fun v => (optionName v style, v.value))
      (fun _ => rfl),
    hmap (d := placedDefinition base ∘ fun v => (optionName v style, v.value)) (fun _ => rfl)]

theorem bounded_bitfieldBlocks (mode : String) (fs : List Bitfield)
    {rest : List (String × String)} (hrest : Bounded rest) :
    Bounded (definitions (fs.flatMap (bitfieldBlock register style mode)) ++ rest) := by
  cases fs with
  | nil => exact hrest
  | cons f fs =>
    rw [List.flatMap_cons, definitions_append, definitions_bitfieldBlock, List.append_assoc,
      List.append_assoc]
    exact bounded_fieldBlock register mode f.toNamed false _

variable (h : style.layouts.Standard)
include h

/-- What is shown of the fields of a mode is read off their definitions. -/
theorem fields_of_definitions (mode : String) {fs gs : List Bitfield}
    (hbare : fs.map Bitfield.bare = gs.map Bitfield.bare) {rest rest' : List (String × String)}
    (hrest : Bounded rest) (hrest' : Bounded rest')
    (hdefinitions : definitions (fs.flatMap (bitfieldBlock register style mode)) ++ rest
      = definitions (gs.flatMap (bitfieldBlock register style mode)) ++ rest') :
    (fs.map fun f => (f.bare, f.options style)) = (gs.map fun f => (f.bare, f.options style)) ∧
      rest = rest' := by
  induction fs generalizing gs with
  | nil =>
    rw [List.map_nil, eq_comm, List.map_eq_nil_iff] at hbare
    subst hbare
    exact ⟨rfl, hdefinitions⟩
  | cons f fs ih =>
    cases gs with
    | nil => cases hbare
    | cons g gs =>
      rw [List.map_cons, List.map_cons, List.cons.injEq] at hbare
      have hname : f.bare.name = g.bare.name := by rw [hbare.1]
      change f.name = g.name at hname
      have hfield : definitions (fieldBlock register style mode f.toNamed false)
          = definitions (fieldBlock register style mode g.toNamed false) := by
        refine (fieldBlock_recaptioned h ?_ register mode false).definitions_eq
        rw [NamedField.uncaptioned_toNamed, NamedField.uncaptioned_toNamed, hbare.1]
      simp only [List.flatMap_cons, definitions_append, definitions_bitfieldBlock,
        List.append_assoc, hfield, hname] at hdefinitions
      -- the field is the same, its options end where the next field begins
      obtain ⟨hoptions, hnext⟩ := options_of_definitions
        (bounded_bitfieldBlocks register mode fs hrest)
        (bounded_bitfieldBlocks register mode gs hrest')
        (List.append_cancel_left hdefinitions)
      obtain ⟨hfields, hend⟩ := ih hbare.2 hnext
      exact ⟨by rw [List.map_cons, List.map_cons, hbare.1, hoptions, hfields], hend⟩

end Bitfields

/-! ### Modes read off definitions -/

section Modes

/-- The names of masks in the presets do not end like those of the values of options. -/
theorem isOptionValue_maskMacro {style : Style} (hstyle : style ∈ Style.presets) {ending : String}
    (h : ending ∈ style.maskMacros) (start value : String) :
    isOptionValue (start ++ ending, value) = false := by
  have hending : ending = "_MASK" ∨ ending = "_Msk" := by
    have hpresets : style = Style.legacy ∨ style = Style.atmel ∨ style = Style.microchip := by
      simpa [Style.presets] using hstyle
    rcases hpresets with rfl | rfl | rfl <;>
      simp_all [Style.legacy, Style.atmel, Style.microchip]
  have hlast : (start ++ ending).toList.getLast? ≠ some 'l' := by
    rw [String.toList_append, List.getLast?_append]
    rcases hending with rfl | rfl
    · change some 'K' ≠ some 'l'
      decide
    · change some 'k' ≠ some 'l'
      decide
  rw [isOptionValue, Bool.and_eq_false_iff, beq_eq_false_iff_ne, beq_eq_false_iff_ne]
  exact .inr hlast

/-- The definitions of the masks of a mode, if there are some. -/
def modeMasks (register : String) (style : Style) (r : Register) (several : Bool)
    (mode : String) : List (String × String) :=
  definitions (if several && style.modeAware then
    maskBlock style (register ++ "_" ++ mode) (register ++ " mask for mode " ++ mode)
      (r.maskByMode mode style.coalesceModes) else [])

theorem definitions_modeBlock (register : String) (style : Style) (r : Register) (several : Bool)
    (m : String × List Bitfield) :
    definitions (modeBlock register style r several m)
      = definitions (m.2.flatMap (bitfieldBlock register style m.1))
        ++ modeMasks register style r several m.1 := by
  have htitle : definitions (if several && style.modeAware then
      [Line.text ("/* " ++ m.1 ++ " mode */")] else []) = [] := by
    split <;> rfl
  have hspace : definitions (if style.modeAware then [Line.blank] else []) = [] := by
    split <;> rfl
  rw [modeBlock, definitions_append, definitions_append, definitions_append, htitle, hspace,
    List.nil_append, List.append_nil, modeMasks]

variable {style : Style} (hstyle : style ∈ Style.presets) (register : String)
include hstyle

theorem bounded_maskBlock (start note : String) (mask : Int)
    {rest : List (String × String)} (hrest : Bounded rest) :
    Bounded (definitions (maskBlock style start note mask) ++ rest) := by
  unfold maskBlock
  cases hmacros : style.maskMacros with
  | nil => exact hrest
  | cons ending endings =>
    have hending : ending ∈ style.maskMacros := hmacros ▸ List.mem_cons_self
    exact bounded_cons (isOptionValue_maskMacro hstyle hending start (maskText mask)) _

theorem bounded_modeMasks (r : Register) (several : Bool) (mode : String)
    {rest : List (String × String)} (hrest : Bounded rest) :
    Bounded (modeMasks register style r several mode ++ rest) := by
  unfold modeMasks
  split
  · exact bounded_maskBlock hstyle _ _ _ hrest
  · exact hrest

theorem bounded_modeBlocks (r : Register) (several : Bool) (modes : List (String × List Bitfield))
    {rest : List (String × String)} (hrest : Bounded rest) :
    Bounded (definitions (modes.flatMap (modeBlock register style r several)) ++ rest) := by
  induction modes with
  | nil => exact hrest
  | cons m modes ih =>
    rw [List.flatMap_cons, definitions_append, definitions_modeBlock, List.append_assoc,
      List.append_assoc]
    exact bounded_bitfieldBlocks register m.1 m.2
      (bounded_modeMasks hstyle register r several m.1 ih)

/-- What is shown of the modes of a register is read off their definitions. -/
theorem modes_of_definitions {a b : Register}
    (houtline : a.outline style.coalesceModes = b.outline style.coalesceModes) (several : Bool)
    {modes modes' : List (String × List Bitfield)} (hmodes : List.Forall₂ SameOutline modes modes')
    {rest rest' : List (String × String)} (hrest : Bounded rest) (hrest' : Bounded rest')
    (h : definitions (modes.flatMap (modeBlock register style a several)) ++ rest
      = definitions (modes'.flatMap (modeBlock register style b several)) ++ rest') :
    (modes.map fun m => (m.1, m.2.map fun f => (f.bare, f.options style)))
      = modes'.map fun m => (m.1, m.2.map fun f => (f.bare, f.options style)) := by
  induction hmodes with
  | nil => rfl
  | @cons m m' modes modes' hm _ ih =>
    have hmasks : modeMasks register style a several m'.1
        = modeMasks register style b several m'.1 := by
      rw [modeMasks, modeMasks, Register.maskByMode_congr houtline]
    simp only [List.flatMap_cons, definitions_append, definitions_modeBlock, List.append_assoc,
      hm.1, hmasks] at h
    -- the fields end where the masks of the mode begin, or the next mode
    obtain ⟨hfields, hnext⟩ := fields_of_definitions register
      (Style.standard_of_mem_presets hstyle) m'.1 hm.2
      (bounded_modeMasks hstyle register b several m'.1
        (bounded_modeBlocks hstyle register a several modes hrest))
      (bounded_modeMasks hstyle register b several m'.1
        (bounded_modeBlocks hstyle register b several modes' hrest')) h
    rw [List.map_cons, List.map_cons, hm.1, hfields, ih (List.append_cancel_left hnext)]

end Modes

/-! ### Whole blocks -/

section Blocks

variable {style : Style} (hstyle : style ∈ Style.presets)

theorem definitions_wholeBlock (register : String) (r : Register) :
    definitions (wholeBlock register style r)
      = (register ++ style.offsetMacro, offsetText r.offset)
        :: (register ++ "_RESETVALUE", maskText r.initval)
        :: definitions (maskBlock style register (register ++ " mask") r.mask) := by
  rw [wholeBlock, definitions_append, definitions_append]
  exact List.append_nil _

/-- The definitions for vector fields do not begin with the value of an option. -/
theorem bounded_vectorBlock (register : String) (vectors : List Field) :
    Bounded (definitions (vectorBlock register style vectors)) := by
  have hbody : definitions (vectorBlock register style vectors)
      = definitions ((Field.namedOnly vectors).flatMap fun f =>
        fieldBlock register style "" f true) := by
    unfold vectorBlock
    cases style.modeAware with
    | true => cases Field.namedOnly vectors <;> simp
    | false => cases vectors.isEmpty <;> simp
  rw [hbody]
  cases Field.namedOnly vectors with
  | nil => exact bounded_nil
  | cons f fs =>
    rw [List.flatMap_cons, definitions_append]
    exact bounded_fieldBlock register "" f true _

/-- The definitions of a block: those of the register, of its modes and of its vector fields. -/
theorem exists_lines_definitions (h : style.layouts.Standard) (r : Register)
    (groupMode start : String) :
    let name := style.convention.qualifiedRegisterName r groupMode start
    let modes := r.modeTable style.coalesceModes
    ∃ block, lines r groupMode start style = .ok block ∧ definitions block
      = definitions (wholeBlock name style r)
        ++ (definitions (modes.flatMap (modeBlock name style r (decide (1 < modes.length))))
          ++ definitions (vectorBlock name style (vectorsOf modes style))) := by
  intro name modes
  obtain ⟨title, union, hlines, hnames⟩ := exists_lines_eq h r groupMode start
  refine ⟨_, hlines, ?_⟩
  rw [definitions_text, definitions_append, definitions_append, definitions_append,
    definitions_eq_nil hnames, List.nil_append, List.append_assoc]

/-- The reset value of a register is the second one that its block defines. -/
theorem initval_of_equalButCaptions (h : style.layouts.Standard) {a b : Register}
    {groupMode start : String} {block block' : List Line}
    (hblock : lines a groupMode start style = .ok block)
    (hblock' : lines b groupMode start style = .ok block')
    (hequal : EqualButCaptions style.layouts block block') : a.initval = b.initval := by
  obtain ⟨ablock, hablock, ha⟩ := exists_lines_definitions h a groupMode start
  obtain ⟨bblock, hbblock, hb⟩ := exists_lines_definitions h b groupMode start
  cases hblock.symm.trans hablock
  cases hblock'.symm.trans hbblock
  rw [hequal.definitions_eq, hb, definitions_wholeBlock, definitions_wholeBlock] at ha
  simp only [List.cons_append, List.cons.injEq, Prod.mk.injEq] at ha
  exact (maskText_inj ha.2.1.2).symm

include hstyle

/-- What is shown of the bitfields is read off a block, if the modes and fields are known. -/
theorem shown_of_equalButCaptions {a b : Register} (hab : a.Alike b)
    (houtline : a.outline style.coalesceModes = b.outline style.coalesceModes)
    {groupMode start : String} {block block' : List Line}
    (hblock : lines a groupMode start style = .ok block)
    (hblock' : lines b groupMode start style = .ok block')
    (hequal : EqualButCaptions style.layouts block block') : a.shown style = b.shown style := by
  have h := Style.standard_of_mem_presets hstyle
  have hinit := initval_of_equalButCaptions h hblock hblock' hequal
  obtain ⟨ablock, hablock, ha⟩ := exists_lines_definitions h a groupMode start
  obtain ⟨bblock, hbblock, hb⟩ := exists_lines_definitions h b groupMode start
  cases hblock.symm.trans hablock
  cases hblock'.symm.trans hbblock
  have hmodes := forall₂_sameOutline houtline
  -- the definitions of the register itself are the same, and those of its modes follow them
  rw [hequal.definitions_eq, hb, hab.qualifiedRegisterName_eq, wholeBlock_congr hab hinit,
    hmodes.length_eq] at ha
  exact (modes_of_definitions hstyle _ houtline.symm _ (forall₂_sameOutline houtline.symm)
    (bounded_vectorBlock _ _) (bounded_vectorBlock _ _) (List.append_cancel_left ha)).symm

end Blocks

/-! ### Registers that are the same -/

/-- **The presets write a block for each of two registers of one owner that are the same.  If the
blocks are the same apart from captions, then so are the reset values.  If the registers have the
same modes with the same fields, which they do if their bitfields are in the same modes, then the
blocks are the same apart from captions exactly if the reset values and the shown options are.** -/
theorem equalButCaptions_iff_of_sameAs {style : Style} (hstyle : style ∈ Style.presets)
    {a b : Register} (howner : a.owner = b.owner) (hsame : a.sameAs b = true)
    (groupMode start : String) :
    ∃ block block', lines a groupMode start style = .ok block ∧
      lines b groupMode start style = .ok block' ∧
      (EqualButCaptions style.layouts block block' → a.initval = b.initval) ∧
      (a.bitfields.map Bitfield.modes = b.bitfields.map Bitfield.modes →
        a.outline style.coalesceModes = b.outline style.coalesceModes) ∧
      (a.outline style.coalesceModes = b.outline style.coalesceModes →
        (EqualButCaptions style.layouts block block'
          ↔ a.initval = b.initval ∧ a.shown style = b.shown style)) := by
  have h := Style.standard_of_mem_presets hstyle
  have hab := Register.alike_of_sameAs howner hsame
  obtain ⟨block, hblock, -⟩ := exists_lines_definitions h a groupMode start
  obtain ⟨block', hblock', -⟩ := exists_lines_definitions h b groupMode start
  refine ⟨block, block', hblock, hblock', initval_of_equalButCaptions h hblock hblock',
    fun hmodes => Register.outline_congr hsame hmodes _, fun houtline => ⟨fun hequal => ?_, ?_⟩⟩
  · exact ⟨initval_of_equalButCaptions h hblock hblock' hequal,
      shown_of_equalButCaptions hstyle hab houtline hblock hblock' hequal⟩
  · rintro ⟨hinit, hshown⟩
    obtain ⟨ablock, bblock, hablock, hbblock, hequal⟩ :=
      equalButCaptions_of_shown h hab hinit hshown groupMode start
    cases hblock.symm.trans hablock
    cases hblock'.symm.trans hbblock
    exact hequal

/-- A field with one option. -/
def modeField (value : String) : Bitfield :=
  { name := "MODE", mask := 3, values := [{ name := "A", value }] }

/-- The control register of a timer with that field. -/
def timerControl (initval : Int) (value : String) : Register :=
  { name := "CTRLA", owner := "TC", initval, bitfields := [modeField value] }

theorem sameAs_timerControl (initval initval' : Int) (value value' : String) :
    (timerControl initval value).sameAs (timerControl initval' value') = true := rfl

theorem shown_timerControl (initval : Int) (value : String) :
    (timerControl initval value).shown Style.microchip
      = [(Mode.default_, [((modeField value).bare, [("A", value)])])] := by
  have hsorted : Bitfield.sorted [modeField value] = [modeField value] := List.mergeSort_singleton _
  have htable : (timerControl initval value).modeTable Style.microchip.coalesceModes
      = [(Mode.default_, [modeField value])] := by
    change [(Mode.default_, Bitfield.sorted [modeField value])] = _
    rw [hsorted]
  have hname : String.ofList ("A".toList.dropWhile (· == '_')) = "A" := by decide +kernel
  rw [Register.shown, htable]
  change [(Mode.default_, [((modeField value).bare, [(String.ofList _, value)])])] = _
  rw [hname]

/-- The timers' registers are the same; the theorem applies to all pairs of them. -/
theorem equalButCaptions_iff_timerControl :
    Style.microchip ∈ Style.presets ∧
    (timerControl 0 "0x0").owner = (timerControl 1 "0x1").owner ∧
    (timerControl 0 "0x0").sameAs (timerControl 1 "0x1") = true ∧
    ∃ block block', lines (timerControl 0 "0x0") "" "" Style.microchip = .ok block ∧
      lines (timerControl 1 "0x1") "" "" Style.microchip = .ok block' ∧
      (EqualButCaptions Style.microchip.layouts block block' →
        (timerControl 0 "0x0").initval = (timerControl 1 "0x1").initval) ∧
      ((timerControl 0 "0x0").bitfields.map Bitfield.modes
          = (timerControl 1 "0x1").bitfields.map Bitfield.modes →
        (timerControl 0 "0x0").outline Style.microchip.coalesceModes
          = (timerControl 1 "0x1").outline Style.microchip.coalesceModes) ∧
      ((timerControl 0 "0x0").outline Style.microchip.coalesceModes
          = (timerControl 1 "0x1").outline Style.microchip.coalesceModes →
        (EqualButCaptions Style.microchip.layouts block block'
          ↔ (timerControl 0 "0x0").initval = (timerControl 1 "0x1").initval ∧
            (timerControl 0 "0x0").shown Style.microchip
              = (timerControl 1 "0x1").shown Style.microchip)) := by
  have hstyle : Style.microchip ∈ Style.presets := by simp [Style.presets]
  have howner : (timerControl 0 "0x0").owner = (timerControl 1 "0x1").owner := rfl
  have hsame := sameAs_timerControl 0 1 "0x0" "0x1"
  exact ⟨hstyle, howner, hsame, equalButCaptions_iff_of_sameAs hstyle howner hsame "" ""⟩

/-- Registers that are the same differ in their blocks, if they differ in their reset value or in
the value of an option. -/
theorem timerControl_not_equalButCaptions :
    (timerControl 0 "0x0").sameAs (timerControl 1 "0x0") = true ∧
    (timerControl 0 "0x0").sameAs (timerControl 0 "0x1") = true ∧
    ∃ block reset option, lines (timerControl 0 "0x0") "" "" Style.microchip = .ok block ∧
      lines (timerControl 1 "0x0") "" "" Style.microchip = .ok reset ∧
      lines (timerControl 0 "0x1") "" "" Style.microchip = .ok option ∧
      ¬ EqualButCaptions Style.microchip.layouts block reset ∧
      ¬ EqualButCaptions Style.microchip.layouts block option := by
  have hstyle : Style.microchip ∈ Style.presets := by simp [Style.presets]
  have h := Style.standard_of_mem_presets hstyle
  obtain ⟨block, hblock, -⟩ := exists_lines_definitions h (timerControl 0 "0x0") "" ""
  obtain ⟨reset, hreset, -⟩ := exists_lines_definitions h (timerControl 1 "0x0") "" ""
  obtain ⟨option, hoption, -⟩ := exists_lines_definitions h (timerControl 0 "0x1") "" ""
  have hsame := sameAs_timerControl 0 0 "0x0" "0x1"
  refine ⟨sameAs_timerControl 0 1 "0x0" "0x0", hsame, block, reset, option, hblock, hreset,
    hoption, fun hequal => ?_, fun hequal => ?_⟩
  · have hinit := initval_of_equalButCaptions h hblock hreset hequal
    exact absurd hinit (by decide)
  · have hab : (timerControl 0 "0x0").Alike (timerControl 0 "0x1") :=
      Register.alike_of_sameAs rfl hsame
    have houtline := Register.outline_congr hsame rfl Style.microchip.coalesceModes
    have hshown := shown_of_equalButCaptions hstyle hab houtline hblock hoption hequal
    rw [shown_timerControl, shown_timerControl] at hshown
    exact absurd hshown (by decide)

end ChipSupport.RegisterBlock
