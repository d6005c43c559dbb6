import ChipSupport.Proofs.Register.VectorNames
import ChipSupport.Proofs.RegisterBlock.ClosedForm
import ChipSupport.Proofs.RegisterBlock.SelfContained

/-!
# Macros for the places of fields

Where a field lies is told by its position, its mask and its value macro, and the same macros are
defined for a vector field.  In a register of one mode no two vector fields have the same name.  A
vector field may still have the name of a bitfield, and then the block defines the macros of that
name twice.

## Main definitions

* `RegisterBlock.placeNames`, `RegisterBlock.ownNames` — the macros for the place of a field, and
  the one under its own name.
* `RegisterBlock.placeMacros`, `RegisterBlock.otherMacros` — what the block of a register defines
  for places, and what else.

## Main results

* `RegisterBlock.names_of_lines_eq_ok` — the names that a block defines do not depend on the
  layouts.
* `RegisterBlock.nodup_flatMap_placeNames_iff` — when the macros for several places are apart.
* `RegisterBlock.placeMacros_once_iff` — **when the macros for places are defined once.**
-/

namespace ChipSupport

namespace RegisterBlock

open ChipSupport.Field Bitfield

variable {style : Style}

/-! ### The names of a block with any layouts -/

theorem names_of_fieldLines {f : NamedField} {mode register : String} {full : Bool}
    {block : List Line} (h : fieldLines f mode register style full = .ok block) :
    names block = fieldNames (fieldBase register f.name mode style) (fieldForm f style full) := by
  simp only [fieldLines, Steps.bind_eq_ok_iff] at h
  obtain ⟨position, -, note, -, mask, -, h⟩ := h
  cases hform : fieldForm f style full with
  | plain | mask =>
    rw [hform] at h
    cases h
    rfl
  | value =>
    rw [hform] at h
    obtain ⟨setter, -, h⟩ := Steps.bind_eq_ok_iff.mp h
    cases h
    rfl

/-- Lines that are made one by one. -/
theorem names_of_mapM {α : Type} {f : α → Except Fault Line} {name : α → String} {xs : List α}
    {block : List Line} (h : xs.mapM f = .ok block)
    (hname : ∀ x l, f x = .ok l → names [l] = [name x]) : names block = xs.map name := by
  rw [Steps.mapM_eq_ok_iff] at h
  induction h with
  | nil => rfl
  | cons hx _ ih =>
    rw [← List.singleton_append, names_append, hname _ _ hx, ih, List.map_cons,
      List.singleton_append]

/-- Parts of a block that are made one by one. -/
theorem names_flatten_of_mapM {α : Type} {f : α → Except Fault (List Line)}
    {defined : α → List String} {xs : List α} {blocks : List (List Line)}
    (h : xs.mapM f = .ok blocks) (hnames : ∀ x block, f x = .ok block → names block = defined x) :
    names blocks.flatten = xs.flatMap defined := by
  rw [Steps.mapM_eq_ok_iff] at h
  induction h with
  | nil => rfl
  | cons hx _ ih => rw [List.flatten_cons, names_append, hnames _ _ hx, ih, List.flatMap_cons]

theorem names_of_optionLines {f : Bitfield} {mode register : String} {block : List Line}
    (h : optionLines f mode register style = .ok block) :
    names block = optionNames (optionBase register f.name mode style) style f.values := by
  simp only [optionLines, Steps.bind_eq_ok_iff] at h
  obtain ⟨values, hvalues, placed, hplaced, h⟩ := h
  cases h
  rw [names_append, optionNames]
  congr 1
  · refine names_of_mapM hvalues fun v l hl => ?_
    obtain ⟨value, -, hl⟩ := Steps.bind_eq_ok_iff.mp hl
    cases hl
    rfl
  · refine names_of_mapM hplaced fun v l hl => ?_
    obtain ⟨value, -, hl⟩ := Steps.bind_eq_ok_iff.mp hl
    cases hl
    rfl

theorem names_of_masks {start note : String} {mask : Int} {endings : List String}
    {block : List Line} (h : (endings.mapM fun ending => do
        let value ← style.layouts.mask mask
        return Line.define (start ++ ending) value note) = .ok block) :
    names block = endings.map (start ++ ·) := by
  refine names_of_mapM h fun ending l hl => ?_
  obtain ⟨value, -, hl⟩ := Steps.bind_eq_ok_iff.mp hl
  cases hl
  rfl

theorem names_of_structLines {fields : List Field} {r : Register} {name : String}
    {block : List Line} (h : structLines fields r name style = .ok block) : names block = [] := by
  obtain ⟨texts, -, h⟩ := Steps.bind_eq_ok_iff.mp h
  cases h
  exact names_texts texts

theorem names_of_unionLines {r : Register} {groupMode : String}
    {modes : List (String × List Bitfield)} {vectors : List Field} {block : List Line}
    (h : unionLines r groupMode modes vectors style = .ok block) : names block = [] := by
  unfold unionLines at h
  obtain ⟨first, -, h⟩ := Steps.bind_eq_ok_iff.mp h
  obtain ⟨structs, hstructs, h⟩ := Steps.bind_eq_ok_iff.mp h
  have hstructNames : names structs.flatten = [] := by
    rw [names_flatten_of_mapM hstructs fun _ _ => names_of_structLines]
    simp
  cases hempty : vectors.isEmpty with
  | true =>
    simp only [hempty, if_true, Steps.bind_eq_ok_iff] at h
    obtain ⟨vector, hvector, whole, -, last, -, h⟩ := h
    cases hvector
    cases h
    simp [hstructNames]
  | false =>
    simp only [hempty, Bool.false_eq_true, if_false, Steps.bind_eq_ok_iff] at h
    obtain ⟨vector, hvector, whole, -, last, -, h⟩ := h
    cases h
    simp [hstructNames, names_of_structLines hvector]

theorem names_of_registerLines {r : Register} {name : String} {block : List Line}
    (h : registerLines r name style = .ok block) :
    names block = [name ++ style.offsetMacro, name ++ "_RESETVALUE"]
      ++ style.maskMacros.map (name ++ ·) := by
  simp only [registerLines, Steps.bind_eq_ok_iff] at h
  obtain ⟨offset, -, reset, -, masks, hmasks, h⟩ := h
  cases h
  simp [names_of_masks hmasks]

theorem names_of_modeLines {r : Register} {name : String} {several : Bool}
    {m : String × List Bitfield} {block : List Line}
    (h : modeLines r name several m.1 m.2 style = .ok block) :
    names block = modeNames name style several m := by
  unfold modeLines at h
  obtain ⟨body, hbody, h⟩ := Steps.bind_eq_ok_iff.mp h
  have hbodyNames : names body.flatten
      = m.2.flatMap fun f => bitfieldNames name style (m.1, f) := by
    refine names_flatten_of_mapM hbody fun f block hf => ?_
    obtain ⟨definitions, hdefinitions, hf⟩ := Steps.bind_eq_ok_iff.mp hf
    obtain ⟨options, hoptions, hf⟩ := Steps.bind_eq_ok_iff.mp hf
    cases hf
    rw [names_append, names_of_fieldLines hdefinitions, names_of_optionLines hoptions]
    rfl
  have hspace : names (if style.modeAware then [Line.blank] else []) = [] := by
    split <;> rfl
  cases hseveral : several && style.modeAware with
  | true =>
    simp only [hseveral, if_true, Steps.bind_eq_ok_iff] at h
    obtain ⟨masks, hmasks, h⟩ := h
    cases h
    simp [modeNames, hseveral, hbodyNames, names_of_masks hmasks, hspace]
  | false =>
    simp only [hseveral, Bool.false_eq_true, if_false, Steps.bind_eq_ok_iff] at h
    obtain ⟨masks, hmasks, h⟩ := h
    cases hmasks
    cases h
    simp [modeNames, hseveral, hbodyNames, hspace]

theorem names_of_vectorLines {vectors : List Field} {name : String} {block : List Line}
    (h : vectorLines vectors name style = .ok block) :
    names block = vectorNames name style vectors := by
  unfold vectorLines at h
  obtain ⟨body, hbody, h⟩ := Steps.bind_eq_ok_iff.mp h
  have hbodyNames : names body.flatten = vectorNames name style vectors :=
    names_flatten_of_mapM hbody fun f _ hf => names_of_fieldLines hf
  cases haware : style.modeAware with
  | true =>
    simp only [haware, if_true] at h
    cases h
    cases hfields : namedOnly vectors with
    | nil => simp [vectorNames, hfields]
    | cons f rest => simp [hbodyNames]
  | false =>
    simp only [haware, Bool.false_eq_true, if_false] at h
    cases h
    have hspace : names (if vectors.isEmpty then [] else [Line.blank]) = [] := by
      split <;> rfl
    rw [names_append, names_append, hspace, hbodyNames]
    simp

/-- The parts of a block that was written. -/
theorem exists_parts_of_lines_eq_ok {r : Register} {groupMode start : String} {block : List Line}
    (h : lines r groupMode start style = .ok block) :
    let name := style.convention.qualifiedRegisterName r groupMode start
    let modes := r.modeTable style.coalesceModes
    ∃ title union whole body vector, names union = [] ∧
      registerLines r name style = .ok whole ∧
      (modes.mapM fun m => modeLines r name (decide (1 < modes.length)) m.1 m.2 style) = .ok body ∧
      vectorLines (vectorsOf modes style) name style = .ok vector ∧
      block = Line.text title :: (union ++ whole ++ body.flatten ++ vector) := by
  intro name modes
  cases hunions : style.registerUnions with
  | true =>
    simp only [lines, hunions, if_true, Steps.bind_eq_ok_iff] at h
    obtain ⟨_, -, title, -, union, hunion, whole, hwhole, body, hbody, vector, hvector, h⟩ := h
    cases h
    exact ⟨title, union, whole, body, vector, names_of_unionLines hunion, hwhole, hbody, hvector,
      rfl⟩
  | false =>
    simp only [lines, hunions, Bool.false_eq_true, if_false, Steps.bind_eq_ok_iff] at h
    obtain ⟨_, -, title, -, union, hunion, whole, hwhole, body, hbody, vector, hvector, h⟩ := h
    cases hunion
    cases h
    exact ⟨title, [], whole, body, vector, rfl, hwhole, hbody, hvector, rfl⟩

/-- **Whatever the layouts are, a block defines the names of `blockNames`.** -/
theorem names_of_lines_eq_ok {r : Register} {groupMode start : String} {block : List Line}
    (h : lines r groupMode start style = .ok block) :
    names block = blockNames r groupMode start style := by
  obtain ⟨title, union, whole, body, vector, hunion, hwhole, hbody, hvector, rfl⟩ :=
    exists_parts_of_lines_eq_ok h
  rw [names_text, names_append, names_append, names_append, hunion,
    names_of_registerLines hwhole, names_of_vectorLines hvector,
    names_flatten_of_mapM hbody fun _ _ hm => names_of_modeLines hm]
  rfl

/-! ### Macros for places -/

/-- The endings of the macros for the place of a field. -/
def placeEndings : SingleBit → List String
  | .plain => ["_Pos"]
  | .mask => ["_Pos", "_Msk"]
  | .value => ["_Pos", "_Msk", "(value)"]

/-- The macros for the place of a field. -/
def placeNames (base : String) (form : SingleBit) : List String :=
  (placeEndings form).map (base ++ ·)

/-- The macro under the name of a field itself, which only single bits have. -/
def ownNames (base : String) : SingleBit → List String
  | .plain | .mask => [base]
  | .value => []

theorem fieldNames_eq (base : String) (form : SingleBit) :
    fieldNames base form = placeNames base form ++ ownNames base form := by
  cases form <;> rfl

theorem mem_placeEndings {form : SingleBit} {e : String} (h : e ∈ placeEndings form) :
    e = "_Pos" ∨ e = "_Msk" ∨ e = "(value)" := by
  cases form <;> simp only [placeEndings, List.mem_cons, List.not_mem_nil, or_false] at h <;> tauto

/-- What comes before an ending is known from the whole. -/
theorem append_ending_inj {base base' e e' : String} {form form' : SingleBit}
    (he : e ∈ placeEndings form) (he' : e' ∈ placeEndings form') (h : base ++ e = base' ++ e') :
    base = base' := by
  -- the three endings have different last characters
  have hlast := congrArg (fun s : String => s.toList.getLast?) h
  rcases mem_placeEndings he with rfl | rfl | rfl <;>
  rcases mem_placeEndings he' with rfl | rfl | rfl <;>
  first
  | exact String.append_left_inj _ |>.mp h
  | simp at hlast

/-- The macros for two places are apart exactly if the fields have different names. -/
theorem disjoint_placeNames_iff {base base' : String} {form form' : SingleBit} :
    List.Disjoint (placeNames base form) (placeNames base' form') ↔ base ≠ base' := by
  constructor
  · rintro h rfl
    have hposition : ∀ form, base ++ "_Pos" ∈ placeNames base form := by
      intro form
      cases form <;> exact List.mem_cons_self
    exact h (hposition form) (hposition form')
  · intro hne x hx hx'
    obtain ⟨e, he, rfl⟩ := List.mem_map.mp hx
    obtain ⟨e', he', heq⟩ := List.mem_map.mp hx'
    exact hne (append_ending_inj he he' heq.symm)

theorem nodup_placeNames (base : String) (form : SingleBit) : (placeNames base form).Nodup := by
  have hendings : (placeEndings form).Nodup := by
    cases form <;> decide
  exact hendings.map fun e e' h => (String.append_right_inj base).mp h

/-- **The macros for several places are defined once exactly if the fields have different
names.** -/
theorem nodup_flatMap_placeNames_iff (fields : List (String × SingleBit)) :
    (fields.flatMap fun f => placeNames f.1 f.2).Nodup ↔ (fields.map Prod.fst).Nodup := by
  rw [List.nodup_flatMap, List.Nodup, List.pairwise_map]
  constructor
  · rintro ⟨-, h⟩
    exact h.imp fun hdisjoint => disjoint_placeNames_iff.mp hdisjoint
  · intro h
    exact ⟨fun f _ => nodup_placeNames f.1 f.2, h.imp fun hne => disjoint_placeNames_iff.mpr hne⟩

/-! ### The macros of a block -/

variable (register : String) (style : Style)

/-- The macros for the places of the bitfields in a mode. -/
def modePlaces (m : String × List Bitfield) : List String :=
  m.2.flatMap fun f =>
    placeNames (fieldBase register f.name m.1 style) (fieldForm f.toNamed style false)

/-- The other macros for a mode: single bits, options and masks. -/
def modeOthers (several : Bool) (m : String × List Bitfield) : List String :=
  (m.2.flatMap fun f =>
      ownNames (fieldBase register f.name m.1 style) (fieldForm f.toNamed style false)
        ++ optionNames (optionBase register f.name m.1 style) style f.values)
    ++ if several && style.modeAware then
      style.maskMacros.map fun ending => register ++ "_" ++ m.1 ++ ending
    else []

/-- The macros for places that the block of a register defines.  All macros for vector fields are
such macros. -/
def placeMacros (r : Register) (groupMode start : String) (style : Style) : List String :=
  let name := style.convention.qualifiedRegisterName r groupMode start
  let modes := r.modeTable style.coalesceModes
  modes.flatMap (modePlaces name style) ++ vectorNames name style (vectorsOf modes style)

/-- The other macros that the block of a register defines. -/
def otherMacros (r : Register) (groupMode start : String) (style : Style) : List String :=
  let name := style.convention.qualifiedRegisterName r groupMode start
  let modes := r.modeTable style.coalesceModes
  [name ++ style.offsetMacro, name ++ "_RESETVALUE"] ++ style.maskMacros.map (name ++ ·)
    ++ modes.flatMap (modeOthers name style (decide (1 < modes.length)))

theorem perm_modeNames (several : Bool) (m : String × List Bitfield) :
    (modeNames register style several m).Perm
      (modePlaces register style m ++ modeOthers register style several m) := by
  unfold modeNames modePlaces modeOthers
  rw [← List.append_assoc]
  refine List.Perm.append_right _ ?_
  refine List.Perm.trans ?_ (List.flatMap_append_perm _ _ _).symm
  refine List.Perm.of_eq (List.flatMap_congr fun f _ => ?_)
  rw [bitfieldNames, fieldNames_eq, List.append_assoc]

/-- **A block defines the macros for places, and the other ones.** -/
theorem perm_blockNames (r : Register) (groupMode start : String) :
    (blockNames r groupMode start style).Perm
      (placeMacros r groupMode start style ++ otherMacros r groupMode start style) := by
  simp only [blockNames, placeMacros, otherMacros]
  generalize style.convention.qualifiedRegisterName r groupMode start = name
  generalize r.modeTable style.coalesceModes = modes
  have hmodes : (modes.flatMap (modeNames name style (decide (1 < modes.length)))).Perm
      (modes.flatMap (modePlaces name style)
        ++ modes.flatMap (modeOthers name style (decide (1 < modes.length)))) :=
    (List.Perm.flatMap_left modes fun m _ => perm_modeNames name style _ m).trans
      (List.flatMap_append_perm _ _ _).symm
  rw [List.perm_iff_count] at hmodes ⊢
  intro x
  have hx := hmodes x
  simp only [List.count_append] at hx ⊢
  omega

/-! ### Registers of one mode -/

variable {register style}

theorem fieldBase_of_isDefault {mode : String} (hmode : Mode.isDefault mode = true)
    (field : String) : fieldBase register field mode style = register ++ "_" ++ field := by
  rw [fieldBase, hmode, Bool.true_or, if_pos rfl]

variable (register style) in
theorem fieldBase_injective {mode : String} (hmode : Mode.isDefault mode = true) :
    Function.Injective fun field => fieldBase register field mode style := by
  intro a b h
  simpa only [fieldBase_of_isDefault hmode, String.append_right_inj] using h

/-- The macros for places are defined once exactly if the bitfields have different names in macros
and no vector field has the name of one of them there. -/
theorem nodup_placeMacros_iff {r : Register} {mode : String}
    (hmode : ∀ f ∈ r.bitfields, ∀ m, m ∈ f.modes ↔ m = mode) (groupMode start : String)
    (style : Style) :
    let name := style.convention.qualifiedRegisterName r groupMode start
    (placeMacros r groupMode start style).Nodup ↔
      (r.bitfields.map fun f => fieldBase name f.name mode style).Nodup ∧
      ∀ f ∈ r.bitfields, f.isNumberedBit = true → ∀ g ∈ r.bitfields,
        fieldBase name (baseName f.name) "" style ≠ fieldBase name g.name mode style := by
  intro name
  obtain ⟨m, hm, htable⟩ := Register.exists_modeTable_eq_singleton hmode
  let bitfields := Bitfield.sorted r.bitfields
  let vectors := namedOnly (vectorFields bitfields style.vectorDuplicates)
  -- the names of the bitfields and the vector fields in macros, with the forms of their macros
  let fields : List (String × SingleBit) :=
    (bitfields.map fun f => (fieldBase name f.name mode style, fieldForm f.toNamed style false))
      ++ vectors.map fun v => (fieldBase name v.name "" style, .value)
  have hplaces : placeMacros r groupMode start style
      = fields.flatMap fun f => placeNames f.1 f.2 := by
    have hfields : modePlaces name style (m, bitfields)
        = modePlaces name style (mode, bitfields) := by
      by_cases hnone : r.bitfields = []
      · rw [modePlaces, modePlaces, show bitfields = [] by simp [bitfields, Bitfield.sorted, hnone]]
        rfl
      · rw [hm hnone]
    rw [placeMacros, htable, List.flatMap_singleton, List.flatMap_append, List.flatMap_map,
      List.flatMap_map, hfields]
    rfl
  have hnames : fields.map Prod.fst
      = (bitfields.map fun f => fieldBase name f.name mode style)
        ++ (vectors.map NamedField.name).map fun field => fieldBase name field "" style := by
    rw [List.map_append, List.map_map, List.map_map, List.map_map]
    rfl
  have hvectors : ((vectors.map NamedField.name).map
      fun field => fieldBase name field "" style).Nodup :=
    (nodup_names_vectorFields _ _).map (fieldBase_injective name style rfl)
  have hsorted : (bitfields.map fun f => fieldBase name f.name mode style).Nodup
      ↔ (r.bitfields.map fun f => fieldBase name f.name mode style).Nodup :=
    ((List.mergeSort_perm _ _).map _).nodup_iff
  have happart : (∀ a ∈ bitfields.map fun f => fieldBase name f.name mode style,
      ∀ b ∈ (vectors.map NamedField.name).map fun field => fieldBase name field "" style, a ≠ b)
      ↔ ∀ v ∈ vectors, ∀ g ∈ bitfields,
        fieldBase name v.name "" style ≠ fieldBase name g.name mode style := by
    simp only [List.forall_mem_map]
    exact ⟨fun h v hv g hg heq => h g hg v hv heq.symm, fun h g hg v hv heq => h v hv g hg heq.symm⟩
  have hbits := forall_names_vectorFields bitfields style.vectorDuplicates
    (P := fun field => ∀ g ∈ bitfields,
      fieldBase name field "" style ≠ fieldBase name g.name mode style)
  rw [hplaces, nodup_flatMap_placeNames_iff, hnames, List.nodup_append, hsorted, happart]
  refine and_congr_right fun _ => ?_
  rw [and_iff_right hvectors, hbits]
  simp only [bitfields, mem_sorted]

/-- In the default mode a name in macros is as good as the name itself. -/
theorem nodup_placeMacros_iff_unshared {r : Register} {mode : String}
    (hmode : ∀ f ∈ r.bitfields, ∀ m, m ∈ f.modes ↔ m = mode)
    (hnames : (r.bitfields.map Bitfield.name).Nodup) (hdefault : Mode.isDefault mode = true)
    (groupMode start : String) (style : Style) :
    (placeMacros r groupMode start style).Nodup ↔ Unshared r.bitfields := by
  have hbases : (r.bitfields.map fun f => fieldBase
      (style.convention.qualifiedRegisterName r groupMode start) f.name mode style).Nodup := by
    have hmap := hnames.map (fieldBase_injective
      (style.convention.qualifiedRegisterName r groupMode start) style hdefault)
    rwa [List.map_map] at hmap
  refine (nodup_placeMacros_iff hmode groupMode start style).trans ?_
  rw [and_iff_right hbases]
  have hempty : Mode.isDefault "" = true := rfl
  simp only [fieldBase_of_isDefault hdefault, fieldBase_of_isDefault hempty, Unshared, ne_eq,
    String.append_right_inj]

/-- **In a register of one mode the macros for places are defined once exactly if no vector field
has the name of a bitfield.**  For both policies, a vector field has the name of a bitfield exactly
if that is the name of a numbered bit without the number.  The block of the register, which standard
layouts always give, defines the macros for places and the other ones.  The macros for places are
defined once if no two bitfields, and no bitfield and vector field, have the same name in macros; in
the default mode this means that no vector field has the name of a bitfield. -/
theorem placeMacros_once_iff {r : Register} {mode : String}
    (hmode : ∀ f ∈ r.bitfields, ∀ m, m ∈ f.modes ↔ m = mode)
    (hnames : (r.bitfields.map Bitfield.name).Nodup) (groupMode start : String) (style : Style) :
    let name := style.convention.qualifiedRegisterName r groupMode start
    (∀ policy, (∀ v ∈ namedOnly (vectorFields r.bitfields policy), ∀ g ∈ r.bitfields,
      v.name ≠ g.name) ↔ Unshared r.bitfields) ∧
    (style.layouts.Standard → ∃ block, lines r groupMode start style = .ok block) ∧
    (∀ block, lines r groupMode start style = .ok block → (names block).Perm
      (placeMacros r groupMode start style ++ otherMacros r groupMode start style)) ∧
    ((placeMacros r groupMode start style).Nodup ↔
      (r.bitfields.map fun f => fieldBase name f.name mode style).Nodup ∧
      ∀ f ∈ r.bitfields, f.isNumberedBit = true → ∀ g ∈ r.bitfields,
        fieldBase name (baseName f.name) "" style ≠ fieldBase name g.name mode style) ∧
    (Mode.isDefault mode = true →
      ((placeMacros r groupMode start style).Nodup ↔ Unshared r.bitfields)) := by
  intro name
  refine ⟨forall_name_ne_iff r.bitfields, ?_, ?_, nodup_placeMacros_iff hmode groupMode start style,
    ?_⟩
  · intro hstandard
    obtain ⟨block, hblock, -⟩ := lines_covers hstandard r groupMode start
    exact ⟨block, hblock⟩
  · intro block hblock
    rw [names_of_lines_eq_ok hblock]
    exact perm_blockNames style r groupMode start
  · intro hdefault
    exact nodup_placeMacros_iff_unshared hmode hnames hdefault groupMode start style

/-- Numbered bits without a field of their name beside them. -/
def receiveBits : List Bitfield :=
  [{ name := "RX0", mask := 0x1 }, { name := "RX1", mask := 0x2 }, { name := "MODE", mask := 0x30 }]

/-- A register with those bits. -/
def receiveControl : Register := { name := "CTRLB", owner := "USART", bitfields := receiveBits }

/-- The macros for the places of `RX0`, `RX1`, `MODE` and `RX` are defined once. -/
theorem placeMacros_once_receive :
    (∀ f ∈ receiveControl.bitfields, ∀ m, m ∈ f.modes ↔ m = Mode.default_) ∧
    (receiveControl.bitfields.map Bitfield.name).Nodup ∧
    (∀ policy, ∀ v ∈ namedOnly (vectorFields receiveControl.bitfields policy),
      ∀ g ∈ receiveControl.bitfields, v.name ≠ g.name) ∧
    (placeMacros receiveControl Mode.default_ "" Style.legacy).Nodup ∧
    ∃ block, lines receiveControl Mode.default_ "" Style.legacy = .ok block ∧
      (names block).Perm (placeMacros receiveControl Mode.default_ "" Style.legacy
        ++ otherMacros receiveControl Mode.default_ "" Style.legacy) := by
  have hmode : ∀ f ∈ receiveControl.bitfields, ∀ m, m ∈ f.modes ↔ m = Mode.default_ := by
    simp [receiveControl, receiveBits]
  have hnames : (receiveControl.bitfields.map Bitfield.name).Nodup := by decide
  have hunshared : Unshared receiveControl.bitfields := by decide +kernel
  obtain ⟨hpolicies, hstandard, hperm, -, honce⟩ :=
    placeMacros_once_iff hmode hnames Mode.default_ "" Style.legacy
  obtain ⟨block, hblock⟩ := hstandard (Style.standard_of_mem_presets List.mem_cons_self)
  exact ⟨hmode, hnames, fun policy => (hpolicies policy).mpr hunshared,
    (honce rfl).mpr hunshared, block, hblock, hperm block hblock⟩

/-- Two numbered bits and a wider field with their name. -/
def transmitBits : List Bitfield :=
  [{ name := "TX0", mask := 0x1 }, { name := "TX1", mask := 0x2 }, { name := "TX", mask := 0x30 }]

/-- A register with those bits. -/
def transmitControl : Register := { name := "CTRLB", owner := "USART", bitfields := transmitBits }

theorem modeTable_transmitControl :
    transmitControl.modeTable Style.legacy.coalesceModes = [(Mode.default_, transmitBits)] := by cbv

theorem qualifiedRegisterName_transmitControl :
    Style.legacy.convention.qualifiedRegisterName transmitControl Mode.default_ ""
      = "USART_CTRLB" := by cbv

theorem vectorsOf_transmitControl :
    vectorsOf [(Mode.default_, transmitBits)] Style.legacy = [.named ⟨"TX", 0x3, ""⟩] := by
  have hsorted : Bitfield.sorted transmitBits = transmitBits :=
    List.mergeSort_of_pairwise (by decide +kernel)
  rw [vectorsOf, vectorFields, vectors, hsorted]
  decide +kernel

/-- The bits share no bit and have different names, but both policies give them a vector field `TX`,
and the block of the register defines the position of `TX` twice, as that of the field and as that
of the vector field. -/
theorem transmitControl_defined_twice :
    (∀ f ∈ transmitBits, 0 < f.mask) ∧
    transmitBits.Pairwise (fun f g => Bits.conj f.mask g.mask = 0) ∧
    (transmitBits.map Bitfield.name).Nodup ∧
    (∀ f ∈ transmitBits, f.modes = [Mode.default_]) ∧
    (∀ policy, ∃ v ∈ namedOnly (vectorFields transmitBits policy), ∃ g ∈ transmitBits,
      v.name = g.name) ∧
    (∃ block, lines transmitControl Mode.default_ "" Style.legacy = .ok block ∧
      ("USART_CTRLB_TX_Pos", "(4)") ∈ definitions block ∧
      ("USART_CTRLB_TX_Pos", "(0)") ∈ definitions block) ∧
    ¬ (placeMacros transmitControl Mode.default_ "" Style.legacy).Nodup := by
  have hshared : ¬ Unshared transmitBits := by decide +kernel
  refine ⟨by decide, by decide, by decide, by decide, ?_, ?_, ?_⟩
  · intro policy
    rw [← forall_name_ne_iff transmitBits policy] at hshared
    push Not at hshared
    exact hshared
  · obtain ⟨title, union, hblock, -⟩ := exists_lines_eq
      (Style.standard_of_mem_presets List.mem_cons_self) transmitControl Mode.default_ ""
    rw [modeTable_transmitControl, qualifiedRegisterName_transmitControl,
      vectorsOf_transmitControl] at hblock
    have hfield : ("USART_CTRLB_TX_Pos", "(4)") ∈ definitions (modeBlock "USART_CTRLB" Style.legacy
        transmitControl false (Mode.default_, transmitBits)) := by decide +kernel
    have hvector : ("USART_CTRLB_TX_Pos", "(0)") ∈ definitions
        (vectorBlock "USART_CTRLB" Style.legacy [.named ⟨"TX", 0x3, ""⟩]) := by decide +kernel
    refine ⟨_, hblock, ?_, ?_⟩
    · rw [definitions_text, definitions_append, definitions_append, List.flatMap_singleton]
      exact List.mem_append_left _ (List.mem_append_right _ hfield)
    · rw [definitions_text, definitions_append]
      exact List.mem_append_right _ hvector
  · have hmode : ∀ f ∈ transmitControl.bitfields, ∀ m, m ∈ f.modes ↔ m = Mode.default_ := by
      simp [transmitControl, transmitBits]
    rwa [nodup_placeMacros_iff_unshared hmode (by decide) rfl]

end RegisterBlock

end ChipSupport
