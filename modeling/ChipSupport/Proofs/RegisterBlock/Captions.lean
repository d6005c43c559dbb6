import ChipSupport.Proofs.Register.ModeTable
import ChipSupport.Proofs.RegisterBlock.ClosedForm

/-!
# Blocks that are equal apart from captions

Captions stand in the heading of a register, in the remarks on the bits of its union, in the notes
on its fields and in the notes on their options.  Registers whose bitfields are shown in the same
modes with the same options have blocks that differ nowhere else.

## Main definitions

* `Line.Recaptioned` — lines that differ in a caption at most.
* `RegisterBlock.EqualButCaptions` — blocks that differ in captions at most.
* `Register.Alike` — registers that are described in the same way apart from their bitfields.
* `Register.shown` — what a block shows of the bitfields of a register.

## Main results

* `RegisterBlock.equalButCaptions_of_shown` — **registers of which the same is shown have the same
  block apart from captions.**
-/

namespace ChipSupport

/-! ### Lines -/

/-- Lines that differ in a caption at most, by the layouts that spell them. -/
inductive Line.Recaptioned (ls : Layouts) : Line → Line → Prop where
  /-- A line without a caption. -/
  | refl (l : Line) : Recaptioned ls l l
  /-- A text that ends in a heading or remark. -/
  | text {l : Layout} {values : List (String × String)} {c c' s s' : String} (front : String)
      (h : ls.spell l (values ++ [("caption", c)]) = .ok s)
      (h' : ls.spell l (values ++ [("caption", c')]) = .ok s') :
      Recaptioned ls (.text (front ++ s)) (.text (front ++ s'))
  /-- A definition with a note on a field. -/
  | field {register field c c' s s' : String} (name value : String)
      (h : ls.fieldCaption register field c = .ok s)
      (h' : ls.fieldCaption register field c' = .ok s') :
      Recaptioned ls (.define name value s) (.define name value s')
  /-- The value of an option, with the option's own caption as a note. -/
  | option (base name value c c' : String) :
      Recaptioned ls (.define ("  " ++ base ++ name ++ "_Val") value c)
        (.define ("  " ++ base ++ name ++ "_Val") value c')

/-- Blocks that have the same lines in the same order, apart from captions. -/
def RegisterBlock.EqualButCaptions (ls : Layouts) (block block' : List Line) : Prop :=
  List.Forall₂ (Line.Recaptioned ls) block block'

namespace RegisterBlock.EqualButCaptions

variable {ls : Layouts}

theorem refl (block : List Line) : EqualButCaptions ls block block :=
  List.forall₂_same.mpr fun l _ => .refl l

theorem append {front front' back back' : List Line} (h : EqualButCaptions ls front front')
    (h' : EqualButCaptions ls back back') :
    EqualButCaptions ls (front ++ back) (front' ++ back') := List.rel_append h h'

theorem flatMap {α β : Type} {R : α → β → Prop} {f : α → List Line} {g : β → List Line}
    {xs : List α} {ys : List β} (hxs : List.Forall₂ R xs ys)
    (h : ∀ x y, R x y → EqualButCaptions ls (f x) (g y)) :
    EqualButCaptions ls (xs.flatMap f) (ys.flatMap g) := List.rel_flatMap hxs fun _ _ => h _ _

end RegisterBlock.EqualButCaptions

/-! ### Structs of bits -/

namespace Layouts

variable {ls : Layouts} (h : ls.Standard)
include h

/-- The line of a field ends in a remark with the caption, and shows the caption nowhere else. -/
theorem exists_bitfield_named (name : String) (mask : Int) (type : String) :
    ∃ l values front, ∀ caption, ∃ s, ls.spell l (values ++ [("caption", caption)]) = .ok s ∧
      ls.bitfield (.named ⟨name, mask, caption⟩) type = .ok (front ++ s) := by
  have hdeclaration : ∃ s, ls.spell .bitfield [("type", type), ("name", name),
      ("width", Numeral.natural (Bits.population mask))] = .ok s :=
    exists_spell h (by decide) (by decide) ["type", "name", "width"] rfl (by cbv)
  obtain ⟨declaration, hdeclaration⟩ := hdeclaration
  -- several bits have another remark than a single bit
  by_cases hwidth : 1 < Bits.population mask
  · refine ⟨.bitRange, [("lsb", Numeral.rightAligned (Bits.lowest mask) 2),
      ("msb", Numeral.rightAligned (Bits.highest mask) 2)], Text.padTo declaration 36,
      fun caption => ?_⟩
    have hremark : ∃ s, ls.spell .bitRange ([("lsb", Numeral.rightAligned (Bits.lowest mask) 2),
        ("msb", Numeral.rightAligned (Bits.highest mask) 2)] ++ [("caption", caption)]) = .ok s :=
      exists_spell h (by decide) (by decide) ["lsb", "msb", "caption"] rfl (by cbv)
    obtain ⟨s, hs⟩ := hremark
    refine ⟨s, hs, ?_⟩
    rw [List.cons_append, List.singleton_append] at hs
    simp only [bitfield, NamedField.width, NamedField.lsb, NamedField.msb, hdeclaration, hs]
    exact if_pos hwidth
  · refine ⟨.bitSingle, [("lsb", Numeral.rightAligned (Bits.lowest mask) 2)],
      Text.padTo declaration 36, fun caption => ?_⟩
    have hremark : ∃ s, ls.spell .bitSingle ([("lsb", Numeral.rightAligned (Bits.lowest mask) 2)]
        ++ [("caption", caption)]) = .ok s :=
      exists_spell h (by decide) (by decide) ["lsb", "caption"] rfl (by cbv)
    obtain ⟨s, hs⟩ := hremark
    refine ⟨s, hs, ?_⟩
    rw [List.singleton_append] at hs
    simp only [bitfield, NamedField.width, NamedField.lsb, hdeclaration, hs]
    exact if_neg hwidth

/-- Members of a struct of bits that differ in captions have lines that differ in captions. -/
theorem exists_bitfield_recaptioned {f g : Field} (hfg : f.uncaptioned = g.uncaptioned)
    (type : String) :
    ∃ s s', ls.bitfield f type = .ok s ∧ ls.bitfield g type = .ok s' ∧
      Line.Recaptioned ls (.text s) (.text s') := by
  match f, g, hfg with
  | .gap lsb width, .gap _ _, rfl =>
    obtain ⟨s, hs⟩ := exists_bitfield h (.gap lsb width) type
    exact ⟨s, s, hs, hs, .refl _⟩
  | .named ⟨name, mask, c⟩, .named ⟨name', mask', c'⟩, hfg =>
    obtain ⟨l, values, front, hline⟩ := exists_bitfield_named h name mask type
    obtain ⟨s, hs, hf⟩ := hline c
    obtain ⟨s', hs', hg⟩ := hline c'
    obtain ⟨rfl, rfl⟩ := NamedField.uncaptioned_eq_iff.mp (Field.named.inj hfg)
    exact ⟨front ++ s, front ++ s', hf, hg, .text front hs hs'⟩

end Layouts

namespace Register

/-! ### Registers that are described alike -/

/-- Registers of the same name and owner, at the same place, of the same size and access, with the
same bits. -/
structure Alike (a b : Register) : Prop where
  name : a.name = b.name
  owner : a.owner = b.owner
  offset : a.offset = b.offset
  size : a.size = b.size
  rw : a.rw = b.rw
  isAlias : a.isAlias = b.isAlias
  mask : a.mask = b.mask

/-- Registers of one owner that are the same are alike. -/
theorem alike_of_sameAs {a b : Register} (howner : a.owner = b.owner) (h : a.sameAs b = true) :
    a.Alike b := by
  have hmask := mask_of_sameAs h
  rw [sameAs_iff] at h
  simp only [shape, Prod.mk.injEq] at h
  obtain ⟨hname, hoffset, hsize, -, hrw, halias, -⟩ := h
  exact ⟨hname, howner, hoffset, hsize, hrw, halias, hmask⟩

namespace Alike

variable {a b : Register} (h : a.Alike b)
include h

theorem bitWidth_eq : a.bitWidth = b.bitWidth := by rw [bitWidth, bitWidth, h.size]

theorem integerType_eq : a.integerType = b.integerType := by
  rw [integerType, integerType, h.size]

theorem registerType_eq (c : Convention) (mode : String) :
    c.registerType a mode = c.registerType b mode := by
  unfold Convention.registerType
  rw [h.name, h.owner, h.isAlias, h.integerType_eq]

theorem registerMacroName_eq (c : Convention) : c.registerMacroName a = c.registerMacroName b := by
  cases c <;> simp only [Convention.registerMacroName, Convention.registerVariable,
    Convention.snakeVariable, h.name, h.owner, h.isAlias]

theorem qualifiedRegisterName_eq (c : Convention) (mode start : String) :
    c.qualifiedRegisterName a mode start = c.qualifiedRegisterName b mode start := by
  cases c <;> simp only [Convention.qualifiedRegisterName, h.registerMacroName_eq, h.owner]

end Alike

end Register

namespace RegisterBlock

open Register

/-! ### The union -/

/-- Modes of the same name with fields of the same names and bits. -/
def SameOutline (m m' : String × List Bitfield) : Prop :=
  m.1 = m'.1 ∧ m.2.map Bitfield.bare = m'.2.map Bitfield.bare

/-- The members of a mode's struct are the same apart from captions. -/
theorem SameOutline.members_eq {m m' : String × List Bitfield} (hm : SameOutline m m') :
    (m.2.map fun f => Field.named f.toNamed).map Field.uncaptioned
      = (m'.2.map fun f => Field.named f.toNamed).map Field.uncaptioned := by
  have hbare (fs : List Bitfield) : (fs.map fun f => Field.named f.toNamed).map Field.uncaptioned
      = (fs.map Bitfield.bare).map fun f => Field.named f.toNamed := by
    rw [List.map_map, List.map_map]
    rfl
  rw [hbare, hbare, hm.2]

/-- Modes without fields are left out of the union in both or in none. -/
theorem SameOutline.isEmpty_eq {m m' : String × List Bitfield} (hm : SameOutline m m') :
    m.2.isEmpty = m'.2.isEmpty := by
  rw [← List.isEmpty_map, hm.2, List.isEmpty_map]

section Union

variable {style : Style} (h : style.layouts.Standard) {a b : Register} (hab : a.Alike b)
include h hab

theorem exists_structLines_recaptioned {fields fields' : List Field}
    (hfields : fields.map Field.uncaptioned = fields'.map Field.uncaptioned) (name : String) :
    ∃ block block', structLines fields a name style = .ok block ∧
      structLines fields' b name style = .ok block' ∧
      EqualButCaptions style.layouts block block' := by
  have hmembers : List.Forall₂ (fun f g : Field => f.uncaptioned = g.uncaptioned)
      (Field.layout fields a.bitWidth) (Field.layout fields' b.bitWidth) := by
    rw [Steps.forall₂_eq_iff, ← Field.layout_uncaptioned, ← Field.layout_uncaptioned, hfields,
      hab.bitWidth_eq]
  have hmember (f g : Field) (hfg : f.uncaptioned = g.uncaptioned) :=
    Layouts.exists_bitfield_recaptioned h hfg b.integerType
  obtain ⟨body, body', hbody, hbody', hlines⟩ := Steps.exists_mapM_rel hmember hmembers
  have hfirst : ∃ s, style.layouts.spell .bitsOpen [("name", name)] = .ok s :=
    Layouts.exists_spell h (by decide) (by decide) ["name"] rfl (by cbv)
  have hlast : ∃ s, style.layouts.spell .bitsClose [("name", name)] = .ok s :=
    Layouts.exists_spell h (by decide) (by decide) ["name"] rfl (by cbv)
  obtain ⟨first, hfirst⟩ := hfirst
  obtain ⟨last, hlast⟩ := hlast
  refine ⟨(first :: (body ++ [last])).map .text, (first :: (body' ++ [last])).map .text,
    ?_, ?_, ?_⟩
  · rw [structLines, Layouts.bitfieldStruct, hfirst, hab.integerType_eq, hbody, hlast]
    rfl
  · rw [structLines, Layouts.bitfieldStruct, hfirst, hbody', hlast]
    rfl
  · rw [List.map_cons, List.map_cons, List.map_append, List.map_append]
    have htexts : EqualButCaptions style.layouts (body.map .text) (body'.map .text) :=
      List.forall₂_map_left_iff.mpr (List.forall₂_map_right_iff.mpr hlines)
    exact List.Forall₂.cons (.refl _) (htexts.append (.refl _))

theorem exists_modeStructs_recaptioned {modes modes' : List (String × List Bitfield)}
    (hmodes : List.Forall₂ SameOutline modes modes') :
    ∃ structs structs',
      ((modes.filter fun m => !(m.2.isEmpty && style.coalesceModes)).mapM fun m =>
        structLines (m.2.map fun f => .named f.toNamed) a (structName m.1) style) = .ok structs ∧
      ((modes'.filter fun m => !(m.2.isEmpty && style.coalesceModes)).mapM fun m =>
        structLines (m.2.map fun f => .named f.toNamed) b (structName m.1) style) = .ok structs' ∧
      EqualButCaptions style.layouts structs.flatten structs'.flatten := by
  have hshown : List.Forall₂ SameOutline
      (modes.filter fun m => !(m.2.isEmpty && style.coalesceModes))
      (modes'.filter fun m => !(m.2.isEmpty && style.coalesceModes)) :=
    List.rel_filter (fun m m' hm => by simp only [hm.isEmpty_eq]) hmodes
  have hstruct (m m' : String × List Bitfield) (hm : SameOutline m m') :
      ∃ block block',
        structLines (m.2.map fun f => .named f.toNamed) a (structName m.1) style = .ok block ∧
        structLines (m'.2.map fun f => .named f.toNamed) b (structName m'.1) style = .ok block' ∧
        EqualButCaptions style.layouts block block' := by
    rw [hm.1]
    exact exists_structLines_recaptioned h hab hm.members_eq (structName m'.1)
  obtain ⟨structs, structs', hstructs, hstructs', hblocks⟩ :=
    Steps.exists_mapM_rel hstruct hshown
  exact ⟨structs, structs', hstructs, hstructs', List.rel_flatten hblocks⟩

/-- The unions of registers with the same modes are the same apart from captions. -/
theorem exists_unionLines_recaptioned (groupMode : String)
    {modes modes' : List (String × List Bitfield)} (hmodes : List.Forall₂ SameOutline modes modes')
    {vectors vectors' : List Field}
    (hvectors : vectors.map Field.uncaptioned = vectors'.map Field.uncaptioned) :
    ∃ block block', unionLines a groupMode modes vectors style = .ok block ∧
      unionLines b groupMode modes' vectors' style = .ok block' ∧
      EqualButCaptions style.layouts block block' := by
  obtain ⟨first, hfirst⟩ := Layouts.exists_unionOpen h
  obtain ⟨whole, hwhole⟩ := Layouts.exists_regMember h b.integerType
  obtain ⟨last, hlast⟩ := Layouts.exists_typedefClose h (style.convention.registerType b groupMode)
  obtain ⟨structs, structs', hstructs, hstructs', hmodeStructs⟩ :=
    exists_modeStructs_recaptioned h hab hmodes
  obtain ⟨vector, vector', hvector, hvector', hvectorLines⟩ :=
    exists_structLines_recaptioned h hab hvectors "vec"
  have hempty : vectors.isEmpty = vectors'.isEmpty := by
    rw [← List.isEmpty_map, hvectors, List.isEmpty_map]
  have hvectorStruct : EqualButCaptions style.layouts (if vectors.isEmpty then [] else vector)
      (if vectors'.isEmpty then [] else vector') := by
    rw [hempty]
    split
    · exact .refl []
    · exact hvectorLines
  refine ⟨_, _, unionLines_eq hfirst hstructs hvector ?_ ?_,
    unionLines_eq hfirst hstructs' hvector' hwhole hlast,
    ((EqualButCaptions.append (.refl _) hmodeStructs).append hvectorStruct).append (.refl _)⟩
  · rw [hab.integerType_eq, hwhole]
  · rw [hab.registerType_eq, hlast]

end Union

end RegisterBlock

/-! ### What a block shows of bitfields -/

/-- The options of a bitfield by the names that they are written with, and their values. -/
def Bitfield.options (style : Style) (f : Bitfield) : List (String × String) :=
  f.values.map fun v => (RegisterBlock.optionName v style, v.value)

/-- What a block shows of the bitfields of a register, mode by mode: names, bits and options. -/
def Register.shown (style : Style) (r : Register) :
    List (String × List (Bitfield × List (String × String))) :=
  (r.modeTable style.coalesceModes).map fun m => (m.1, m.2.map fun f => (f.bare, f.options style))

/-- What is shown includes the modes with the names and bits of their fields. -/
theorem Register.outline_of_shown {style : Style} {a b : Register}
    (h : a.shown style = b.shown style) :
    a.outline style.coalesceModes = b.outline style.coalesceModes := by
  have houtline (r : Register) : r.outline style.coalesceModes
      = (r.shown style).map fun m => (m.1, m.2.map Prod.fst) := by
    rw [outline, shown, List.map_map]
    refine List.map_congr_left fun m _ => ?_
    rw [Function.comp_apply, List.map_map]
    rfl
  rw [houtline, houtline, h]

namespace RegisterBlock

theorem forall₂_sameOutline {style : Style} {a b : Register}
    (houtline : a.outline style.coalesceModes = b.outline style.coalesceModes) :
    List.Forall₂ SameOutline (a.modeTable style.coalesceModes)
      (b.modeTable style.coalesceModes) := by
  refine (Steps.forall₂_eq_iff.mpr houtline).imp fun m m' hm => ?_
  rw [Prod.mk.injEq] at hm
  exact hm

/-- The vector fields of registers with the same modes are the same apart from captions. -/
theorem vectorsOf_uncaptioned (style : Style) {modes modes' : List (String × List Bitfield)}
    (h : List.Forall₂ SameOutline modes modes') :
    (vectorsOf modes style).map Field.uncaptioned
      = (vectorsOf modes' style).map Field.uncaptioned := by
  match modes, modes', h with
  | [], [], _ => rfl
  | [m], [m'], .cons hm _ =>
    rw [vectorsOf, vectorsOf, ← Bitfield.vectorFields_bare, ← Bitfield.vectorFields_bare, hm.2]
  | _ :: _ :: _, _ :: _ :: _, _ => rfl

/-! ### The definitions -/

theorem wholeBlock_congr {style : Style} {a b : Register} (hab : a.Alike b)
    (hinit : a.initval = b.initval) (register : String) :
    wholeBlock register style a = wholeBlock register style b := by
  rw [wholeBlock, wholeBlock, hab.offset, hinit, hab.mask]

section Definitions

variable {style : Style} (h : style.layouts.Standard) {a b : Register} (hab : a.Alike b)
include h

theorem fieldBlock_recaptioned {f g : NamedField} (hfg : f.uncaptioned = g.uncaptioned)
    (register mode : String) (full : Bool) :
    EqualButCaptions style.layouts (fieldBlock register style mode f full)
      (fieldBlock register style mode g full) := by
  obtain ⟨name, mask, c⟩ := f
  obtain ⟨name', mask', c'⟩ := g
  obtain ⟨rfl, rfl⟩ := NamedField.uncaptioned_eq_iff.mp hfg
  exact List.Forall₂.cons (.field _ _ (Layouts.fieldCaption_eq h register name c)
    (Layouts.fieldCaption_eq h register name c')) (EqualButCaptions.refl _)

theorem bitfieldBlock_recaptioned {f g : Bitfield} (hbare : f.bare = g.bare)
    (hoptions : f.options style = g.options style) (register mode : String) :
    EqualButCaptions style.layouts (bitfieldBlock register style mode f)
      (bitfieldBlock register style mode g) := by
  have hname : f.bare.name = g.bare.name := by rw [hbare]
  have hnamed : f.toNamed.uncaptioned = g.toNamed.uncaptioned := by
    rw [NamedField.uncaptioned_toNamed, NamedField.uncaptioned_toNamed, hbare]
  have hvalues := Steps.forall₂_eq_iff.mpr hoptions
  refine (fieldBlock_recaptioned h hnamed register mode false).append ?_
  rw [show f.name = g.name from hname]
  generalize optionBase register g.name mode style = base
  refine EqualButCaptions.append ?_ ?_
  · refine List.forall₂_map_left_iff.mpr (List.forall₂_map_right_iff.mpr (hvalues.imp ?_))
    intro v w hvw
    rw [Prod.mk.injEq] at hvw
    rw [valueLine, valueLine, hvw.1, hvw.2]
    exact .option _ _ _ _ _
  · refine List.forall₂_map_left_iff.mpr (List.forall₂_map_right_iff.mpr (hvalues.imp ?_))
    intro v w hvw
    rw [Prod.mk.injEq] at hvw
    rw [placedLine, placedLine, hvw.1]
    exact .refl _

/-- The definitions for a mode of which the same is shown are the same apart from captions. -/
theorem modeBlock_recaptioned {m m' : String × List Bitfield}
    (houtline : a.outline style.coalesceModes = b.outline style.coalesceModes)
    (hm : (m.1, m.2.map fun f => (f.bare, f.options style))
      = (m'.1, m'.2.map fun f => (f.bare, f.options style)))
    (register : String) (several : Bool) :
    EqualButCaptions style.layouts (modeBlock register style a several m)
      (modeBlock register style b several m') := by
  rw [Prod.mk.injEq] at hm
  have hfields : EqualButCaptions style.layouts (m.2.flatMap (bitfieldBlock register style m.1))
      (m'.2.flatMap (bitfieldBlock register style m.1)) := by
    refine EqualButCaptions.flatMap (Steps.forall₂_eq_iff.mpr hm.2) fun f g hfg => ?_
    rw [Prod.mk.injEq] at hfg
    exact bitfieldBlock_recaptioned h hfg.1 hfg.2 register m.1
  rw [modeBlock, modeBlock, ← hm.1, ← Register.maskByMode_congr houtline]
  exact (((EqualButCaptions.refl _).append hfields).append (.refl _)).append (.refl _)

theorem vectorBlock_recaptioned {vectors vectors' : List Field}
    (hvectors : vectors.map Field.uncaptioned = vectors'.map Field.uncaptioned)
    (register : String) :
    EqualButCaptions style.layouts (vectorBlock register style vectors)
      (vectorBlock register style vectors') := by
  have hnamed : (Field.namedOnly vectors).map NamedField.uncaptioned
      = (Field.namedOnly vectors').map NamedField.uncaptioned := by
    rw [← Field.namedOnly_uncaptioned, hvectors, Field.namedOnly_uncaptioned]
  have hbody := EqualButCaptions.flatMap (Steps.forall₂_eq_iff.mpr hnamed) fun f g hfg =>
    fieldBlock_recaptioned h hfg register "" true
  have hempty : vectors.isEmpty = vectors'.isEmpty := by
    rw [← List.isEmpty_map, hvectors, List.isEmpty_map]
  have hnone : (Field.namedOnly vectors).isEmpty = (Field.namedOnly vectors').isEmpty := by
    rw [← List.isEmpty_map, hnamed, List.isEmpty_map]
  unfold vectorBlock
  rw [hempty, hnone]
  cases style.modeAware with
  | true =>
    cases (Field.namedOnly vectors').isEmpty with
    | true => exact .refl _
    | false => exact hbody.append (.refl _)
  | false => exact ((EqualButCaptions.refl _).append hbody).append (.refl _)

include hab

theorem exists_registerCaption_recaptioned (name : String) :
    ∃ title title', style.layouts.registerCaption a name = .ok title ∧
      style.layouts.registerCaption b name = .ok title' ∧
      Line.Recaptioned style.layouts (.text title) (.text title') := by
  obtain ⟨title, htitle⟩ := Layouts.exists_registerCaption h a name
  obtain ⟨title', htitle'⟩ := Layouts.exists_registerCaption h b name
  refine ⟨title, title', htitle, htitle', ?_⟩
  have hvalues (r : Register) : style.layouts.registerCaption r name
      = style.layouts.spell .registerCaption ([("name", name), ("owner", r.owner),
          ("offset", Numeral.hex r.offset 2), ("rw", r.rw), ("bits", Numeral.decimal r.bitWidth)]
        ++ [("caption", r.caption)]) := rfl
  rw [hvalues, hab.owner, hab.offset, hab.rw, hab.bitWidth_eq] at htitle
  rw [hvalues] at htitle'
  rw [← String.empty_append (s := title), ← String.empty_append (s := title')]
  exact .text "" htitle htitle'

/-- **Registers that are alike, have the same reset value, and of whose bitfields the same is shown,
have the same block apart from captions.** -/
theorem equalButCaptions_of_shown (hinit : a.initval = b.initval)
    (hshown : a.shown style = b.shown style) (groupMode start : String) :
    ∃ block block', lines a groupMode start style = .ok block ∧
      lines b groupMode start style = .ok block' ∧
      EqualButCaptions style.layouts block block' := by
  have houtline := Register.outline_of_shown hshown
  have hmodes := forall₂_sameOutline houtline
  have hvectors := vectorsOf_uncaptioned style hmodes
  have hname := hab.qualifiedRegisterName_eq style.convention groupMode start
  obtain ⟨title, title', htitle, htitle', htitles⟩ := exists_registerCaption_recaptioned h hab
    (style.convention.qualifiedRegisterName b groupMode start)
  rw [← hname] at htitle
  have hunion : ∃ union union',
      (if style.registerUnions then unionLines a groupMode (a.modeTable style.coalesceModes)
        (vectorsOf (a.modeTable style.coalesceModes) style) style else pure []) = .ok union ∧
      (if style.registerUnions then unionLines b groupMode (b.modeTable style.coalesceModes)
        (vectorsOf (b.modeTable style.coalesceModes) style) style else pure []) = .ok union' ∧
      EqualButCaptions style.layouts union union' := by
    cases style.registerUnions with
    | true => exact exists_unionLines_recaptioned h hab groupMode hmodes hvectors
    | false => exact ⟨[], [], rfl, rfl, .refl []⟩
  obtain ⟨union, union', hunion, hunion', hunions⟩ := hunion
  refine ⟨_, _, lines_eq h a groupMode start htitle hunion,
    lines_eq h b groupMode start htitle' hunion', ?_⟩
  rw [hname, hmodes.length_eq]
  have hmodeBlocks := EqualButCaptions.flatMap (Steps.forall₂_eq_iff.mpr hshown) fun m m' hm =>
    modeBlock_recaptioned h houtline hm
      (style.convention.qualifiedRegisterName b groupMode start)
      (decide (1 < (b.modeTable style.coalesceModes).length))
  have hvectorBlocks := vectorBlock_recaptioned h hvectors
    (style.convention.qualifiedRegisterName b groupMode start)
  rw [wholeBlock_congr hab hinit]
  exact List.Forall₂.cons htitles
    (((hunions.append (.refl _)).append hmodeBlocks).append hvectorBlocks)

end Definitions

end RegisterBlock

end ChipSupport
