import ChipSupport.Style
import ChipSupport.Proofs.Steps

/-!
# Spellings of the presets

The presets replace layouts of group structs only.  What they write about a register is spelled by
the standard layouts, which can always be filled.

## Main definitions

* `Template.Piece.known` — the pieces that can be filled.
* `Layouts.Standard` — spellings that leave the layouts of registers as they are.

## Main results

* `Template.exists_fill` — a template with known pieces can be filled.
* `Style.standard_of_mem_presets` — the presets leave the layouts of registers as they are.
* `Layouts.setter_eq`, `Layouts.option_eq`, … — the values that they spell.
* `Numeral.hex_inj` — an integer is known from its hexadecimal digits.
-/

namespace ChipSupport

namespace Template

/-- Whether a piece can be filled by values for some names. -/
def Piece.known (names : List String) : Piece → Bool
  | .literal _ => true
  | .hole name => names.contains name
  | .malformed _ _ => false

/-- A template with known pieces can be filled. -/
theorem exists_fill {template : String} {values : List (String × String)}
    (h : (pieces template).all (Piece.known (values.map Prod.fst)) = true) :
    ∃ s, fill template values = .ok s := by
  have hpieces : ∃ s, fillPieces values (pieces template) = .ok s := by
    -- induction on the pieces, of which nothing else is known
    generalize pieces template = ps at h
    induction ps with
    | nil => exact ⟨[], rfl⟩
    | cons p ps ih =>
      rw [List.all_cons, Bool.and_eq_true] at h
      obtain ⟨s, hs⟩ := ih h.2
      cases p with
      | literal c => exact ⟨c :: s, by rw [fillPieces, hs]; rfl⟩
      | hole name =>
        have hsome : (values.lookup name).isSome = true := by
          rw [List.lookup_isSome_iff]
          simpa [Piece.known] using h.1
        obtain ⟨v, hv⟩ := Option.isSome_iff_exists.mp hsome
        exact ⟨v.toList ++ s, by rw [fillPieces, hv, hs]; rfl⟩
      | malformed line column => cases h.1
  obtain ⟨s, hs⟩ := hpieces
  exact ⟨String.ofList s, by rw [fill, hs]; rfl⟩

end Template

namespace Layouts

/-- Spellings by texts that leave the layouts of registers as they are. -/
structure Standard (ls : Layouts) : Prop where
  /-- The names of the replaced layouts are texts. -/
  names : ls.checkNames = .ok ()
  /-- Only layouts of group structs are replaced. -/
  template : ∀ l, l ≠ .reserved → l ≠ .modeMember → ls.template l = l.standard

end Layouts

/-- The presets leave the layouts of registers as they are. -/
theorem Style.standard_of_mem_presets {style : Style} (h : style ∈ Style.presets) :
    style.layouts.Standard := by
  have hpresets : style = Style.legacy ∨ style = Style.atmel ∨ style = Style.microchip := by
    simpa [Style.presets] using h
  rcases hpresets with rfl | rfl | rfl
  all_goals
    refine ⟨rfl, fun l hreserved hmode => ?_⟩
    cases l <;> first | rfl | contradiction

namespace Layouts

open Template

variable {ls : Layouts} (h : ls.Standard)
include h

theorem spell_eq_fill {l : Layout} (hreserved : l ≠ .reserved) (hmode : l ≠ .modeMember)
    (values : List (String × String)) : ls.spell l values = fill l.standard values := by
  rw [spell, h.template l hreserved hmode]

/-- A layout of registers is filled by what is known about its names. -/
theorem exists_spell {l : Layout} (hreserved : l ≠ .reserved) (hmode : l ≠ .modeMember)
    {values : List (String × String)} (names : List String) (hnames : values.map Prod.fst = names)
    (hknown : (pieces l.standard).all (Piece.known names) = true) :
    ∃ s, ls.spell l values = .ok s := by
  rw [spell_eq_fill h hreserved hmode]
  exact exists_fill (hnames ▸ hknown)

/-! ### Values -/

theorem position_eq (lsb : Int) : ls.position lsb = .ok ("(" ++ Numeral.decimal lsb ++ ")") := by
  have hpieces : pieces Layout.position.standard
      = [.literal '(', .hole "lsb", .literal ')'] := by cbv
  rw [position, spell_eq_fill h (by decide) (by decide), fill, hpieces]
  simp [fillPieces, Except.map, ← String.toList_inj]

theorem mask_eq (value : Int) : ls.mask value = .ok ("_U_(0x" ++ Numeral.hex value ++ ")") := by
  have hpieces : pieces Layout.mask.standard
      = "_U_(0x".toList.map .literal ++ [.hole "mask", .literal ')'] := by cbv
  rw [mask, spell_eq_fill h (by decide) (by decide), fill, hpieces]
  simp [fillPieces, Except.map, ← String.toList_inj]

theorem setter_eq (base : String) :
    ls.setter base = .ok ("(" ++ base ++ "_Msk & ((value) << " ++ base ++ "_Pos))") := by
  have hpieces : pieces Layout.setter.standard
      = .literal '(' :: .hole "base" :: "_Msk & ((value) << ".toList.map .literal
        ++ .hole "base" :: "_Pos))".toList.map .literal := by cbv
  rw [setter, spell_eq_fill h (by decide) (by decide), fill, hpieces]
  simp [fillPieces, Except.map, ← String.toList_inj]

theorem optionValue_eq (value : String) : ls.optionValue value = .ok ("_U_(" ++ value ++ ")") := by
  have hpieces : pieces Layout.optionValue.standard
      = "_U_(".toList.map .literal ++ [.hole "value", .literal ')'] := by cbv
  rw [optionValue, spell_eq_fill h (by decide) (by decide), fill, hpieces]
  simp [fillPieces, Except.map, ← String.toList_inj]

theorem option_eq (base name : String) :
    ls.option base name = .ok ("(" ++ base ++ name ++ "_Val << " ++ base ++ "Pos)") := by
  have hpieces : pieces Layout.option.standard
      = .literal '(' :: .hole "base" :: .hole "name" :: "_Val << ".toList.map .literal
        ++ .hole "base" :: "Pos)".toList.map .literal := by cbv
  have hname : List.lookup "name" [("base", base), ("name", name)] = some name := rfl
  rw [option, spell_eq_fill h (by decide) (by decide), fill, hpieces]
  simp [fillPieces, hname, Except.map, ← String.toList_inj]

theorem offset_eq (value : Int) : ls.offset value = .ok ("(0x" ++ Numeral.hex value 2 ++ ")") := by
  have hpieces : pieces Layout.offset.standard
      = "(0x".toList.map .literal ++ [.hole "offset", .literal ')'] := by cbv
  rw [offset, spell_eq_fill h (by decide) (by decide), fill, hpieces]
  simp [fillPieces, Except.map, ← String.toList_inj]

theorem reset_eq (value : Int) : ls.reset value = .ok ("_U_(0x" ++ Numeral.hex value ++ ")") := by
  have hpieces : pieces Layout.reset.standard
      = "_U_(0x".toList.map .literal ++ [.hole "value", .literal ')'] := by cbv
  rw [reset, spell_eq_fill h (by decide) (by decide), fill, hpieces]
  simp [fillPieces, Except.map, ← String.toList_inj]

theorem fieldCaption_eq (register name caption : String) :
    ls.fieldCaption register name caption = .ok (register ++ "<" ++ name ++ ">: " ++ caption) := by
  have hpieces : pieces Layout.fieldCaption.standard
      = [.hole "register", .literal '<', .hole "name", .literal '>', .literal ':', .literal ' ',
        .hole "caption"] := by cbv
  have hname : List.lookup "name"
      [("register", register), ("name", name), ("caption", caption)] = some name := rfl
  have hcaption : List.lookup "caption"
      [("register", register), ("name", name), ("caption", caption)] = some caption := rfl
  rw [fieldCaption, spell_eq_fill h (by decide) (by decide), fill, hpieces]
  simp [fillPieces, hname, hcaption, Except.map, ← String.toList_inj]

/-! ### Lines -/

theorem exists_registerCaption (r : Register) (name : String) :
    ∃ s, ls.registerCaption r name = .ok s :=
  exists_spell h (by decide) (by decide) ["name", "owner", "offset", "rw", "bits", "caption"] rfl
    (by cbv)

theorem exists_fieldCaption (register name caption : String) :
    ∃ s, ls.fieldCaption register name caption = .ok s :=
  exists_spell h (by decide) (by decide) ["register", "name", "caption"] rfl (by cbv)

theorem exists_unionOpen : ∃ s, ls.unionOpen = .ok s :=
  exists_spell h (by decide) (by decide) [] rfl (by cbv)

theorem exists_regMember (type : String) : ∃ s, ls.regMember type = .ok s :=
  exists_spell h (by decide) (by decide) ["type"] rfl (by cbv)

/-- The end of a type definition without an alignment. -/
theorem exists_typedefClose (name : String) : ∃ s, ls.typedefClose name = .ok s :=
  exists_spell h (by decide) (by decide) ["name", "attributes"] rfl (by cbv)

theorem exists_bitfield (field : Field) (type : String) : ∃ s, ls.bitfield field type = .ok s := by
  cases field with
  | gap lsb width => exact exists_spell h (by decide) (by decide) ["type", "width"] rfl (by cbv)
  | named f =>
    have hdeclaration : ∃ s, ls.spell .bitfield [("type", type), ("name", f.name),
        ("width", Numeral.natural f.width)] = .ok s :=
      exists_spell h (by decide) (by decide) ["type", "name", "width"] rfl (by cbv)
    have hrange : ∃ s, ls.spell .bitRange [("lsb", Numeral.rightAligned f.lsb 2),
        ("msb", Numeral.rightAligned f.msb 2), ("caption", f.caption)] = .ok s :=
      exists_spell h (by decide) (by decide) ["lsb", "msb", "caption"] rfl (by cbv)
    have hsingle : ∃ s, ls.spell .bitSingle [("lsb", Numeral.rightAligned f.lsb 2),
        ("caption", f.caption)] = .ok s :=
      exists_spell h (by decide) (by decide) ["lsb", "caption"] rfl (by cbv)
    obtain ⟨declaration, hdeclaration⟩ := hdeclaration
    obtain ⟨range, hrange⟩ := hrange
    obtain ⟨single, hsingle⟩ := hsingle
    rw [bitfield, hdeclaration, hrange, hsingle]
    -- the range of bits is shown for fields of several bits
    by_cases hwidth : 1 < f.width
    · exact ⟨Text.padTo declaration 36 ++ range, by simp only [if_pos hwidth]; rfl⟩
    · exact ⟨Text.padTo declaration 36 ++ single, by simp only [if_neg hwidth]; rfl⟩

theorem exists_bitfieldStruct (members : List Field) (type name : String) :
    ∃ lines, ls.bitfieldStruct members type name = .ok lines := by
  have hfirst : ∃ s, ls.spell .bitsOpen [("name", name)] = .ok s :=
    exists_spell h (by decide) (by decide) ["name"] rfl (by cbv)
  have hlast : ∃ s, ls.spell .bitsClose [("name", name)] = .ok s :=
    exists_spell h (by decide) (by decide) ["name"] rfl (by cbv)
  obtain ⟨first, hfirst⟩ := hfirst
  obtain ⟨last, hlast⟩ := hlast
  have hmembers : ∀ f ∈ members, ∃ s, ls.bitfield f type = .ok s ∧ True := by
    intro f _
    obtain ⟨s, hs⟩ := exists_bitfield h f type
    exact ⟨s, hs, trivial⟩
  obtain ⟨body, hbody, -⟩ := Steps.exists_mapM_forall hmembers
  exact ⟨first :: (body ++ [last]), by rw [bitfieldStruct, hfirst, hbody, hlast]; rfl⟩

end Layouts

/-! ### Numerals -/

namespace Numeral

/-- An integer in base ten is written with digits and a sign. -/
theorem mem_decimal {n : Int} {c : Char} (hc : c ∈ (decimal n).toList) :
    c = '-' ∨ ∃ d < 10, c = digitChar d := by
  rw [decimal, String.toList_append, List.mem_append] at hc
  rcases hc with hc | hc
  · left
    unfold sign at hc
    split at hc <;> simp_all
  · right
    rw [natural, String.toList_ofList, List.mem_map] at hc
    obtain ⟨d, hd, rfl⟩ := hc
    exact ⟨d, digits_lt (by omega) _ d hd, rfl⟩

theorem mem_hex {n : Int} {width : Nat} {c : Char} (hc : c ∈ (hex n width).toList) :
    c = '-' ∨ ∃ d < 16, c = digitChar d := by
  simp only [hex, String.toList_append, List.mem_append, or_assoc] at hc
  rcases hc with hc | hc | hc
  · left
    unfold sign at hc
    split at hc <;> simp_all
  · right
    rw [fill, String.toList_ofList, List.mem_replicate] at hc
    exact ⟨0, by omega, hc.2⟩
  · right
    rw [String.toList_ofList, List.mem_map] at hc
    obtain ⟨d, hd, rfl⟩ := hc
    exact ⟨d, digits_lt (by omega) _ d hd, rfl⟩

/-- The digits of a number are read off its characters. -/
theorem digitValue_digitChar : ∀ d < 16, digitValue (digitChar d) = some d := by decide +kernel

/-- Numbers with the same characters are the same. -/
theorem digits_inj {base m n : Nat} (hbase : 2 ≤ base) (hle : base ≤ 16)
    (h : (digits base m).map digitChar = (digits base n).map digitChar) : m = n := by
  have hread (k : Nat) :
      ((digits base k).map digitChar).map digitValue = (digits base k).map some := by
    rw [List.map_map]
    refine List.map_congr_left fun d hd => digitValue_digitChar d ?_
    exact Nat.lt_of_lt_of_le (digits_lt hbase k d hd) hle
  have hdigits : digits base m = digits base n := by
    have hsome := congrArg (List.map digitValue) h
    rw [hread, hread] at hsome
    exact List.map_injective_iff.mpr (Option.some_injective Nat) hsome
  rw [← value_digits base m, hdigits, value_digits]

theorem toList_hex (n : Int) :
    (hex n).toList = (sign n).toList ++ (digits 16 n.natAbs).map digitChar := by
  have hfill (k : Nat) : fill '0' k 0 = "" := by simp [fill]
  simp only [hex, hfill, String.append_empty, String.toList_append, String.toList_ofList]

/-- An integer is known from its hexadecimal digits. -/
theorem hex_inj {m n : Int} (h : hex m = hex n) : m = n := by
  have hdigit : ∀ d < 16, '-' ≠ digitChar d := by decide
  -- only a negative integer is written with a sign
  have hsign {k l : Int} (hk : k < 0) (hl : ¬ l < 0) : hex k ≠ hex l := by
    intro hkl
    have hmem : '-' ∈ (hex l).toList := by
      rw [← hkl, toList_hex, sign, if_pos hk]
      exact List.mem_append_left _ (by decide)
    rw [toList_hex, sign, if_neg hl, String.toList_empty, List.nil_append, List.mem_map] at hmem
    obtain ⟨d, hd, hchar⟩ := hmem
    exact hdigit d (digits_lt (by decide) _ d hd) hchar.symm
  have hnat : (sign m = sign n) → m.natAbs = n.natAbs := by
    intro hs
    have hlist := congrArg String.toList h
    rw [toList_hex, toList_hex, hs, List.append_cancel_left_eq] at hlist
    exact digits_inj (by decide) (by decide) hlist
  by_cases hm : m < 0
  · by_cases hn : n < 0
    · have habs := hnat (by rw [sign, sign, if_pos hm, if_pos hn])
      omega
    · exact absurd h (hsign hm hn)
  · by_cases hn : n < 0
    · exact absurd h.symm (hsign hn hm)
    · have habs := hnat (by rw [sign, sign, if_neg hm, if_neg hn])
      omega

end Numeral

end ChipSupport
