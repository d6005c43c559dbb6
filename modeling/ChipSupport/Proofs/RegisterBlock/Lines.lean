import ChipSupport.Header.RegisterBlock
import ChipSupport.Proofs.Layouts

/-!
# The lines of a register's block

With standard layouts every part of the block of a register can be written.  The definitions are
given here by their names and values; what else the block holds is text.

## Main definitions

* `RegisterBlock.setterText`, `RegisterBlock.optionText`, … — the values of definitions.
* `RegisterBlock.maskLines`, `RegisterBlock.valueLine`, `RegisterBlock.placedLine` — definitions.
* `RegisterBlock.names` — the names that lines define.

## Main results

* `RegisterBlock.fieldLines_eq`, `RegisterBlock.optionLines_eq`, `RegisterBlock.registerLines_eq` —
  the definitions for a field, for its options and for the register as a whole.
* `RegisterBlock.unionLines_eq` — the union of a register from its parts.
* `RegisterBlock.exists_unionLines` — the union of a register defines nothing.
-/

namespace ChipSupport.RegisterBlock

/-! ### Values -/

/-- The value of a position. -/
def positionText (lsb : Int) : String := "(" ++ Numeral.decimal lsb ++ ")"

/-- The value of a mask. -/
def maskText (mask : Int) : String := "_U_(0x" ++ Numeral.hex mask ++ ")"

theorem maskText_inj {m n : Int} (h : maskText m = maskText n) : m = n := by
  rw [maskText, maskText, String.append_left_inj, String.append_right_inj] at h
  exact Numeral.hex_inj h

/-- The value of an offset. -/
def offsetText (offset : Int) : String := "(0x" ++ Numeral.hex offset 2 ++ ")"

/-- The value macro of a field. -/
def setterText (base : String) : String := "(" ++ base ++ "_Msk & ((value) << " ++ base ++ "_Pos))"

/-- An option of a field in its place. -/
def optionText (base name : String) : String :=
  "(" ++ base ++ name ++ "_Val << " ++ base ++ "Pos)"

/-! ### Definitions -/

/-- What is defined for a field besides its position. -/
def maskLines (base : String) (mask : Int) : SingleBit → List Line
  | .plain => [.define base (maskText mask)]
  | .mask => [.define (base ++ "_Msk") (maskText mask), .define base (maskText mask)]
  | .value =>
    [.define (base ++ "_Msk") (maskText mask), .define (base ++ "(value)") (setterText base)]

/-- The definition of the value of an option. -/
def valueLine (base : String) (style : Style) (v : NamedValue) : Line :=
  .define ("  " ++ base ++ optionName v style ++ "_Val") ("_U_(" ++ v.value ++ ")") v.caption

/-- The definition of an option in its place. -/
def placedLine (base : String) (style : Style) (v : NamedValue) : Line :=
  .define (base ++ optionName v style) (optionText base (optionName v style))

/-! ### Names -/

/-- The names that the lines of a block define, in order. -/
def names (block : List Line) : List String :=
  block.filterMap fun
    | .define name _ _ | .defineWide name _ => some name
    | _ => none

@[simp] theorem names_nil : names [] = [] := rfl

@[simp] theorem names_define (name value note : String) (block : List Line) :
    names (.define name value note :: block) = name :: names block := rfl

@[simp] theorem names_text (s : String) (block : List Line) :
    names (.text s :: block) = names block := rfl

@[simp] theorem names_blank (block : List Line) : names (Line.blank :: block) = names block := rfl

@[simp] theorem names_compilerOnly (block : List Line) :
    names (Line.compilerOnly :: block) = names block := rfl

@[simp] theorem names_endCompilerOnly (block : List Line) :
    names (Line.endCompilerOnly :: block) = names block := rfl

@[simp] theorem names_append (block block' : List Line) :
    names (block ++ block') = names block ++ names block' := List.filterMap_append

/-- Lines that each define one name. -/
theorem names_map {α : Type} {f : α → Line} {name : α → String} (h : ∀ x, names [f x] = [name x])
    (xs : List α) : names (xs.map f) = xs.map name := by
  induction xs with
  | nil => rfl
  | cons x rest ih =>
    rw [List.map_cons, ← List.singleton_append, names_append, h, ih, List.map_cons,
      List.singleton_append]

theorem names_texts (texts : List String) : names (texts.map Line.text) = [] := by
  induction texts with
  | nil => rfl
  | cons s rest ih => rw [List.map_cons, names_text, ih]

theorem names_flatten {blocks : List (List Line)} (h : ∀ block ∈ blocks, names block = []) :
    names blocks.flatten = [] := by
  induction blocks with
  | nil => rfl
  | cons block rest ih =>
    rw [List.forall_mem_cons] at h
    rw [List.flatten_cons, names_append, h.1, ih h.2, List.append_nil]

theorem mem_names {block : List Line} {name value note : String}
    (h : Line.define name value note ∈ block) : name ∈ names block :=
  List.mem_filterMap.mpr ⟨_, h, rfl⟩

/-! ### The parts of a block -/

variable {style : Style} (h : style.layouts.Standard)
include h

theorem fieldLines_eq (f : NamedField) (mode register : String) (full : Bool) {note : String}
    (hnote : style.layouts.fieldCaption register f.name f.caption = .ok note) :
    fieldLines f mode register style full
      = .ok (.define (fieldBase register f.name mode style ++ "_Pos") (positionText f.lsb) note
        :: maskLines (fieldBase register f.name mode style) f.mask (fieldForm f style full)) := by
  cases hform : fieldForm f style full
  all_goals
    simp only [fieldLines, Layouts.position_eq h, Layouts.mask_eq h, Layouts.setter_eq h, hnote,
      hform]
    rfl

theorem optionLines_eq (f : Bitfield) (mode register : String) :
    optionLines f mode register style
      = .ok (f.values.map (valueLine (optionBase register f.name mode style) style)
        ++ f.values.map (placedLine (optionBase register f.name mode style) style)) := by
  have hvalues : (f.values.mapM fun v => do
      let value ← style.layouts.optionValue v.value
      return Line.define ("  " ++ optionBase register f.name mode style ++ optionName v style
        ++ "_Val") value v.caption)
        = .ok (f.values.map (valueLine (optionBase register f.name mode style) style)) :=
    Steps.mapM_eq_ok_map fun v _ => by rw [Layouts.optionValue_eq h]; rfl
  have hplaced : (f.values.mapM fun v => do
      let value ← style.layouts.option (optionBase register f.name mode style) (optionName v style)
      return Line.define (optionBase register f.name mode style ++ optionName v style) value)
        = .ok (f.values.map (placedLine (optionBase register f.name mode style) style)) :=
    Steps.mapM_eq_ok_map fun v _ => by rw [Layouts.option_eq h]; rfl
  simp only [optionLines, hvalues, hplaced]
  rfl

theorem masks_eq (start note : String) (mask : Int) (endings : List String) :
    (endings.mapM fun ending => do
        let value ← style.layouts.mask mask
        return Line.define (start ++ ending) value note)
      = .ok (endings.map fun ending => .define (start ++ ending) (maskText mask) note) :=
  Steps.mapM_eq_ok_map fun ending _ => by rw [Layouts.mask_eq h]; rfl

theorem registerLines_eq (r : Register) (name : String) :
    registerLines r name style
      = .ok ([.define (name ++ style.offsetMacro) (offsetText r.offset) (name ++ " offset"),
          .define (name ++ "_RESETVALUE") (maskText r.initval) (name ++ " reset value")]
        ++ (style.maskMacros.map fun ending =>
          .define (name ++ ending) (maskText r.mask) (name ++ " mask"))
        ++ [Line.blank]) := by
  simp only [registerLines, Layouts.offset_eq h, Layouts.reset_eq h, masks_eq h]
  rfl

theorem exists_structLines (fields : List Field) (r : Register) (name : String) :
    ∃ block, structLines fields r name style = .ok block ∧ names block = [] := by
  obtain ⟨lines, hlines⟩ :=
    Layouts.exists_bitfieldStruct h (Field.layout fields r.bitWidth) r.integerType name
  exact ⟨lines.map Line.text, by rw [structLines, hlines]; rfl, names_texts lines⟩

omit h in
/-- The union of a register from its parts.  The struct of vector fields is left out if there are
none. -/
theorem unionLines_eq {r : Register} {groupMode : String} {modes : List (String × List Bitfield)}
    {vectors : List Field} {first whole last : String} {structs : List (List Line)}
    {vector : List Line} (hfirst : style.layouts.unionOpen = .ok first)
    (hstructs : ((modes.filter fun m => !(m.2.isEmpty && style.coalesceModes)).mapM fun m =>
      structLines (m.2.map fun f => .named f.toNamed) r (structName m.1) style) = .ok structs)
    (hvector : structLines vectors r "vec" style = .ok vector)
    (hwhole : style.layouts.regMember r.integerType = .ok whole)
    (hlast : style.layouts.typedefClose (style.convention.registerType r groupMode) = .ok last) :
    unionLines r groupMode modes vectors style
      = .ok ([Line.compilerOnly, .text first] ++ structs.flatten
        ++ (if vectors.isEmpty then [] else vector)
        ++ [.text whole, .text last, Line.endCompilerOnly, Line.blank]) := by
  cases hempty : vectors.isEmpty <;>
  · simp only [unionLines, hfirst, hstructs, hempty, hvector, hwhole, hlast]
    rfl

/-- The union of a register defines nothing. -/
theorem exists_unionLines (r : Register) (groupMode : String)
    (modes : List (String × List Bitfield)) (vectors : List Field) :
    ∃ block, unionLines r groupMode modes vectors style = .ok block ∧ names block = [] := by
  obtain ⟨first, hfirst⟩ := Layouts.exists_unionOpen h
  obtain ⟨whole, hwhole⟩ := Layouts.exists_regMember h r.integerType
  obtain ⟨last, hlast⟩ := Layouts.exists_typedefClose h (style.convention.registerType r groupMode)
  obtain ⟨structs, hstructs, hblocks⟩ := Steps.exists_mapM_forall
    fun (m : String × List Bitfield)
      (_ : m ∈ modes.filter fun m => !(m.2.isEmpty && style.coalesceModes)) =>
      exists_structLines h (m.2.map fun f => .named f.toNamed) r (structName m.1)
  have hstructNames : names structs.flatten = [] := names_flatten hblocks
  obtain ⟨vector, hvector, hvectorNames⟩ := exists_structLines h vectors r "vec"
  refine ⟨_, unionLines_eq hfirst hstructs hvector hwhole hlast, ?_⟩
  cases vectors.isEmpty <;> simp [hstructNames, hvectorNames]

end ChipSupport.RegisterBlock
