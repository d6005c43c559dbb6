import ChipSupport.Proofs.RegisterBlock.Lines

/-!
# The block of a register in closed form

With standard layouts the definitions in the block of a register are known in full, with their notes
and their order.  Only its heading and its union are spelled by longer layouts.

## Main definitions

* `RegisterBlock.bitfieldBlock`, `RegisterBlock.modeBlock`, `RegisterBlock.vectorBlock` — the parts
  of a block.
* `RegisterBlock.definitions` — what lines define, with the values.

## Main results

* `RegisterBlock.lines_eq` — **the block of a register, part by part.**
* `RegisterBlock.exists_lines_eq` — every register has such a block.
-/

namespace ChipSupport.RegisterBlock

/-! ### The parts of a block -/

variable (register : String) (style : Style)

/-- The note on a field. -/
def noteText (field caption : String) : String := register ++ "<" ++ field ++ ">: " ++ caption

/-- The definitions of a field in a mode. -/
def fieldBlock (mode : String) (f : NamedField) (full : Bool) : List Line :=
  .define (fieldBase register f.name mode style ++ "_Pos") (positionText f.lsb)
      (noteText register f.name f.caption)
    :: maskLines (fieldBase register f.name mode style) f.mask (fieldForm f style full)

/-- The definitions of a bitfield in a mode and of its options. -/
def bitfieldBlock (mode : String) (f : Bitfield) : List Line :=
  fieldBlock register style mode f.toNamed false
    ++ (f.values.map (valueLine (optionBase register f.name mode style) style)
      ++ f.values.map (placedLine (optionBase register f.name mode style) style))

/-- The definitions of a mask. -/
def maskBlock (start note : String) (mask : Int) : List Line :=
  style.maskMacros.map fun ending => .define (start ++ ending) (maskText mask) note

/-- The definitions of a register as a whole. -/
def wholeBlock (r : Register) : List Line :=
  [.define (register ++ style.offsetMacro) (offsetText r.offset) (register ++ " offset"),
      .define (register ++ "_RESETVALUE") (maskText r.initval) (register ++ " reset value")]
    ++ maskBlock style register (register ++ " mask") r.mask ++ [Line.blank]

/-- The definitions for a mode of a register. -/
def modeBlock (r : Register) (several : Bool) (m : String × List Bitfield) : List Line :=
  (if several && style.modeAware then [Line.text ("/* " ++ m.1 ++ " mode */")] else [])
    ++ m.2.flatMap (bitfieldBlock register style m.1)
    ++ (if several && style.modeAware then
      maskBlock style (register ++ "_" ++ m.1) (register ++ " mask for mode " ++ m.1)
        (r.maskByMode m.1 style.coalesceModes) else [])
    ++ if style.modeAware then [Line.blank] else []

/-- The definitions for vector fields. -/
def vectorBlock (vectors : List Field) : List Line :=
  let body := (Field.namedOnly vectors).flatMap fun f => fieldBlock register style "" f true
  if style.modeAware then
    if (Field.namedOnly vectors).isEmpty then [] else body ++ [Line.blank]
  else (if vectors.isEmpty then [] else [Line.blank]) ++ body ++ [Line.blank]

/-! ### Equations -/

section Equations

variable {style} (h : style.layouts.Standard)
include h

theorem fieldLines_closed (mode : String) (f : NamedField) (full : Bool) :
    fieldLines f mode register style full = .ok (fieldBlock register style mode f full) :=
  fieldLines_eq h f mode register full (Layouts.fieldCaption_eq h register f.name f.caption)

theorem modeLines_eq (r : Register) (several : Bool) (m : String × List Bitfield) :
    modeLines r register several m.1 m.2 style = .ok (modeBlock register style r several m) := by
  have hbody : (m.2.mapM fun f => do
      let definitions ← fieldLines f.toNamed m.1 register style
      let options ← optionLines f m.1 register style
      return definitions ++ options) = .ok (m.2.map (bitfieldBlock register style m.1)) := by
    refine Steps.mapM_eq_ok_map fun f _ => ?_
    rw [fieldLines_closed register h, optionLines_eq h]
    rfl
  unfold modeLines modeBlock
  rw [hbody, List.flatMap_def]
  cases several && style.modeAware with
  | false => rfl
  | true =>
    simp only [if_true, masks_eq h]
    rfl

theorem vectorLines_eq (vectors : List Field) :
    vectorLines vectors register style = .ok (vectorBlock register style vectors) := by
  have hbody : ((Field.namedOnly vectors).mapM fun f => fieldLines f "" register style true)
      = .ok ((Field.namedOnly vectors).map fun f => fieldBlock register style "" f true) :=
    Steps.mapM_eq_ok_map fun f _ => fieldLines_closed register h "" f true
  unfold vectorLines vectorBlock
  simp only [hbody, List.flatMap_def]
  cases style.modeAware <;> rfl

/-- **The block of a register has its heading, its union, and then the definitions for the register,
for every mode and for the vector fields.** -/
theorem lines_eq (r : Register) (groupMode start : String) {title : String} {union : List Line}
    (htitle : style.layouts.registerCaption r
      (style.convention.qualifiedRegisterName r groupMode start) = .ok title)
    (hunion : (if style.registerUnions then
        unionLines r groupMode (r.modeTable style.coalesceModes)
          (vectorsOf (r.modeTable style.coalesceModes) style) style
      else pure []) = .ok union) :
    let name := style.convention.qualifiedRegisterName r groupMode start
    let modes := r.modeTable style.coalesceModes
    lines r groupMode start style
      = .ok (.text title :: (union ++ wholeBlock name style r
        ++ modes.flatMap (modeBlock name style r (decide (1 < modes.length)))
        ++ vectorBlock name style (vectorsOf modes style))) := by
  intro name modes
  have hbody : (modes.mapM fun m => modeLines r name (decide (1 < modes.length)) m.1 m.2 style)
      = .ok (modes.map (modeBlock name style r (decide (1 < modes.length)))) :=
    Steps.mapM_eq_ok_map fun m _ => modeLines_eq name h r _ m
  have hwhole : registerLines r name style = .ok (wholeBlock name style r) :=
    registerLines_eq h r name
  have hvector := vectorLines_eq name h (vectorsOf modes style)
  rw [List.flatMap_def]
  cases hunions : style.registerUnions with
  | true =>
    rw [hunions, if_pos rfl] at hunion
    simp only [lines, h.names, htitle, hunions, hunion, hwhole, hbody, hvector, if_true, modes,
      name]
    rfl
  | false =>
    rw [hunions, if_neg Bool.false_ne_true] at hunion
    rw [← Except.ok.inj hunion]
    simp only [lines, h.names, htitle, hunions, hwhole, hbody, hvector, Bool.false_eq_true,
      if_false, modes, name]
    rfl

/-- Every register has a block, whose heading and union define nothing. -/
theorem exists_lines_eq (r : Register) (groupMode start : String) :
    let name := style.convention.qualifiedRegisterName r groupMode start
    let modes := r.modeTable style.coalesceModes
    ∃ title union, lines r groupMode start style
        = .ok (.text title :: (union ++ wholeBlock name style r
          ++ modes.flatMap (modeBlock name style r (decide (1 < modes.length)))
          ++ vectorBlock name style (vectorsOf modes style))) ∧
      names union = [] := by
  intro name modes
  obtain ⟨title, htitle⟩ := Layouts.exists_registerCaption h r name
  obtain ⟨union, hunion, hnames⟩ : ∃ union, (if style.registerUnions then
      unionLines r groupMode modes (vectorsOf modes style) style else pure []) = .ok union ∧
      names union = [] := by
    split
    · exact exists_unionLines h r groupMode modes (vectorsOf modes style)
    · exact ⟨[], rfl, rfl⟩
  exact ⟨title, union, lines_eq h r groupMode start htitle hunion, hnames⟩

end Equations

/-! ### Definitions -/

/-- What lines define, in order, with the values. -/
def definitions (block : List Line) : List (String × String) :=
  block.filterMap fun
    | .define name value _ | .defineWide name value => some (name, value)
    | _ => none

@[simp] theorem definitions_nil : definitions [] = [] := rfl

@[simp] theorem definitions_text (s : String) (block : List Line) :
    definitions (.text s :: block) = definitions block := rfl

@[simp] theorem definitions_blank (block : List Line) :
    definitions (Line.blank :: block) = definitions block := rfl

@[simp] theorem definitions_append (block block' : List Line) :
    definitions (block ++ block') = definitions block ++ definitions block' :=
  List.filterMap_append

/-- The names that lines define are those of their definitions. -/
theorem names_eq_map (block : List Line) : names block = (definitions block).map Prod.fst := by
  induction block with
  | nil => rfl
  | cons l rest ih => cases l <;> first | exact ih | exact congrArg (_ :: ·) ih

theorem definitions_eq_nil {block : List Line} (h : names block = []) : definitions block = [] := by
  rwa [names_eq_map, List.map_eq_nil_iff] at h

end ChipSupport.RegisterBlock
