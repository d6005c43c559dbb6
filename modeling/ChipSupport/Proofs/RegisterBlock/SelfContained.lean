import ChipSupport.Proofs.RegisterBlock.Lines

/-!
# What the block of a register refers to

The value macro of a field refers to the field's mask and position, and an option in its place to
the option's value and the field's position.  The presets define all of them next to each other,
with one exception: where names of options do not carry the mode, the position of a field in a mode
of its own is defined under another name than the one that its options refer to.

## Main definitions

* `RegisterBlock.Refers`, `RegisterBlock.Defined` — the names that lines refer to and define.
* `RegisterBlock.SelfContained` — blocks that define what they refer to.
* `RegisterBlock.blockNames` — the names that a block defines.
* `RegisterBlock.Covers` — lines of fields, which leave at most positions of options undefined.

## Main results

* `RegisterBlock.lines_covers` — a block defines the names of `blockNames`, and refers to no other
  undefined names than positions of options.
* `RegisterBlock.lines_selfContained_iff` — **when the block of a register is self-contained.**
-/

namespace ChipSupport.RegisterBlock

/-! ### References -/

/-- The names that the values of definitions refer to. -/
inductive Refers : Line → String → Prop where
  /-- A value macro refers to the mask of its field. -/
  | setterMask (base note : String) :
    Refers (.define (base ++ "(value)") (setterText base) note) (base ++ "_Msk")
  /-- A value macro refers to the position of its field. -/
  | setterPosition (base note : String) :
    Refers (.define (base ++ "(value)") (setterText base) note) (base ++ "_Pos")
  /-- An option in its place refers to its value. -/
  | optionValue (base name note : String) :
    Refers (.define (base ++ name) (optionText base name) note) (base ++ name ++ "_Val")
  /-- An option in its place refers to the position of its field. -/
  | optionPosition (base name note : String) :
    Refers (.define (base ++ name) (optionText base name) note) (base ++ "Pos")

/-- A name that stands among the defined ones.  The values of options are indented. -/
def Among (defined : List String) (x : String) : Prop := x ∈ defined ∨ "  " ++ x ∈ defined

instance (defined : List String) (x : String) : Decidable (Among defined x) :=
  inferInstanceAs (Decidable (_ ∨ _))

/-- A name that a block defines. -/
def Defined (block : List Line) (x : String) : Prop := Among (names block) x

/-- A block that defines every name that its lines refer to. -/
def SelfContained (block : List Line) : Prop := ∀ l ∈ block, ∀ x, Refers l x → Defined block x

/-- The value of a line that refers to a name is in brackets and has a shift in it. -/
theorem Refers.value {l : Line} {x : String} (h : Refers l x) :
    ∃ name value note, l = .define name value note ∧ value.toList.head? = some '(' ∧
      '<' ∈ value.toList := by
  cases h with
  | setterMask base note | setterPosition base note =>
    exact ⟨_, _, _, rfl, by simp [setterText], by simp [setterText]⟩
  | optionValue base name note | optionPosition base name note =>
    exact ⟨_, _, _, rfl, by simp [optionText], by simp [optionText]⟩

/-- A value macro and an option end in different ways. -/
theorem setterText_ne_optionText (base base' name : String) :
    setterText base ≠ optionText base' name := by
  intro h
  -- the one ends in two brackets, the other in a letter and one bracket
  have hend := congrArg (fun s => s.toList.reverse.take 2) h
  simp [setterText, optionText] at hend

/-- An option of a name that is known in whole shows where the name of its field ends. -/
theorem optionText_inj {base base' name name' : String} (hname : base ++ name = base' ++ name')
    (h : optionText base name = optionText base' name') : base = base' := by
  -- what stands between the two parts that are known is the name of the field
  have hvalue : "(" ++ (base ++ name) ++ "_Val << " ++ base ++ "Pos)"
      = "(" ++ (base' ++ name') ++ "_Val << " ++ base' ++ "Pos)" := by
    simpa only [optionText, String.append_assoc] using h
  rwa [hname, String.append_left_inj, String.append_right_inj] at hvalue

/-- A value macro refers to the mask and the position of its field. -/
theorem Refers.of_setter {base note x : String}
    (h : Refers (.define (base ++ "(value)") (setterText base) note) x) :
    x = base ++ "_Msk" ∨ x = base ++ "_Pos" := by
  generalize hl : Line.define (base ++ "(value)") (setterText base) note = l at h
  cases h with
  | setterMask base' note' =>
    rw [Line.define.injEq, String.append_left_inj] at hl
    exact .inl (by rw [hl.1])
  | setterPosition base' note' =>
    rw [Line.define.injEq, String.append_left_inj] at hl
    exact .inr (by rw [hl.1])
  | optionValue base' name note' | optionPosition base' name note' =>
    rw [Line.define.injEq] at hl
    exact absurd hl.2.1 (setterText_ne_optionText base base' name)

/-- An option in its place refers to its value and the position of its field. -/
theorem Refers.of_option {base name note x : String}
    (h : Refers (.define (base ++ name) (optionText base name) note) x) :
    x = base ++ name ++ "_Val" ∨ x = base ++ "Pos" := by
  generalize hl : Line.define (base ++ name) (optionText base name) note = l at h
  cases h with
  | setterMask base' note' | setterPosition base' note' =>
    rw [Line.define.injEq] at hl
    exact absurd hl.2.1.symm (setterText_ne_optionText base' base name)
  | optionValue base' name' note' =>
    rw [Line.define.injEq] at hl
    exact .inl (by rw [hl.1])
  | optionPosition base' name' note' =>
    rw [Line.define.injEq] at hl
    exact .inr (by rw [optionText_inj hl.1 hl.2.1])

/-- A line refers to nothing if its value is not in brackets or has no shift in it. -/
theorem not_refers_define {name value note x : String}
    (h : value.toList.head? ≠ some '(' ∨ '<' ∉ value.toList) :
    ¬ Refers (.define name value note) x := by
  intro hrefers
  obtain ⟨name', value', note', hl, hhead, hmem⟩ := hrefers.value
  rw [Line.define.injEq] at hl
  rw [hl.2.1] at h
  rcases h with h | h
  · exact h hhead
  · exact h hmem

/-! ### Values that refer to nothing -/

theorem head?_maskText (mask : Int) : (maskText mask).toList.head? ≠ some '(' := by
  simp [maskText]

theorem shift_notMem_positionText (n : Int) : '<' ∉ (positionText n).toList := by
  have hdigits : ∀ d < 10, '<' ≠ Numeral.digitChar d := by decide
  intro hmem
  have hdecimal : '<' ∈ (Numeral.decimal n).toList := by simpa [positionText] using hmem
  rcases Numeral.mem_decimal hdecimal with hsign | ⟨d, hd, hdigit⟩
  · cases hsign
  · exact hdigits d hd hdigit

theorem shift_notMem_offsetText (n : Int) : '<' ∉ (offsetText n).toList := by
  have hdigits : ∀ d < 16, '<' ≠ Numeral.digitChar d := by decide
  intro hmem
  have hhex : '<' ∈ (Numeral.hex n 2).toList := by simpa [offsetText] using hmem
  rcases Numeral.mem_hex hhex with hsign | ⟨d, hd, hdigit⟩
  · cases hsign
  · exact hdigits d hd hdigit

theorem not_refers_of_names {block : List Line} (h : names block = []) {l : Line} (hl : l ∈ block)
    (x : String) : ¬ Refers l x := by
  intro hrefers
  obtain ⟨name, value, note, rfl, -⟩ := hrefers.value
  have hmem := mem_names hl
  rw [h] at hmem
  cases hmem

/-! ### The names that a block defines -/

/-- The names that are defined for a field. -/
def fieldNames (base : String) : SingleBit → List String
  | .plain => [base ++ "_Pos", base]
  | .mask => [base ++ "_Pos", base ++ "_Msk", base]
  | .value => [base ++ "_Pos", base ++ "_Msk", base ++ "(value)"]

/-- The names that are defined for options. -/
def optionNames (base : String) (style : Style) (values : List NamedValue) : List String :=
  (values.map fun v => "  " ++ base ++ optionName v style ++ "_Val")
    ++ values.map fun v => base ++ optionName v style

/-- The names that are defined for a bitfield in a mode. -/
def bitfieldNames (register : String) (style : Style) (m : String × Bitfield) : List String :=
  fieldNames (fieldBase register m.2.name m.1 style) (fieldForm m.2.toNamed style false)
    ++ optionNames (optionBase register m.2.name m.1 style) style m.2.values

/-- The names that are defined for a mode. -/
def modeNames (register : String) (style : Style) (several : Bool)
    (m : String × List Bitfield) : List String :=
  (m.2.flatMap fun f => bitfieldNames register style (m.1, f))
    ++ if several && style.modeAware then
      style.maskMacros.map fun ending => register ++ "_" ++ m.1 ++ ending
    else []

/-- The names that are defined for vector fields. -/
def vectorNames (register : String) (style : Style) (vectors : List Field) : List String :=
  (Field.namedOnly vectors).flatMap fun f => fieldNames (fieldBase register f.name "" style) .value

/-- The names that the block of a register defines. -/
def blockNames (r : Register) (groupMode start : String) (style : Style) : List String :=
  let name := style.convention.qualifiedRegisterName r groupMode start
  let modes := r.modeTable style.coalesceModes
  [name ++ style.offsetMacro, name ++ "_RESETVALUE"] ++ style.maskMacros.map (name ++ ·)
    ++ modes.flatMap (modeNames name style (decide (1 < modes.length)))
    ++ vectorNames name style (vectorsOf modes style)

/-! ### Parts of a block -/

/-- A block in which every name that is referred to is defined or one of those that may be open. -/
def ClosedUpTo (open_ : String → Prop) (block : List Line) : Prop :=
  ∀ l ∈ block, ∀ x, Refers l x → Defined block x ∨ open_ x

/-- The lines for fields in modes, which define some names.  They hold the value macros and the
options of the fields, and refer to no other undefined names than the positions that options refer
to. -/
structure Covers (register : String) (style : Style) (fields : List (String × Bitfield))
    (defined : List String) (block : List Line) : Prop where
  /-- The names that are defined. -/
  names_eq : names block = defined
  /-- What is referred to is defined, if it is not the position that options refer to. -/
  closed : ClosedUpTo (fun x => ∃ m ∈ fields, m.2.values ≠ [] ∧
    x = optionBase register m.2.name m.1 style ++ "Pos") block
  /-- Every value macro is there. -/
  setters : ∀ m ∈ fields, fieldForm m.2.toNamed style false = .value →
    ∃ note, Line.define (fieldBase register m.2.name m.1 style ++ "(value)")
      (setterText (fieldBase register m.2.name m.1 style)) note ∈ block
  /-- Every option is there. -/
  options : ∀ m ∈ fields, ∀ v ∈ m.2.values,
    placedLine (optionBase register m.2.name m.1 style) style v ∈ block
  /-- Every position is defined. -/
  positions : ∀ m ∈ fields, fieldBase register m.2.name m.1 style ++ "_Pos" ∈ defined

variable {register : String} {style : Style}

/-- Lines that refer to nothing cover no fields. -/
theorem covers_of_forall {block : List Line} {defined : List String}
    (hnames : names block = defined) (h : ∀ l ∈ block, ∀ x, ¬ Refers l x) :
    Covers register style [] defined block :=
  ⟨hnames, fun l hl x hx => absurd hx (h l hl x), by simp, by simp, by simp⟩

theorem covers_of_names {block : List Line} (h : names block = []) :
    Covers register style [] [] block :=
  covers_of_forall h fun _ hl x => not_refers_of_names h hl x

theorem Defined.append_left {block : List Line} {x : String} (h : Defined block x)
    (block' : List Line) : Defined (block ++ block') x := by
  rw [Defined, Among, names_append]
  exact h.imp (List.mem_append_left _) (List.mem_append_left _)

theorem Defined.append_right {block' : List Line} {x : String} (h : Defined block' x)
    (block : List Line) : Defined (block ++ block') x := by
  rw [Defined, Among, names_append]
  exact h.imp (List.mem_append_right _) (List.mem_append_right _)

/-- Lines one behind the other cover what each of them covers. -/
theorem Covers.append {fields fields' : List (String × Bitfield)} {defined defined' : List String}
    {block block' : List Line} (h : Covers register style fields defined block)
    (h' : Covers register style fields' defined' block') :
    Covers register style (fields ++ fields') (defined ++ defined') (block ++ block') := by
  refine ⟨?_, fun l hl x hx => ?_, fun m hm hform => ?_, fun m hm v hv => ?_, fun m hm => ?_⟩
  · rw [names_append, h.names_eq, h'.names_eq]
  · rcases List.mem_append.mp hl with hl | hl
    · rcases h.closed l hl x hx with hdefined | ⟨m, hm, hopen⟩
      · exact .inl (hdefined.append_left block')
      · exact .inr ⟨m, List.mem_append_left _ hm, hopen⟩
    · rcases h'.closed l hl x hx with hdefined | ⟨m, hm, hopen⟩
      · exact .inl (hdefined.append_right block)
      · exact .inr ⟨m, List.mem_append_right _ hm, hopen⟩
  · rcases List.mem_append.mp hm with hm | hm
    · exact (h.setters m hm hform).imp fun _ => List.mem_append_left _
    · exact (h'.setters m hm hform).imp fun _ => List.mem_append_right _
  · rcases List.mem_append.mp hm with hm | hm
    · exact List.mem_append_left _ (h.options m hm v hv)
    · exact List.mem_append_right _ (h'.options m hm v hv)
  · rcases List.mem_append.mp hm with hm | hm
    · exact List.mem_append_left _ (h.positions m hm)
    · exact List.mem_append_right _ (h'.positions m hm)

/-- Lines of parts that each cover some fields. -/
theorem exists_mapM_covers {α : Type} {f : α → Except Fault (List Line)}
    {fields : α → List (String × Bitfield)} {defined : α → List String} {xs : List α}
    (h : ∀ x ∈ xs, ∃ block, f x = .ok block ∧ Covers register style (fields x) (defined x) block) :
    ∃ blocks, xs.mapM f = .ok blocks ∧
      Covers register style (xs.flatMap fields) (xs.flatMap defined) blocks.flatten := by
  induction xs with
  | nil => exact ⟨[], rfl, covers_of_names rfl⟩
  | cons x xs ih =>
    obtain ⟨block, hx, hblock⟩ := h x List.mem_cons_self
    obtain ⟨blocks, hxs, hblocks⟩ := ih fun y hy => h y (List.mem_cons_of_mem x hy)
    refine ⟨block :: blocks, by rw [List.mapM_cons, hx, hxs]; rfl, ?_⟩
    rw [List.flatMap_cons, List.flatMap_cons, List.flatten_cons]
    exact hblock.append hblocks

/-! ### The lines of a field -/

/-- The definitions of a field refer to each other only. -/
theorem exists_fieldLines (h : style.layouts.Standard) (f : NamedField) (mode register : String)
    (full : Bool) :
    ∃ block, fieldLines f mode register style full = .ok block ∧
      Covers register style []
        (fieldNames (fieldBase register f.name mode style) (fieldForm f style full)) block ∧
      (fieldForm f style full = .value →
        Line.define (fieldBase register f.name mode style ++ "(value)")
          (setterText (fieldBase register f.name mode style)) ∈ block) := by
  obtain ⟨note, hnote⟩ := Layouts.exists_fieldCaption h register f.name f.caption
  refine ⟨_, fieldLines_eq h f mode register full hnote, ?_, fun hform => ?_⟩
  · generalize fieldBase register f.name mode style = base
    have hposition : ∀ x, ¬ Refers (.define (base ++ "_Pos") (positionText f.lsb) note) x :=
      fun x => not_refers_define (.inr (shift_notMem_positionText f.lsb))
    have hmask : ∀ name x, ¬ Refers (.define name (maskText f.mask)) x :=
      fun name x => not_refers_define (.inl (head?_maskText f.mask))
    cases fieldForm f style full with
    | plain => exact covers_of_forall rfl (by simp [maskLines, hposition, hmask])
    | mask => exact covers_of_forall rfl (by simp [maskLines, hposition, hmask])
    | value =>
      refine ⟨rfl, fun l hl x hx => .inl ?_, by simp, by simp, by simp⟩
      simp only [maskLines, List.mem_cons, List.not_mem_nil, or_false] at hl
      rcases hl with rfl | rfl | rfl
      · exact absurd hx (hposition x)
      · exact absurd hx (hmask _ x)
      · rcases hx.of_setter with rfl | rfl <;> simp [Defined, Among, maskLines]
  · rw [hform]
    simp [maskLines]

theorem names_optionLines (base : String) (values : List NamedValue) :
    names (values.map (valueLine base style) ++ values.map (placedLine base style))
      = optionNames base style values := by
  have hvalue : ∀ v, names [valueLine base style v]
      = ["  " ++ base ++ optionName v style ++ "_Val"] := fun _ => rfl
  have hplaced : ∀ v, names [placedLine base style v] = [base ++ optionName v style] := fun _ => rfl
  rw [names_append, names_map hvalue, names_map hplaced, optionNames]

/-- The value of every option is among the names of `optionNames`. -/
theorem value_mem_optionNames (base : String) {values : List NamedValue} {v : NamedValue}
    (hv : v ∈ values) :
    "  " ++ (base ++ optionName v style ++ "_Val") ∈ optionNames base style values := by
  refine List.mem_append_left _ (List.mem_map.mpr ⟨v, hv, ?_⟩)
  simp only [String.append_assoc]

/-- The definitions of a field and of its options. -/
theorem exists_bitfieldLines (h : style.layouts.Standard) (f : Bitfield) (mode register : String) :
    ∃ block, (do
        let definitions ← fieldLines f.toNamed mode register style
        let options ← optionLines f mode register style
        return definitions ++ options) = .ok block ∧
      Covers register style [(mode, f)] (bitfieldNames register style (mode, f)) block := by
  obtain ⟨definitions, hdefinitions, hcovers, hsetter⟩ :=
    exists_fieldLines h f.toNamed mode register false
  refine ⟨_, by rw [hdefinitions, optionLines_eq h f mode register]; rfl, ?_⟩
  have hnames := @names_optionLines style (optionBase register f.name mode style) f.values
  -- in the order of the fields of `Covers`: names, references, value macros, options, positions
  refine ⟨by rw [names_append, hcovers.names_eq, hnames]; rfl, fun l hl x hx => ?_, ?_, ?_, ?_⟩
  · rcases List.mem_append.mp hl with hl | hl
    · rcases hcovers.closed l hl x hx with hdefined | ⟨m, hm, -⟩
      · exact .inl (hdefined.append_left _)
      · cases hm
    · rcases List.mem_append.mp hl with hl | hl
      · obtain ⟨v, hv, rfl⟩ := List.mem_map.mp hl
        exact absurd hx (not_refers_define (.inl (by simp)))
      · obtain ⟨v, hv, rfl⟩ := List.mem_map.mp hl
        rcases Refers.of_option hx with rfl | rfl
        · refine .inl (Defined.append_right (.inr ?_) definitions)
          rw [hnames]
          exact value_mem_optionNames _ hv
        · exact .inr ⟨(mode, f), List.mem_singleton_self _, List.ne_nil_of_mem hv, rfl⟩
  · intro m hm hform
    rw [List.mem_singleton.mp hm] at hform ⊢
    exact ⟨"", List.mem_append_left _ (hsetter hform)⟩
  · intro m hm v hv
    rw [List.mem_singleton.mp hm] at hv ⊢
    exact List.mem_append_right _ (List.mem_append_right _ (List.mem_map_of_mem hv))
  · intro m hm
    rw [List.mem_singleton.mp hm]
    refine List.mem_append_left _ ?_
    cases fieldForm f.toNamed style false <;> simp [fieldNames]

/-! ### The block -/

theorem covers_masks (start note : String) (mask : Int) (endings : List String) :
    Covers register style [] (endings.map fun ending => start ++ ending)
      (endings.map fun ending => .define (start ++ ending) (maskText mask) note) := by
  refine covers_of_forall (names_map (fun _ => rfl) endings) fun l hl x => ?_
  obtain ⟨ending, -, rfl⟩ := List.mem_map.mp hl
  exact not_refers_define (.inl (head?_maskText mask))

/-- The bitfields of a mode, with the mode. -/
def modeFields (m : String × List Bitfield) : List (String × Bitfield) :=
  m.2.map fun f => (m.1, f)

/-- The lines for the fields of one mode cover them. -/
theorem exists_modeLines (h : style.layouts.Standard) (r : Register) (name : String)
    (several : Bool) (m : String × List Bitfield) :
    ∃ block, modeLines r name several m.1 m.2 style = .ok block ∧
      Covers name style (modeFields m) (modeNames name style several m) block := by
  obtain ⟨body, hbody, hcovers⟩ :=
    exists_mapM_covers fun f (_ : f ∈ m.2) => exists_bitfieldLines h f m.1 name
  rw [← List.map_eq_flatMap] at hcovers
  have hspace : Covers name style [] [] (if style.modeAware then [Line.blank] else []) := by
    refine covers_of_names ?_
    split <;> rfl
  cases hseveral : several && style.modeAware with
  | false =>
    refine ⟨_, by simp only [modeLines, hbody, hseveral]; rfl, ?_⟩
    simpa [modeNames, modeFields, hseveral] using hcovers.append hspace
  | true =>
    have htitle : Covers name style [] [] [Line.text ("/* " ++ m.1 ++ " mode */")] :=
      covers_of_names rfl
    have hmasks := @covers_masks name style (name ++ "_" ++ m.1)
      (name ++ " mask for mode " ++ m.1) (r.maskByMode m.1 style.coalesceModes) style.maskMacros
    refine ⟨_, by simp only [modeLines, hbody, hseveral, masks_eq h]; rfl, ?_⟩
    simpa [modeNames, modeFields, hseveral] using
      ((htitle.append hcovers).append hmasks).append hspace

theorem exists_registerLines (h : style.layouts.Standard) (r : Register) (name : String) :
    ∃ block, registerLines r name style = .ok block ∧
      Covers name style [] ([name ++ style.offsetMacro, name ++ "_RESETVALUE"]
        ++ style.maskMacros.map (name ++ ·)) block := by
  refine ⟨_, registerLines_eq h r name, ?_⟩
  have hfirst : Covers name style [] [name ++ style.offsetMacro, name ++ "_RESETVALUE"]
      [.define (name ++ style.offsetMacro) (offsetText r.offset) (name ++ " offset"),
        .define (name ++ "_RESETVALUE") (maskText r.initval) (name ++ " reset value")] := by
    refine covers_of_forall rfl fun l hl x => ?_
    rw [List.mem_pair] at hl
    rcases hl with rfl | rfl
    · exact not_refers_define (.inr (shift_notMem_offsetText r.offset))
    · exact not_refers_define (.inl (head?_maskText r.initval))
  have hmasks := @covers_masks name style name (name ++ " mask") r.mask style.maskMacros
  have hblank : Covers name style [] [] [Line.blank] := covers_of_names rfl
  simpa using (hfirst.append hmasks).append hblank

/-- The lines for the vector fields refer to each other only. -/
theorem exists_vectorLines (h : style.layouts.Standard) (vectors : List Field) (name : String) :
    ∃ block, vectorLines vectors name style = .ok block ∧
      Covers name style [] (vectorNames name style vectors) block := by
  have hfields : ∀ f ∈ Field.namedOnly vectors, ∃ block,
      fieldLines f "" name style true = .ok block ∧
        Covers name style [] (fieldNames (fieldBase name f.name "" style) .value) block := by
    intro f _
    obtain ⟨block, hblock, hcovers, -⟩ := exists_fieldLines h f "" name true
    exact ⟨block, hblock, hcovers⟩
  obtain ⟨body, hbody, hcovers⟩ := exists_mapM_covers hfields
  rw [List.flatMap_eq_nil_iff.mpr fun _ _ => rfl] at hcovers
  have hblank : Covers name style [] [] [Line.blank] := covers_of_names rfl
  have hall : Covers name style [] (vectorNames name style vectors)
      (body.flatten ++ [Line.blank]) := by
    simpa [vectorNames] using hcovers.append hblank
  cases haware : style.modeAware with
  | true =>
    refine ⟨_, by simp only [vectorLines, hbody, haware]; rfl, ?_⟩
    cases hfields : Field.namedOnly vectors with
    | nil =>
      rw [vectorNames, hfields]
      exact covers_of_names rfl
    | cons f rest => exact hall
  | false =>
    have hspace : Covers name style [] []
        (if vectors.isEmpty then [] else [Line.blank]) := by
      refine covers_of_names ?_
      split <;> rfl
    refine ⟨_, by simp only [vectorLines, hbody, haware]; rfl, ?_⟩
    rw [List.append_assoc]
    exact hspace.append hall

/-- **A block defines the names of `blockNames`, holds every value macro and every option, and
refers to no undefined names but positions of options.** -/
theorem lines_covers (h : style.layouts.Standard) (r : Register) (groupMode start : String) :
    ∃ block, lines r groupMode start style = .ok block ∧
      Covers (style.convention.qualifiedRegisterName r groupMode start) style
        ((r.modeTable style.coalesceModes).flatMap modeFields)
        (blockNames r groupMode start style) block := by
  simp only [lines, blockNames]
  generalize style.convention.qualifiedRegisterName r groupMode start = name
  generalize r.modeTable style.coalesceModes = modes
  generalize vectorsOf modes style = vectors
  obtain ⟨title, htitle⟩ := Layouts.exists_registerCaption h r name
  obtain ⟨union, hunion, hunionNames⟩ := exists_unionLines h r groupMode modes vectors
  obtain ⟨whole, hwhole, hwholeCovers⟩ := exists_registerLines h r name
  obtain ⟨body, hbody, hbodyCovers⟩ := exists_mapM_covers fun m (_ : m ∈ modes) =>
    exists_modeLines h r name (decide (1 < modes.length)) m
  obtain ⟨vector, hvector, hvectorCovers⟩ := exists_vectorLines h vectors name
  -- everything but the union of the register, which defines nothing
  have hcovers : ∀ front, names front = [] → Covers name style (modes.flatMap modeFields)
      ([name ++ style.offsetMacro, name ++ "_RESETVALUE"] ++ style.maskMacros.map (name ++ ·)
        ++ modes.flatMap (modeNames name style (decide (1 < modes.length)))
        ++ vectorNames name style vectors)
      (.text title :: (front ++ whole ++ body.flatten ++ vector)) := by
    intro front hfront
    have htext : Covers name style [] [] (.text title :: front) := covers_of_names hfront
    simpa using ((htext.append hwholeCovers).append hbodyCovers).append hvectorCovers
  cases hunions : style.registerUnions with
  | true =>
    refine ⟨_, ?_, hcovers union hunionNames⟩
    simp only [h.names, htitle, hunion, hwhole, hbody, hvector, if_true]
    rfl
  | false =>
    refine ⟨_, ?_, hcovers [] rfl⟩
    simp only [h.names, htitle, hwhole, hbody, hvector, Bool.false_eq_true, if_false]
    rfl

/-! ### Self-contained blocks -/

/-- A block is self-contained exactly if it defines the positions that options refer to. -/
theorem Covers.selfContained_iff {fields : List (String × Bitfield)} {defined : List String}
    {block : List Line} (h : Covers register style fields defined block) :
    SelfContained block ↔ ∀ m ∈ fields, m.2.values ≠ [] →
      Defined block (optionBase register m.2.name m.1 style ++ "Pos") := by
  constructor
  · intro hself m hm hvalues
    obtain ⟨v, hv⟩ := List.exists_mem_of_ne_nil _ hvalues
    exact hself _ (h.options m hm v hv) _ (.optionPosition _ _ _)
  · intro hpositions l hl x hx
    rcases h.closed l hl x hx with hdefined | ⟨m, hm, hvalues, rfl⟩
    · exact hdefined
    · exact hpositions m hm hvalues

/-- Options refer to the position of their field under its own name, if they carry the mode or the
field is in no mode of its own. -/
theorem optionBase_append {mode : String} (field : String)
    (h : style.modeAware = true ∨ Mode.isDefault mode = true) :
    optionBase register field mode style ++ "Pos"
      = fieldBase register field mode style ++ "_Pos" := by
  have hbase :
      optionBase register field mode style = fieldBase register field mode style ++ "_" := by
    unfold optionBase fieldBase
    rcases h with h | h <;> simp [h]
  rw [hbase, String.append_assoc]
  rfl

/-- **The presets write a block for every register, with all its value macros and options.  It is
self-contained exactly if it happens to define, for every field with options in a mode of its own,
the position of that field without the mode, unless names of options carry the mode.** -/
theorem lines_selfContained_iff {style : Style} (hstyle : style ∈ Style.presets) (r : Register)
    (groupMode start : String) :
    ∃ block, lines r groupMode start style = .ok block ∧
      Covers (style.convention.qualifiedRegisterName r groupMode start) style
        ((r.modeTable style.coalesceModes).flatMap modeFields)
        (blockNames r groupMode start style) block ∧
      (SelfContained block ↔ (style.modeAware = false →
        ∀ m ∈ r.modeTable style.coalesceModes, Mode.isDefault m.1 = false →
          ∀ f ∈ m.2, f.values ≠ [] → Among (blockNames r groupMode start style)
            (style.convention.qualifiedRegisterName r groupMode start
              ++ "_" ++ f.name ++ "_Pos"))) := by
  obtain ⟨block, hblock, hcovers⟩ :=
    lines_covers (Style.standard_of_mem_presets hstyle) r groupMode start
  refine ⟨block, hblock, hcovers, ?_⟩
  rw [hcovers.selfContained_iff, ← hcovers.names_eq]
  constructor
  · intro hpositions haware m hm _ f hf hvalues
    have hfield : (m.1, f) ∈ (r.modeTable style.coalesceModes).flatMap modeFields :=
      List.mem_flatMap.mpr ⟨m, hm, List.mem_map_of_mem hf⟩
    have hdefined := hpositions _ hfield hvalues
    rwa [optionBase, haware, if_neg Bool.false_ne_true, String.append_assoc] at hdefined
  · intro hpositions m' hm' hvalues
    obtain ⟨m, hm, hfield⟩ := List.mem_flatMap.mp hm'
    obtain ⟨f, hf, rfl⟩ := List.mem_map.mp hfield
    by_cases hown : style.modeAware = true ∨ Mode.isDefault m.1 = true
    · -- the field defines the position itself
      rw [optionBase_append _ hown]
      have hposition := hcovers.positions _ hm'
      rw [← hcovers.names_eq] at hposition
      exact .inl hposition
    · rw [not_or, Bool.not_eq_true, Bool.not_eq_true] at hown
      rw [optionBase, hown.1, if_neg Bool.false_ne_true, String.append_assoc]
      exact hpositions hown.1 m hm hown.2 f hf hvalues

/-- A field with an option, in a mode of its own. -/
def countingField : Bitfield :=
  { name := "MODE", mask := 3, modes := ["COUNT8"], values := [{ name := "A", value := "0x0" }] }

/-- The control register of a timer with that field. -/
def counterControl : Register :=
  { name := "CTRLA", owner := "TC", bitfields := [countingField] }

theorem modeTable_counterControl :
    counterControl.modeTable Style.atmel.coalesceModes = [("COUNT8", [countingField])] := by cbv

theorem qualifiedRegisterName_counterControl :
    Style.atmel.convention.qualifiedRegisterName counterControl Mode.default_ "" = "TC_CTRLA" := by
  cbv

/-- The position of the field stands under the name with the mode only. -/
theorem blockNames_counterControl :
    blockNames counterControl Mode.default_ "" Style.atmel
      = ["TC_CTRLA_OFFSET", "TC_CTRLA_RESETVALUE", "TC_CTRLA_MASK", "TC_CTRLA_COUNT8_MODE_Pos",
        "TC_CTRLA_COUNT8_MODE_Msk", "TC_CTRLA_COUNT8_MODE(value)", "  TC_CTRLA_MODE_A_Val",
        "TC_CTRLA_MODE_A"] := by
  have hsorted : Bitfield.sorted [countingField] = [countingField] := List.mergeSort_singleton _
  have hvectors : vectorsOf [("COUNT8", [countingField])] Style.atmel = [] := by
    rw [vectorsOf, Bitfield.vectorFields, Bitfield.vectors, hsorted]
    decide +kernel
  rw [blockNames, qualifiedRegisterName_counterControl, modeTable_counterControl, hvectors]
  decide +kernel

/-- The presets write the block of the control register, as they do for every register. -/
theorem counterControl_selfContained_iff :
    Style.atmel ∈ Style.presets ∧
    ∃ block, lines counterControl Mode.default_ "" Style.atmel = .ok block ∧
      Covers (Style.atmel.convention.qualifiedRegisterName counterControl Mode.default_ "")
        Style.atmel
        ((counterControl.modeTable Style.atmel.coalesceModes).flatMap modeFields)
        (blockNames counterControl Mode.default_ "" Style.atmel) block ∧
      (SelfContained block ↔ (Style.atmel.modeAware = false →
        ∀ m ∈ counterControl.modeTable Style.atmel.coalesceModes, Mode.isDefault m.1 = false →
          ∀ f ∈ m.2, f.values ≠ [] →
            Among (blockNames counterControl Mode.default_ "" Style.atmel)
              (Style.atmel.convention.qualifiedRegisterName counterControl Mode.default_ ""
                ++ "_" ++ f.name ++ "_Pos"))) := by
  have hstyle : Style.atmel ∈ Style.presets := List.mem_cons_of_mem _ List.mem_cons_self
  exact ⟨hstyle, lines_selfContained_iff hstyle counterControl Mode.default_ ""⟩

/-- The option of the control register refers to a position that its block does not define. -/
theorem counterControl_not_selfContained :
    ∃ block, lines counterControl Mode.default_ "" Style.atmel = .ok block ∧
      (∃ l ∈ block, Refers l "TC_CTRLA_MODE_Pos") ∧ ¬ Defined block "TC_CTRLA_MODE_Pos" ∧
      ¬ SelfContained block := by
  obtain ⟨block, hblock, hcovers⟩ := lines_covers
    (Style.standard_of_mem_presets (List.mem_cons_of_mem _ List.mem_cons_self))
    counterControl Mode.default_ ""
  have hfields : (counterControl.modeTable Style.atmel.coalesceModes).flatMap modeFields
      = [("COUNT8", countingField)] := by
    rw [modeTable_counterControl]
    rfl
  have hplaced := hcovers.options ("COUNT8", countingField) (hfields ▸ List.mem_cons_self)
    { name := "A", value := "0x0" } List.mem_cons_self
  have hrefers : ∃ l ∈ block, Refers l "TC_CTRLA_MODE_Pos" := by
    rw [qualifiedRegisterName_counterControl] at hplaced
    exact ⟨_, hplaced, .optionPosition "TC_CTRLA_MODE_" "A" ""⟩
  -- the name stands in no line, indented or not
  have hdefined : ¬ Defined block "TC_CTRLA_MODE_Pos" := by
    rw [Defined, hcovers.names_eq, blockNames_counterControl]
    decide
  obtain ⟨l, hl, hx⟩ := hrefers
  exact ⟨block, hblock, ⟨l, hl, hx⟩, hdefined, fun hself => hdefined (hself l hl _ hx)⟩

end ChipSupport.RegisterBlock
