import ChipSupport.Proofs.Formula
import ChipSupport.Proofs.Mode
import ChipSupport.Proofs.Register.VectorBits
import ChipSupport.Proofs.RegisterBlock.ClosedForm

/-!
# Words of a register

A program puts the word of a register together from the values of its fields: each value is shifted
to the position of its field, cut by the mask of the field, and joined with the others.  The
position and the mask are numbers that the block of the register defines, and the value macro of a
field names both.

## Main definitions

* `Bitfield.InBlocks` — bitfields that are blocks without a common bit.
* `RegisterBlock.number` — the number of a name that lines define.
* `RegisterBlock.Defines` — lines that define the position, the mask and the value macro of a field.

## Main results

* `RegisterBlock.defines_fieldLines` — the definitions of a field.
* `Register.separate_of_mem_modeTable` — the fields of a mode share no bit.
* `RegisterBlock.setters_compose` — **what is put into the fields of a word is read from them, and a
  vector field writes the bits that it is made of.**
-/

namespace ChipSupport

/-- Bitfields that are blocks of bits without a common bit. -/
structure Bitfield.InBlocks (fs : List Bitfield) : Prop where
  /-- Every bitfield is a block. -/
  block : ∀ f ∈ fs, ∃ p w : Nat, 0 < w ∧ f.mask = Bits.block p w
  /-- No two bitfields have a bit in common. -/
  disjoint : fs.Pairwise fun f g => Bits.conj f.mask g.mask = 0

namespace Register

/-- The fields of a mode share no bit if no fields of the register do. -/
theorem separate_of_mem_modeTable {r : Register} {width : Nat}
    (h : Bitfield.Separate width r.bitfields) {coalesce : Bool} {m : String × List Bitfield}
    (hm : m ∈ r.modeTable coalesce) : m.2 ⊆ r.bitfields ∧ Bitfield.Separate width m.2 := by
  have hmode (mode : String) : fieldsIn r.bitfields mode ⊆ r.bitfields ∧
      Bitfield.Separate width (fieldsIn r.bitfields mode) := by
    have hsub : fieldsIn r.bitfields mode ⊆ r.bitfields := fun f hf =>
      List.mem_of_mem_filter (Bitfield.mem_sorted.mp hf)
    refine ⟨hsub, fun f hf => h.pos f (hsub hf), fun f hf => h.below f (hsub hf), ?_⟩
    exact Bits.pairwise_conj_of_perm (List.mergeSort_perm _ _).symm (h.disjoint.filter _)
  have htable : ∀ e ∈ (modeNames r.bitfields).map fun mode => (mode, fieldsIn r.bitfields mode),
      e.2 ⊆ r.bitfields ∧ Bitfield.Separate width e.2 :=
    List.forall_mem_map.mpr fun mode _ => hmode mode
  rw [modeTable] at hm
  split at hm
  next =>
    rw [List.mem_singleton] at hm
    subst hm
    exact ⟨List.nil_subset _, List.forall_mem_nil _, List.forall_mem_nil _, List.Pairwise.nil⟩
  next =>
    dsimp only at hm
    split at hm
    · obtain ⟨e, he, hmembers, -⟩ := Mode.exists_of_mem_coalesce hm
      exact hmembers ▸ htable e he
    · exact htable m hm

end Register

namespace RegisterBlock

/-! ### Definitions of a field -/

/-- The number of a name that lines define, where no other name is needed. -/
def number (block : List Line) (name : String) : Option Int :=
  ((definitions block).lookup name).bind (Formula.evaluate fun _ => none)

/-- The numbers of the names in a value macro: its argument, and what lines define. -/
def macroNumber (block : List Line) (argument : Nat) (name : String) : Option Int :=
  if name = "value" then some argument else number block name

/-- The name that the mask of a field has. -/
def maskName (base : String) : SingleBit → String
  | .plain => base
  | .mask | .value => base ++ "_Msk"

/-- Lines that define the position and the mask of a field, and its value macro if it has one.  A
value macro can be expanded if the names of the field are symbols. -/
structure Defines (block : List Line) (base : String) (form : SingleBit) (f : NamedField) :
    Prop where
  /-- The position. -/
  position : number block (base ++ "_Pos") = some f.lsb
  /-- The mask. -/
  mask : number block (maskName base form) = some f.mask
  /-- The value macro. -/
  setter : form = .value → Formula.IsSymbol base → ∀ v : Nat,
    ((definitions block).lookup (base ++ "(value)")).bind (Formula.evaluate (macroNumber block v))
      = some (Bits.conj f.mask (Bits.shiftLeft v f.lsb.toNat))

theorem lookup_ending {base name ending value : String} {rest : List (String × String)}
    (h : name ≠ ending) :
    ((base ++ ending, value) :: rest).lookup (base ++ name) = rest.lookup (base ++ name) := by
  have hne : base ++ name ≠ base ++ ending := by
    rw [Ne, ← String.toList_inj, String.toList_append, String.toList_append]
    rwa [List.append_cancel_left_eq, String.toList_inj]
  rw [List.lookup_cons, beq_false_of_ne hne]

theorem ne_value {base ending : String} {c : Char} (h : ending.toList.getLast? = some c)
    (hc : c ≠ 'e') : base ++ ending ≠ "value" := by
  intro heq
  have hlast := congrArg (fun s => s.toList.getLast?) heq
  have hvalue : "value".toList.getLast? = some 'e' := rfl
  simp only [String.toList_append, List.getLast?_append, h, Option.some_or, hvalue] at hlast
  exact hc (Option.some.inj hlast)

section Field

variable (register : String) (style : Style) (mode : String) (f : NamedField) (full : Bool)

theorem number_position (hlsb : 0 ≤ f.lsb) :
    number (fieldBlock register style mode f full) (fieldBase register f.name mode style ++ "_Pos")
      = some f.lsb := by
  have hlookup : (definitions (fieldBlock register style mode f full)).lookup
      (fieldBase register f.name mode style ++ "_Pos") = some (positionText f.lsb) :=
    List.lookup_cons_self
  obtain ⟨p, hp⟩ := Int.eq_ofNat_of_zero_le hlsb
  rw [number, hlookup, Option.bind_some, hp]
  exact Formula.evaluate_decimal _ p

theorem number_mask (hmask : 0 ≤ f.mask) :
    number (fieldBlock register style mode f full)
        (maskName (fieldBase register f.name mode style) (fieldForm f style full))
      = some f.mask := by
  have hlookup : (definitions (fieldBlock register style mode f full)).lookup
      (maskName (fieldBase register f.name mode style) (fieldForm f style full))
        = some (maskText f.mask) := by
    have hplain : "" ≠ "_Pos" := by decide
    have hmasked : "_Msk" ≠ "_Pos" := by decide
    rw [fieldBlock]
    generalize fieldBase register f.name mode style = base
    cases fieldForm f style full with
    | plain =>
      have hbase : ((base ++ "_Pos", positionText f.lsb) :: [(base, maskText f.mask)]).lookup
          (base ++ "") = [(base, maskText f.mask)].lookup (base ++ "") := lookup_ending hplain
      rw [String.append_empty] at hbase
      exact hbase.trans List.lookup_cons_self
    | mask => exact (lookup_ending hmasked).trans List.lookup_cons_self
    | value => exact (lookup_ending hmasked).trans List.lookup_cons_self
  obtain ⟨n, hn⟩ := Int.eq_ofNat_of_zero_le hmask
  rw [number, hlookup, Option.bind_some, hn]
  exact Formula.evaluate_hex _ n 0

/-- The value macro of a field cuts its argument by the mask, after it was shifted to the
position. -/
theorem evaluate_setterText {base : String} (hbase : Formula.IsSymbol base)
    {symbols : String → Option Int} {m a : Int} {p : Nat} (hm : symbols (base ++ "_Msk") = some m)
    (ha : symbols "value" = some a) (hp : symbols (base ++ "_Pos") = some p) :
    Formula.evaluate symbols (setterText base) = some (Bits.conj m (Bits.shiftLeft a p)) := by
  have htext : setterText base
      = "(" ++ (base ++ "_Msk") ++ " & ((" ++ "value" ++ ") << " ++ (base ++ "_Pos") ++ "))" := by
    simp [setterText, ← String.toList_inj]
  rw [htext]
  exact Formula.evaluate_masked (hbase.append (by decide) (by decide)) (by decide)
    (hbase.append (by decide) (by decide)) hm ha hp

/-- **The lines of a field define its position, its mask and its value macro.** -/
theorem defines_fieldLines {style : Style} (hlayouts : style.layouts.Standard) (hlsb : 0 ≤ f.lsb)
    (hmask : 0 ≤ f.mask) :
    ∃ block, fieldLines f mode register style full = .ok block ∧
      Defines block (fieldBase register f.name mode style) (fieldForm f style full) f := by
  refine ⟨_, fieldLines_closed register hlayouts mode f full,
    number_position register style mode f full hlsb,
    number_mask register style mode f full hmask, ?_⟩
  intro hform hbase v
  have hpositionNumber := number_position register style mode f full hlsb
  have hmaskNumber := number_mask register style mode f full hmask
  have hpos : "(value)" ≠ "_Pos" := by decide
  have hmsk : "(value)" ≠ "_Msk" := by decide
  have hlookup : (definitions (fieldBlock register style mode f full)).lookup
      (fieldBase register f.name mode style ++ "(value)")
        = some (setterText (fieldBase register f.name mode style)) := by
    rw [fieldBlock, hform]
    exact (lookup_ending hpos).trans ((lookup_ending hmsk).trans List.lookup_cons_self)
  obtain ⟨p, hp⟩ := Int.eq_ofNat_of_zero_le hlsb
  rw [hform] at hmaskNumber
  rw [hlookup, Option.bind_some, hp, Int.toNat_natCast]
  refine evaluate_setterText hbase ?_ ?_ ?_
  · rw [macroNumber, if_neg (ne_value rfl (by decide))]
    exact hmaskNumber
  · rw [macroNumber, if_pos rfl]
  · rw [macroNumber, if_neg (ne_value rfl (by decide)), hpositionNumber, hp]
    rfl

end Field

/-! ### Words of a register -/

/-- **Setters compose.**  In a register whose fields are blocks without a common bit, every field
has a position and a mask that the lines of the field define.  From the word that is put together of
values, each value is read as far as it fits into its field, and no bit outside of the mask of the
register is set.  A vector field is made of numbered bits, lowest first, and sets those of them
whose number among the bits is a bit of its value. -/
theorem setters_compose {r : Register} {style : Style} (hlayouts : style.layouts.Standard)
    (hfields : Bitfield.InBlocks r.bitfields) (register : String) :
    (∀ f ∈ r.bitfields, ∀ mode, ∃ block,
      fieldLines f.toNamed mode register style = .ok block ∧
      Defines block (fieldBase register f.name mode style) (fieldForm f.toNamed style false)
        f.toNamed) ∧
    (∀ v : Bitfield → Nat,
      let word := Bits.union
        (r.bitfields.map fun f => Bits.conj f.mask (Bits.shiftLeft (v f) f.lsb.toNat))
      (∀ f ∈ r.bitfields,
        Bits.conj (word >>> f.lsb.toNat) (Bits.ones f.width) = (v f % 2 ^ f.width : Nat)) ∧
      Bits.conj word (Bits.compl r.mask) = 0) ∧
    ∀ coalesce policy, ∀ m ∈ r.modeTable coalesce,
      ∀ vector ∈ Field.namedOnly (Bitfield.vectorFields m.2 policy),
        (∃ block, fieldLines vector "" register style true = .ok block ∧
          Defines block (fieldBase register vector.name "" style) .value vector) ∧
        (let bits := Bitfield.bitsOf m.2 vector
        bits ≠ [] ∧ bits.Pairwise (fun f g => f.lsb < g.lsb) ∧
        (∀ f ∈ bits, f ∈ r.bitfields ∧ f.width = 1 ∧ baseName f.name = vector.name) ∧
        ∀ n : Nat, Bits.conj vector.mask (Bits.shiftLeft n vector.lsb.toNat)
          = Bits.union ((bits.zipIdx.filter fun b => n.testBit b.2).map fun b => b.1.mask)) := by
  have hpos : ∀ f ∈ r.bitfields, 0 < f.mask := by
    intro f hf
    obtain ⟨p, w, hw, hmask⟩ := hfields.block f hf
    exact hmask ▸ Bits.block_pos hw
  refine ⟨fun f hf mode => ?_, fun v => ⟨fun f hf => ?_, ?_⟩, ?_⟩
  · exact defines_fieldLines register mode f.toNamed false hlayouts
      (Bits.lowest_nonneg (hpos f hf)) (hpos f hf).le
  · obtain ⟨p, w, hw, hmask⟩ := hfields.block f hf
    have hlsb : f.lsb.toNat = p := by
      rw [Bitfield.lsb, hmask, Bits.lowest_block hw, Int.toNat_natCast]
    have hwidth : f.width = w := by rw [Bitfield.width, hmask, Bits.population_block hw]
    rw [hlsb, hwidth]
    exact Bits.conj_shiftRight_union hfields.disjoint v hf hw hmask
  · exact Bits.conj_union_compl (fun f hf => (hpos f hf).le) v
  · intro coalesce policy m hm vector hvector
    obtain ⟨width, hseparate⟩ := Bitfield.exists_separate hpos hfields.disjoint
    obtain ⟨hsub, hmode⟩ := Register.separate_of_mem_modeTable hseparate hm
    obtain ⟨start, hmade⟩ := Bitfield.exists_madeOf hmode (Bitfield.mem_vectors hvector)
    have hform : fieldForm vector style true = .value := rfl
    refine ⟨hform ▸ defines_fieldLines register "" vector true hlayouts
      (Bits.lowest_nonneg hmade.mask_pos) hmade.mask_pos.le,
      List.ne_nil_of_length_pos hmade.length_pos, hmode.ascending.filter _, fun f hf => ?_,
      hmade.placed_eq⟩
    obtain ⟨hbit, hname⟩ := hmade.numbered f hf
    rw [Bitfield.isNumberedBit, Bool.and_eq_true, beq_iff_eq] at hbit
    exact ⟨hsub (Bitfield.mem_sorted.mp (List.mem_of_mem_filter hf)), hbit.2, hname⟩

/-- A wide field and numbered bits above it. -/
def eventBits : List Bitfield :=
  [{ name := "EVACT", mask := 0x7 }, { name := "EVEI0", mask := 0x8 },
    { name := "EVEI1", mask := 0x10 }, { name := "EVEI2", mask := 0x20 }]

/-- A register in which the bits are not listed in their order. -/
def eventControl : Register :=
  { name := "EVCTRL", owner := "EIC"
    bitfields :=
      [{ name := "EVEI1", mask := 0x10 }, { name := "EVACT", mask := 0x7 },
        { name := "EVEI2", mask := 0x20 }, { name := "EVEI0", mask := 0x8 }] }

theorem modeTable_eventControl : eventControl.modeTable false = [(Mode.default_, eventBits)] := by
  cbv

theorem vectorFields_eventBits :
    Bitfield.vectorFields eventBits .drop = [.named ⟨"EVEI", 0x38, ""⟩] := by
  have hsorted : Bitfield.sorted eventBits = eventBits := by cbv
  have hvectors : Bitfield.vectorsFrom none 0 eventBits = [⟨"EVEI", 0x38, ""⟩] := by decide +kernel
  rw [Bitfield.vectorFields, Bitfield.vectors, hsorted, hvectors]
  rfl

/-- Values of four fields make a word of the register, and the number five sets the events `0` and
`2`. -/
theorem setters_compose_eventControl :
    Style.microchip.layouts.Standard ∧ Bitfield.InBlocks eventControl.bitfields ∧
    (∀ v : Bitfield → Nat,
      let word := Bits.union
        (eventControl.bitfields.map fun f => Bits.conj f.mask (Bits.shiftLeft (v f) f.lsb.toNat))
      (∀ f ∈ eventControl.bitfields,
        Bits.conj (word >>> f.lsb.toNat) (Bits.ones f.width) = (v f % 2 ^ f.width : Nat)) ∧
      Bits.conj word (Bits.compl eventControl.mask) = 0) ∧
    ∃ vector ∈ Field.namedOnly (Bitfield.vectorFields eventBits .drop),
      vector.name = "EVEI" ∧
      Bits.conj vector.mask (Bits.shiftLeft (5 : Nat) vector.lsb.toNat)
        = Bits.union [0x8, 0x20] := by
  have hlayouts := Style.standard_of_mem_presets (show Style.microchip ∈ Style.presets by
    simp [Style.presets])
  have hfields : Bitfield.InBlocks eventControl.bitfields := by
    refine ⟨?_, by decide⟩
    simp only [eventControl, List.forall_mem_cons]
    exact ⟨⟨4, 1, by decide, rfl⟩, ⟨0, 3, by decide, rfl⟩, ⟨5, 1, by decide, rfl⟩,
      ⟨3, 1, by decide, rfl⟩, List.forall_mem_nil _⟩
  obtain ⟨-, hwords, hvectors⟩ := setters_compose hlayouts hfields "EIC_EVCTRL"
  have hvector : (⟨"EVEI", 0x38, ""⟩ : NamedField)
      ∈ Field.namedOnly (Bitfield.vectorFields eventBits .drop) := by
    rw [vectorFields_eventBits]
    exact List.mem_singleton_self _
  have hmode : (Mode.default_, eventBits) ∈ eventControl.modeTable false := by
    rw [modeTable_eventControl]
    exact List.mem_singleton_self _
  obtain ⟨-, -, -, -, hplaced⟩ := hvectors false .drop _ hmode _ hvector
  refine ⟨hlayouts, hfields, hwords, _, hvector, rfl, (hplaced 5).trans ?_⟩
  cbv

end RegisterBlock

end ChipSupport
