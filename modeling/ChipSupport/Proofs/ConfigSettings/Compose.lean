import ChipSupport.Header.ConfigSettings
import ChipSupport.Proofs.ConfigSettings.Expression
import ChipSupport.Proofs.Device.Config
import ChipSupport.Proofs.Steps

/-!
# Settings joined by `&`

The macros of a field stand for words whose bits outside of the field are all set.  So `&` of the
settings of disjoint fields keeps each of them, and leaves all other bits set.

## Main definitions

* `ConfigField.FitsWord`, `ConfigField.ByDigits` — fields of a word whose numbers have bits.
* `ConfigSettings.Setting` — the macros that set a field to a value.

## Main results

* `ConfigSettings.testBit_valueWord` — the bits of a setting.
* `ConfigSettings.number_valueLine`, `number_optionLine` — the numbers of the macros.
* `ConfigSettings.settings_compose` — **settings of disjoint fields compose.**
-/

namespace ChipSupport

/-- A field that has a place in a word of 32 bits. -/
structure ConfigField.FitsWord (f : ConfigField) : Prop extends f.Placed where
  end_le : f.position + f.width ≤ 32

/-- A field whose numbers are written by their digits, and so have bits. -/
structure ConfigField.ByDigits (f : ConfigField) : Prop where
  position_digits : f.positionWriting = .digits
  width_digits : f.widthWriting = .digits
  options_digits : ∀ o ∈ f.options, o.valueWriting = .digits

namespace ConfigSettings

variable {r : ConfigRegister} {f : ConfigField}

/-! ### Bits of a setting -/

theorem testBit_word (k : Nat) : (0xFFFFFFFF : Int).testBit k = decide (k < 32) :=
  Bits.testBit_ones 32 k

theorem testBit_mask (f : ConfigField) (k : Nat) : f.mask.testBit k
    = decide (f.position.toNat ≤ k ∧ k < f.position.toNat + f.width.toNat) :=
  Bits.testBit_block k

theorem otherBits_nonneg (f : ConfigField) : 0 ≤ otherBits f := by
  rw [otherBits, Bits.conj_comm]
  exact Bits.conj_nonneg _ (by decide)

theorem valueWord_nonneg (f : ConfigField) (v : Int) : 0 ≤ valueWord f v :=
  Bits.disj_nonneg (otherBits_nonneg f) (Bits.conj_nonneg _ Bits.block_nonneg)

/-- **A setting has the bits of its value in the field, and all other bits of the word.** -/
theorem testBit_valueWord (f : ConfigField) (v k : Nat) : (valueWord f v).testBit k
    = if f.mask.testBit k then v.testBit (k - f.position.toNat) else decide (k < 32) := by
  rw [valueWord, otherBits, Bits.testBit_disj, Bits.testBit_conj, Bits.testBit_conj,
    Bits.testBit_compl, Bits.testBit_shiftLeft, testBit_word]
  cases hmask : f.mask.testBit k with
  | false => simp
  | true =>
    rw [testBit_mask, decide_eq_true_eq] at hmask
    simp [hmask.1]

/-! ### The macros of a field -/

/-- Fields with a place in the register have macros. -/
theorem fieldLines_eq (r : ConfigRegister) (hplaced : f.Placed) (hdigits : f.ByDigits) :
    fieldLines r f = .ok (.text ("// " ++ r.name ++ "<" ++ f.name ++ ">:  " ++ f.desc)
      :: valueLine r f :: f.options.map (optionLine r f) ++ [Line.blank]) := by
  obtain ⟨hposition, hwidth⟩ := hplaced
  have hoptions : f.options.forM (fun o => o.valueWriting.checkBits) = .ok () := by
    refine Steps.forM_eq_ok fun o ho => ?_
    rw [hdigits.options_digits o ho]
    rfl
  have hcheck : checkField f = .ok () := by
    have hwidth' : ¬ f.width < 0 := by omega
    have hposition' : ¬ f.position < 0 := by omega
    rw [checkField, hdigits.position_digits, hdigits.width_digits, hoptions]
    simp only [Writing.checkBits, if_true, if_neg hwidth', if_neg hposition']
    rfl
  rw [fieldLines, hcheck]
  rfl

/-- The macro with a parameter stands for the word of its argument. -/
theorem number_valueLine (r : ConfigRegister) (hf : f.Placed) (v : Int) :
    (valueLine r f).number v = some (valueWord f v) := by
  have hposition := hf.position_nonneg
  obtain ⟨rest, hrest⟩ := Int.eq_ofNat_of_zero_le (otherBits_nonneg f)
  obtain ⟨mask, hmask⟩ := Int.eq_ofNat_of_zero_le (a := f.mask) Bits.block_nonneg
  obtain ⟨position, hplace⟩ := Int.eq_ofNat_of_zero_le hposition
  rw [valueLine, Line.number, valueWord, hrest, hmask, hplace, Int.toNat_natCast]
  exact Expression.evaluate_setter v rest position mask 8

/-- The macro of an option stands for the word of its value. -/
theorem number_optionLine (r : ConfigRegister) (f : ConfigField) (o : ConfigOption) (v : Int) :
    (optionLine r f o).number v = some (valueWord f o.value) := by
  obtain ⟨word, hword⟩ := Int.eq_ofNat_of_zero_le (valueWord_nonneg f o.value)
  rw [optionLine, Line.number, optionWord, hword]
  exact Expression.evaluate_number v word 8

/-- The macros that set a field to a value: the one that takes the value as its argument, and those
of the options with this value. -/
inductive Setting (r : ConfigRegister) (f : ConfigField) (v : Int) : Line → Prop where
  | argument : Setting r f v (valueLine r f)
  | option (o : ConfigOption) (ho : o ∈ f.options) (hv : o.value = v) :
    Setting r f v (optionLine r f o)

/-- All macros that set a field to a value stand for one word. -/
theorem Setting.number_eq {v : Int} {l : Line} (h : Setting r f v l) (hf : f.Placed) :
    l.number v = some (valueWord f v) := by
  cases h with
  | argument => exact number_valueLine r hf v
  | option o ho hv => rw [number_optionLine, hv]

/-! ### Settings of several fields -/

/-- Settings joined by `&`. -/
def joined (words : List Int) : Int := words.foldl Bits.conj 0xFFFFFFFF

theorem testBit_foldl_conj (start : Int) (words : List Int) (k : Nat) :
    (words.foldl Bits.conj start).testBit k = (start.testBit k && words.all (·.testBit k)) := by
  induction words generalizing start with
  | nil => simp
  | cons w words ih => rw [List.foldl_cons, ih, Bits.testBit_conj, List.all_cons, Bool.and_assoc]

/-- A bit of settings that are joined is set where all of them have it set. -/
theorem testBit_joined (words : List Int) (k : Nat) :
    (joined words).testBit k = (decide (k < 32) && words.all (·.testBit k)) := by
  rw [joined, testBit_foldl_conj, testBit_word]

/-- Where no field has a bit, settings of the fields have it set. -/
theorem testBit_joined_of_outside {S : List ConfigField} {v : ConfigField → Nat} {k : Nat}
    (hk : k < 32) (h : ∀ f ∈ S, f.mask.testBit k = false) :
    (joined (S.map fun f => valueWord f (v f))).testBit k = true := by
  rw [testBit_joined, decide_eq_true hk, Bool.true_and, List.all_map, List.all_eq_true]
  intro f hf
  simp only [Function.comp_apply, testBit_valueWord, h f hf, Bool.false_eq_true, if_false, hk,
    decide_true]

/-- In a field, settings of disjoint fields have the bits of its value. -/
theorem testBit_joined_of_inside {S : List ConfigField} {v : ConfigField → Nat} {k : Nat}
    (hf : f ∈ S) (hk : k < 32) (hin : f.mask.testBit k = true)
    (hothers : ∀ g ∈ S, g ≠ f → Bits.conj f.mask g.mask = 0) :
    (joined (S.map fun f => valueWord f (v f))).testBit k
      = (v f).testBit (k - f.position.toNat) := by
  -- the other settings leave the bit to that of the field
  have hword (g : ConfigField) (hg : g ∈ S) : (valueWord g (v g)).testBit k
      = if g = f then (v f).testBit (k - f.position.toNat) else true := by
    by_cases hgf : g = f
    · rw [if_pos hgf, hgf, testBit_valueWord, if_pos hin]
    · have hout := Bits.testBit_of_conj_eq_zero (hothers g hg hgf) hin
      rw [if_neg hgf, testBit_valueWord, hout, if_neg Bool.false_ne_true, decide_eq_true hk]
  rw [testBit_joined, decide_eq_true hk, Bool.true_and, List.all_map, Bool.eq_iff_iff,
    List.all_eq_true]
  constructor
  · intro hall
    have hbit := hall f hf
    rwa [Function.comp_apply, hword f hf, if_pos rfl] at hbit
  · intro hbit g hg
    rw [Function.comp_apply, hword g hg]
    split
    · exact hbit
    · rfl

/-- **The value of a field is read off settings of disjoint fields.** -/
theorem field_joined {S : List ConfigField} {v : ConfigField → Nat} (hfits : f.FitsWord)
    (hf : f ∈ S) (hothers : ∀ g ∈ S, g ≠ f → Bits.conj f.mask g.mask = 0) :
    Bits.conj (joined (S.map fun f => valueWord f (v f)) >>> f.position.toNat)
        (Bits.ones f.width.toNat)
      = ((v f % 2 ^ f.width.toNat : Nat) : Int) := by
  obtain ⟨⟨hposition, hwidth⟩, hend⟩ := hfits
  have hones : 0 ≤ Bits.ones f.width.toNat := by
    rw [Bits.ones_eq]
    exact Int.natCast_nonneg _
  refine Bits.eq_of_testBit_eq (Bits.conj_nonneg _ hones) (Int.natCast_nonneg _) fun i => ?_
  rw [Bits.testBit_conj, Bits.testBit_shiftRight, Bits.testBit_ones, Bits.testBit_natCast,
    Nat.testBit_mod_two_pow]
  by_cases hi : i < f.width.toNat
  · have hin : f.mask.testBit (f.position.toNat + i) = true := by
      rw [testBit_mask, decide_eq_true_eq]
      omega
    have hk : f.position.toNat + i < 32 := by omega
    rw [testBit_joined_of_inside hf hk hin hothers, Nat.add_sub_cancel_left, Bool.and_comm]
  · rw [decide_eq_false hi, Bool.and_false, Bool.false_and]

/-- **The settings of disjoint fields compose.**  Every field of the register has its macros, and
the macro of an option stands for the number that the macro with a parameter stands for at the
option's value.  The numbers of any settings of some of the fields, joined by `&`, have the chosen
value in each of these fields and all bits set outside of them. -/
theorem settings_compose {r : ConfigRegister} (hfits : ∀ f ∈ r.fields, f.FitsWord)
    (hdigits : ∀ f ∈ r.fields, f.ByDigits)
    (hdisjoint : r.fields.Pairwise fun f g => Bits.conj f.mask g.mask = 0) :
    (∀ f ∈ r.fields, ∃ lines, fieldLines r f = .ok lines ∧ valueLine r f ∈ lines
        ∧ (∀ v : Int, ∃ n, (valueLine r f).number v = some n)
        ∧ ∀ o ∈ f.options, optionLine r f o ∈ lines ∧ ∀ v : Int,
          (optionLine r f o).number v = (valueLine r f).number o.value)
      ∧ ∀ S ⊆ r.fields, ∀ v : ConfigField → Nat, ∀ M : ConfigField → Int,
        (∀ f ∈ S, ∃ lines, fieldLines r f = .ok lines
          ∧ ∃ l ∈ lines, Setting r f (v f) l ∧ l.number (v f) = some (M f)) →
        let W := (S.map M).foldl Bits.conj 0xFFFFFFFF
        (∀ f ∈ S, Bits.conj (W >>> f.position.toNat) (Bits.ones f.width.toNat)
            = ((v f % 2 ^ f.width.toNat : Nat) : Int))
          ∧ ∀ k < 32, (∀ f ∈ S, f.mask.testBit k = false) → W.testBit k = true := by
  constructor
  · intro f hf
    have hplaced : f.Placed := (hfits f hf).toPlaced
    refine ⟨_, fieldLines_eq r hplaced (hdigits f hf), ?_, ?_, fun o ho => ⟨?_, fun v => ?_⟩⟩
    · exact List.mem_cons_of_mem _ List.mem_cons_self
    · exact fun v => ⟨_, number_valueLine r hplaced v⟩
    · have hmem : optionLine r f o ∈ f.options.map (optionLine r f) := List.mem_map_of_mem ho
      simp only [List.cons_append, List.mem_cons, List.mem_append]
      exact Or.inr (Or.inr (Or.inl hmem))
    · rw [number_optionLine, number_valueLine r hplaced]
  · intro S hS v M hM W
    have hwords : S.map M = S.map fun f => valueWord f (v f) := by
      refine List.map_congr_left fun f hf => ?_
      obtain ⟨lines, -, l, -, hsetting, hnumber⟩ := hM f hf
      rw [hsetting.number_eq (hfits f (hS hf)).toPlaced] at hnumber
      exact (Option.some.inj hnumber).symm
    have hW : W = joined (S.map fun f => valueWord f (v f)) := congrArg joined hwords
    refine ⟨fun f hf => ?_, fun k hk hout => ?_⟩
    · have hothers : ∀ g ∈ S, g ≠ f → Bits.conj f.mask g.mask = 0 := by
        intro g hg hgf
        have : Std.Symm fun f g : ConfigField => Bits.conj f.mask g.mask = 0 :=
          ⟨fun f g h => (Bits.conj_comm _ _).trans h⟩
        exact hdisjoint.forall (hS hf) (hS hg) hgf.symm
      rw [hW]
      exact field_joined (hfits f (hS hf)) hf hothers
    · rw [hW]
      exact testBit_joined_of_outside hk hout

/-- Two fields of a register, one set by its option and one by an argument that is too large. -/
theorem settings_compose_pair :
    let fuse : ConfigField :=
      ⟨"FWDTEN", 4, 1, "", false, [⟨"OFF", 0, "", .digits⟩], .digits, .digits⟩
    let clock : ConfigField := ⟨"FNOSC", 0, 3, "", false, [], .digits, .digits⟩
    let v : ConfigField → Nat := fun f => if f = fuse then 0 else 13
    let W := ([fuse, clock].map fun f => valueWord f (v f)).foldl Bits.conj 0xFFFFFFFF
    Bits.conj (W >>> 4) (Bits.ones 1) = 0 ∧ Bits.conj (W >>> 0) (Bits.ones 3) = 5
      ∧ W.testBit 3 = true := by
  intro fuse clock v W
  let register : ConfigRegister :=
    { name := "DEVCFG1", address := 0, modes := [⟨"", [fuse, clock]⟩] }
  have hfuse : fuse.FitsWord := ⟨⟨by decide, by decide⟩, by decide⟩
  have hclock : clock.FitsWord := ⟨⟨by decide, by decide⟩, by decide⟩
  have hfuse' : fuse.ByDigits := ⟨rfl, rfl, fun o ho => by rw [List.mem_singleton.mp ho]⟩
  have hclock' : clock.ByDigits := ⟨rfl, rfl, fun o ho => absurd ho List.not_mem_nil⟩
  have hfits : ∀ f ∈ register.fields, f.FitsWord :=
    List.forall_mem_cons.mpr ⟨hfuse, List.forall_mem_singleton.mpr hclock⟩
  have hdigits : ∀ f ∈ register.fields, f.ByDigits :=
    List.forall_mem_cons.mpr ⟨hfuse', List.forall_mem_singleton.mpr hclock'⟩
  obtain ⟨-, hcompose⟩ := settings_compose hfits hdigits (by decide)
  have hoption : (⟨"OFF", 0, "", .digits⟩ : ConfigOption) ∈ fuse.options :=
    List.mem_singleton_self _
  have hM : ∀ f ∈ [fuse, clock], ∃ lines, fieldLines register f = .ok lines
      ∧ ∃ l ∈ lines, Setting register f (v f) l ∧ l.number (v f) = some (valueWord f (v f)) := by
    refine List.forall_mem_cons.mpr ⟨?_, List.forall_mem_singleton.mpr ?_⟩
    · exact ⟨_, fieldLines_eq register hfuse.toPlaced hfuse', _, by simp [fuse],
        .option _ hoption rfl, number_optionLine register fuse _ _⟩
    · exact ⟨_, fieldLines_eq register hclock.toPlaced hclock', _, by simp [clock],
        .argument, number_valueLine register hclock.toPlaced _⟩
  obtain ⟨hvalues, houtside⟩ := hcompose [fuse, clock] (List.Subset.refl _) v _ hM
  have hvalue : v clock = 13 := if_neg (by decide)
  have hread := hvalues clock (by decide)
  have hlow : 13 % 2 ^ clock.width.toNat = 5 := by decide
  rw [hvalue, hlow] at hread
  exact ⟨hvalues fuse (by decide), hread, houtside 3 (by decide) (by decide)⟩

end ConfigSettings

end ChipSupport
