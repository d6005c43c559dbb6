import ChipSupport.Proofs.Register.ModeMasks
import ChipSupport.Proofs.Register.Vector

/-!
# Names of vector fields

The vector fields of a register have the names of its numbered bits without the numbers, and no two
of them have the same name.  A vector field may still have the name of a bitfield, which is a matter
of the bitfields alone.

## Main definitions

* `Bitfield.Unshared` — bitfields none of which has the name of a vector field.

## Main results

* `Bitfield.mem_names_vectorFields`, `Bitfield.nodup_names_vectorFields` — the names of the vector
  fields.
* `Bitfield.forall_name_ne_iff` — when no vector field has the name of a bitfield.
* `Register.exists_modeTable_eq_singleton` — the table of a register of one mode.
-/

namespace ChipSupport

namespace Field

/-! ### The names that are kept -/

theorem mem_names_firstOfName {seen : List String} {fs : List NamedField} {name : String} :
    name ∈ (namedOnly (firstOfName false seen (fs.map .named))).map NamedField.name
      ↔ name ∈ fs.map NamedField.name ∧ name ∉ seen := by
  induction fs generalizing seen with
  | nil => simp [firstOfName, namedOnly]
  | cons f rest ih =>
    rw [List.map_cons, firstOfName, List.map_cons, List.mem_cons]
    by_cases hf : seen.contains (Field.named f).name = true
    · -- the name was seen before, so it is none of those asked for
      rw [if_pos hf, if_neg Bool.false_ne_true, ih]
      have hseen : f.name ∈ seen := List.contains_iff_mem.mp hf
      constructor
      · rintro ⟨hname, hnew⟩
        exact ⟨.inr hname, hnew⟩
      · rintro ⟨rfl | hname, hnew⟩
        · exact absurd hseen hnew
        · exact ⟨hname, hnew⟩
    · rw [if_neg hf, namedOnly_named, List.map_cons, List.mem_cons, ih, List.mem_cons, not_or]
      have hunseen : f.name ∉ seen := fun hmem => hf (List.contains_iff_mem.mpr hmem)
      constructor
      · rintro (rfl | ⟨hname, -, hnew⟩)
        · exact ⟨.inl rfl, hunseen⟩
        · exact ⟨.inr hname, hnew⟩
      · rintro ⟨rfl | hname, hnew⟩
        · exact .inl rfl
        · by_cases heq : name = f.name
          · exact .inl heq
          · exact .inr ⟨hname, heq, hnew⟩

theorem nodup_names_firstOfName (seen : List String) (fs : List NamedField) :
    ((namedOnly (firstOfName false seen (fs.map .named))).map NamedField.name).Nodup := by
  induction fs generalizing seen with
  | nil => exact List.nodup_nil
  | cons f rest ih =>
    rw [List.map_cons, firstOfName]
    split
    · exact ih seen
    · rw [namedOnly_named, List.map_cons, List.nodup_cons]
      refine ⟨?_, ih (f.name :: seen)⟩
      intro hmem
      exact (mem_names_firstOfName.mp hmem).2 List.mem_cons_self

end Field

namespace Bitfield

open ChipSupport.Field

/-! ### The names of the vector fields -/

/-- No numbered bit has, without its number, the name of one of the bitfields. -/
def Unshared (fs : List Bitfield) : Prop :=
  ∀ f ∈ fs, f.isNumberedBit = true → ∀ g ∈ fs, baseName f.name ≠ g.name

instance (fs : List Bitfield) : Decidable (Unshared fs) :=
  inferInstanceAs (Decidable (∀ f ∈ fs, f.isNumberedBit = true →
    ∀ g ∈ fs, baseName f.name ≠ g.name))

/-- The name of a numbered bit without the number is that of the vector field that it begins or
extends. -/
theorem mem_names_vectorsFrom {current : Option NamedField} {next : Int} {fs : List Bitfield}
    {name : String} :
    name ∈ (vectorsFrom current next fs).map NamedField.name ↔
      (∃ v ∈ current, v.name = name) ∨
        ∃ f ∈ fs, f.isNumberedBit = true ∧ baseName f.name = name := by
  induction fs generalizing current next with
  | nil => cases current <;> simp [vectorsFrom, eq_comm (a := name)]
  | cons f rest ih =>
    -- what `f` begins has its name, if it begins anything
    have hbegin : (∃ v ∈ (if f.isNumberedBit then some f.beginVector else none), v.name = name)
        ↔ f.isNumberedBit = true ∧ baseName f.name = name := by
      cases f.isNumberedBit <;> simp [beginVector]
    rw [List.exists_mem_cons_iff]
    cases current with
    | none =>
      rw [vectorsFrom, ih, hbegin]
      simp
    | some v =>
      rw [vectorsFrom]
      split
      next hextend =>
        rw [Bool.and_eq_true, Bool.and_eq_true, beq_iff_eq] at hextend
        obtain ⟨⟨hf, -⟩, hname⟩ := hextend
        rw [ih]
        simp [extendVector, hf, hname]
      next hend =>
        rw [List.map_cons, List.mem_cons, ih, hbegin]
        simp only [Option.mem_def, Option.some.injEq, exists_eq_left', eq_comm (a := name)]

theorem mem_names_vectors {fs : List Bitfield} {name : String} :
    name ∈ (vectors fs).map NamedField.name ↔
      ∃ f ∈ fs, f.isNumberedBit = true ∧ baseName f.name = name := by
  rw [vectors, mem_names_vectorsFrom]
  simp [mem_sorted]

theorem namedOnly_vectorFields_eq (fs : List Bitfield) (policy : Duplicates) :
    namedOnly (vectorFields fs policy)
      = namedOnly (firstOfName false [] ((vectors fs).map .named)) := by
  cases policy with
  | gap => exact namedOnly_vectorFields fs
  | drop => rfl

/-- **The vector fields have the names of the numbered bits without the numbers.** -/
theorem mem_names_vectorFields {fs : List Bitfield} {policy : Duplicates} {name : String} :
    name ∈ (namedOnly (vectorFields fs policy)).map NamedField.name ↔
      ∃ f ∈ fs, f.isNumberedBit = true ∧ baseName f.name = name := by
  rw [namedOnly_vectorFields_eq, mem_names_firstOfName, mem_names_vectors]
  simp

/-- **No two vector fields have the same name.** -/
theorem nodup_names_vectorFields (fs : List Bitfield) (policy : Duplicates) :
    ((namedOnly (vectorFields fs policy)).map NamedField.name).Nodup := by
  rw [namedOnly_vectorFields_eq]
  exact nodup_names_firstOfName [] (vectors fs)

/-- What holds of the names of all vector fields is a matter of the numbered bits. -/
theorem forall_names_vectorFields (fs : List Bitfield) (policy : Duplicates) {P : String → Prop} :
    (∀ v ∈ namedOnly (vectorFields fs policy), P v.name) ↔
      ∀ f ∈ fs, f.isNumberedBit = true → P (baseName f.name) := by
  rw [← List.forall_mem_map (P := P)]
  simp only [mem_names_vectorFields]
  constructor
  · intro h f hf hbit
    exact h _ ⟨f, hf, hbit, rfl⟩
  · rintro h _ ⟨f, hf, hbit, rfl⟩
    exact h f hf hbit

/-- No vector field has the name of a bitfield exactly if the bitfields are unshared. -/
theorem forall_name_ne_iff (fs : List Bitfield) (policy : Duplicates) :
    (∀ v ∈ namedOnly (vectorFields fs policy), ∀ g ∈ fs, v.name ≠ g.name) ↔ Unshared fs :=
  forall_names_vectorFields fs policy (P := fun name => ∀ g ∈ fs, name ≠ g.name)

end Bitfield

namespace Register

/-! ### Registers of one mode -/

/-- A register with all bitfields in one mode has a single row, in that mode if it has bitfields. -/
theorem exists_modeTable_eq_singleton {r : Register} {mode : String}
    (h : ∀ f ∈ r.bitfields, ∀ m, m ∈ f.modes ↔ m = mode) :
    ∃ m, (r.bitfields ≠ [] → m = mode) ∧
      ∀ coalesce, r.modeTable coalesce = [(m, Bitfield.sorted r.bitfields)] := by
  have hrow : ∃ m, (r.bitfields ≠ [] → m = mode) ∧
      r.modeTable false = [(m, Bitfield.sorted r.bitfields)] := by
    by_cases hfs : r.bitfields = []
    · refine ⟨Mode.default_, fun hne => absurd hfs hne, ?_⟩
      rw [modeTable, hfs, Bitfield.sorted, List.mergeSort_nil]
      rfl
    · have hlisted : ∀ f ∈ r.bitfields, f.modes ≠ [] := fun f hf =>
        List.ne_nil_of_mem ((h f hf mode).mpr rfl)
      have hmodes : tableModes r.bitfields = [mode] := by
        rw [← List.perm_singleton, List.perm_ext_iff_of_nodup (nodup_tableModes _)
          (List.nodup_singleton mode)]
        intro m
        rw [mem_tableModes hlisted, List.mem_singleton]
        constructor
        · rintro (⟨f, hf, hm⟩ | ⟨hnil, -⟩)
          · exact (h f hf m).mp hm
          · exact absurd hnil hfs
        · rintro rfl
          obtain ⟨f, hf⟩ := List.exists_mem_of_ne_nil _ hfs
          exact .inl ⟨f, hf, (h f hf m).mpr rfl⟩
      have hall : r.bitfields.filter (fun f => f.modes.contains mode) = r.bitfields := by
        rw [List.filter_eq_self]
        intro f hf
        exact List.contains_iff_mem.mpr ((h f hf mode).mpr rfl)
      refine ⟨mode, fun _ => rfl, ?_⟩
      rw [modeTable_false, hmodes, List.map_singleton, fieldsIn, hall]
  obtain ⟨m, hm, htable⟩ := hrow
  refine ⟨m, hm, fun coalesce => ?_⟩
  cases coalesce with
  | false => exact htable
  | true => rw [modeTable_true, htable, Mode.coalesce_of_apart _ (List.pairwise_singleton _ _)]

end Register

end ChipSupport
