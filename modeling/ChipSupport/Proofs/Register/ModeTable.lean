import ChipSupport.Proofs.Document.Group
import ChipSupport.Proofs.Register.Caption

/-!
# Mode tables of registers that are the same

Where registers are compared, the modes of their bitfields do not count.  The table of the modes of
a register does depend on them, and on nothing else but the names and bits of the bitfields.

## Main definitions

* `Register.outline` — the modes of a register with the names and bits of their fields.

## Main results

* `Register.modeTable_map` — the mode table of bitfields that are changed apart from name, bits and
  modes.
* `Register.outline_congr` — **registers that are the same have the same outline if their bitfields
  have the same modes.**
-/

namespace ChipSupport.Register

/-! ### Bitfields that are changed -/

section Changed

variable {g : Bitfield → Bitfield}

theorem modeNames_map (hmodes : ∀ f, (g f).modes = f.modes) (fs : List Bitfield) :
    modeNames (fs.map g) = modeNames fs := by
  have hflat : (fs.map g).flatMap Bitfield.modes = fs.flatMap Bitfield.modes := by
    rw [List.flatMap_map]
    exact List.flatMap_congr fun f _ => hmodes f
  rw [modeNames, modeNames, hflat]

theorem fieldsIn_map (hmask : ∀ f, (g f).mask = f.mask) (hmodes : ∀ f, (g f).modes = f.modes)
    (fs : List Bitfield) (mode : String) :
    fieldsIn (fs.map g) mode = (fieldsIn fs mode).map g := by
  have hfilter : (fs.map g).filter (fun f => f.modes.contains mode)
      = (fs.filter fun f => f.modes.contains mode).map g := by
    rw [List.filter_map]
    congr 1
    exact List.filter_congr fun f _ => by rw [Function.comp_apply, hmodes]
  rw [fieldsIn, fieldsIn, hfilter]
  refine (List.map_mergeSort fun f _ f' _ => ?_).symm
  rw [Bitfield.lsb, Bitfield.lsb, Bitfield.lsb, Bitfield.lsb, hmask, hmask]

theorem sameFields_map (hname : ∀ f, (g f).name = f.name) (hmask : ∀ f, (g f).mask = f.mask)
    (fs gs : List Bitfield) :
    Bitfield.sameFields (fs.map g) (gs.map g) = Bitfield.sameFields fs gs := by
  rw [Bool.eq_iff_iff, sameFields_iff, sameFields_iff, List.map_map, List.map_map]
  simp only [Function.comp_def, hname, hmask]

/-- **What is changed of bitfields apart from their names, bits and modes is changed in the table of
modes, and nothing else.** -/
theorem modeTable_map (hname : ∀ f, (g f).name = f.name) (hmask : ∀ f, (g f).mask = f.mask)
    (hmodes : ∀ f, (g f).modes = f.modes) {r s : Register} (h : s.bitfields = r.bitfields.map g)
    (coalesce : Bool) :
    s.modeTable coalesce = (r.modeTable coalesce).map fun m => (m.1, m.2.map g) := by
  have htable (names : List String) : (names.map fun m => (m, fieldsIn s.bitfields m))
      = (names.map fun m => (m, fieldsIn r.bitfields m)).map fun m => (m.1, m.2.map g) := by
    rw [List.map_map]
    exact List.map_congr_left fun m _ => by
      rw [h, fieldsIn_map hmask hmodes, Function.comp_apply]
  have hnames : modeNames s.bitfields = modeNames r.bitfields := by rw [h, modeNames_map hmodes]
  rw [modeTable, modeTable, hnames]
  cases modeNames r.bitfields with
  | nil => rfl
  | cons name rest =>
    cases coalesce with
    | false => exact htable (name :: rest)
    | true =>
      dsimp only
      rw [if_pos rfl, if_pos rfl, htable, Mode.coalesce_map (sameFields_map hname hmask)]

end Changed

/-! ### Outlines -/

/-- The modes of a register with the names and bits of their fields. -/
def outline (r : Register) (coalesce : Bool) : List (String × List Bitfield) :=
  (r.modeTable coalesce).map fun m => (m.1, m.2.map Bitfield.bare)

theorem map_bare_eq_iff {fs gs : List Bitfield} :
    fs.map Bitfield.bare = gs.map Bitfield.bare
      ↔ fs.map (fun f => (f.name, f.mask)) = gs.map fun f => (f.name, f.mask) := by
  induction fs generalizing gs with
  | nil => cases gs <;> simp
  | cons f fs ih => cases gs <;> simp [Bitfield.bare, ih]

/-- Registers that are the same have bitfields with the same names and bits. -/
theorem map_bare_of_sameAs {a b : Register} (h : a.sameAs b = true) :
    a.bitfields.map Bitfield.bare = b.bitfields.map Bitfield.bare := by
  rw [sameAs_iff] at h
  simp only [shape, Prod.mk.injEq] at h
  exact map_bare_eq_iff.mpr h.2.2.2.2.2.2

theorem mask_of_sameAs {a b : Register} (h : a.sameAs b = true) : a.mask = b.mask := by
  rw [mask, mask, ← Bitfield.maskOf_bare, map_bare_of_sameAs h, Bitfield.maskOf_bare]

/-- **Registers that are the same have the same modes with the same fields, if their bitfields have
the same modes.** -/
theorem outline_congr {a b : Register} (h : a.sameAs b = true)
    (hmodes : a.bitfields.map Bitfield.modes = b.bitfields.map Bitfield.modes) (coalesce : Bool) :
    a.outline coalesce = b.outline coalesce := by
  let core : Bitfield → Bitfield := fun f => { f.bare with modes := f.modes }
  have hcore : a.bitfields.map core = b.bitfields.map core := by
    have hbare := map_bare_of_sameAs h
    generalize a.bitfields = fs at hbare hmodes
    generalize b.bitfields = gs at hbare hmodes
    induction fs generalizing gs with
    | nil => cases gs <;> simp_all
    | cons f fs ih =>
      cases gs with
      | nil => cases hbare
      | cons g gs =>
        rw [List.map_cons, List.map_cons, List.cons.injEq] at hbare hmodes ⊢
        exact ⟨by simp only [core, hbare.1, hmodes.1], ih gs hbare.2 hmodes.2⟩
  have houtline (r : Register) : r.outline coalesce
      = (({ r with bitfields := r.bitfields.map core } : Register).modeTable coalesce).map
        fun m => (m.1, m.2.map Bitfield.bare) := by
    rw [modeTable_map (g := core) (fun _ => rfl) (fun _ => rfl) (fun _ => rfl) rfl, List.map_map]
    refine List.map_congr_left fun m _ => ?_
    rw [Function.comp_apply, List.map_map]
    rfl
  rw [houtline, houtline, hcore]
  rfl

/-- The mask of a mode is known from the outline. -/
theorem maskByMode_congr {a b : Register} {coalesce : Bool}
    (h : a.outline coalesce = b.outline coalesce) (mode : String) :
    a.maskByMode mode coalesce = b.maskByMode mode coalesce := by
  have hlookup (table : List (String × List Bitfield)) :
      Bitfield.maskOf ((table.lookup mode).getD [])
        = Bitfield.maskOf
          (((table.map fun m => (m.1, m.2.map Bitfield.bare)).lookup mode).getD []) := by
    induction table with
    | nil => rfl
    | cons m rest ih =>
      rw [List.map_cons, List.lookup_cons, List.lookup_cons]
      cases mode == m.1 with
      | false => exact ih
      | true => exact (Bitfield.maskOf_bare m.2).symm
  rw [maskByMode, maskByMode, bitfieldsByMode, bitfieldsByMode, hlookup (a.modeTable coalesce),
    hlookup (b.modeTable coalesce)]
  exact congrArg (fun table => Bitfield.maskOf ((table.lookup mode).getD [])) h

end ChipSupport.Register
