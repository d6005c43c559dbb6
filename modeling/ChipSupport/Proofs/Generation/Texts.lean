import ChipSupport.Proofs.Generation.Plan

/-!
# Texts that runs write

A run that follows a plan writes the texts of its completed deeds, and no others.  If all texts of
the plan have a property, then so does every text that is at a place that the run has written to.

## Main definitions

* `Plan.TextsHave` — plans of which all texts have a property.
* `Generation.Wrote` — what a run has done that wrote texts with a property.

## Main results

* `Deed.written_applyAll` — the log of the files that are written.
* `Plan.exists_wrote` — **carrying out a plan writes its texts.**
-/

namespace ChipSupport

/-! ### Files -/

/-- A place that is written to has one of the texts that are written to it. -/
theorem Files.exists_text?_writeAll {fs fs' : Files} {ws : List (Path × String)}
    (h : fs.writeAll ws = .ok fs') {place : List String} (hplace : ∃ w ∈ ws, w.1.location = place) :
    ∃ w ∈ ws, fs'.text? place = some w.2 := by
  induction ws generalizing fs with
  | nil =>
    obtain ⟨w, hw, -⟩ := hplace
    cases hw
  | cons w ws ih =>
    obtain ⟨gs, hgs, hrest⟩ := writeAll_cons_eq_ok.mp h
    by_cases hlater : ∃ v ∈ ws, v.1.location = place
    · obtain ⟨v, hv, htext⟩ := ih hrest hlater
      exact ⟨v, List.mem_cons_of_mem _ hv, htext⟩
    · -- nothing is written to the place after the first text
      push Not at hlater
      obtain ⟨v, hv, rfl⟩ := hplace
      obtain rfl : v = w := (List.mem_cons.mp hv).resolve_right fun hv => hlater v hv rfl
      refine ⟨v, List.mem_cons_self, ?_⟩
      rw [text?_writeAll_of_forall_ne hrest hlater]
      exact (written_of_write hgs).text?_self

/-! ### Deeds -/

namespace Deed

variable {output : Path}

theorem written_apply {d : Deed} {g g' : Generation} (h : d.apply output g = .ok g') :
    g'.written = g.written ++ (writes output [d]).map Prod.fst := by
  cases d with
  | write path lines | writeComponent path lines =>
    obtain ⟨files, -, h⟩ := Steps.bind_eq_ok_iff.mp h
    cases h
    rfl
  | leave notes | remember path | forget =>
    cases h
    exact (List.append_nil _).symm

/-- The files that deeds write are logged in their order. -/
theorem written_applyAll {ds : List Deed} {g h : Generation} (hall : applyAll output ds g = .ok h) :
    h.written = g.written ++ (writes output ds).map Prod.fst := by
  induction ds generalizing g with
  | nil =>
    cases hall
    exact (List.append_nil _).symm
  | cons d ds ih =>
    obtain ⟨g', hd, hds⟩ := applyAll_cons_eq_ok.mp hall
    rw [ih hds, written_apply hd, List.append_assoc, ← List.map_append, ← writes_append]
    rfl

/-- Deeds that can all be done are all completed. -/
theorem completed_of_applyAll {ds : List Deed} {g h : Generation}
    (hall : applyAll output ds g = .ok h) : completed output ds g = ds := by
  induction ds generalizing g with
  | nil => rfl
  | cons d ds ih =>
    obtain ⟨g', hd, hds⟩ := applyAll_cons_eq_ok.mp hall
    rw [completed, hd]
    exact congrArg (d :: ·) (ih hds)

end Deed

/-! ### Plans -/

/-- What a run has done that wrote some texts, one after the other, all of which have a property. -/
structure Generation.Wrote (P : String → Prop) (g g' : Generation) (ws : List (Path × String)) :
    Prop where
  log : g'.written = g.written ++ ws.map Prod.fst
  files : g.files.writeAll ws = .ok g'.files
  texts : ∀ w ∈ ws, P w.2
  places : ∀ w ∈ ws, ∃ text, g'.files.text? w.1.location = some text ∧ P text

namespace Plan

variable {α β : Type} {output : Path} {P : String → Prop}

/-- Plans of which all texts have a property. -/
def TextsHave (output : Path) (P : String → Prop) (p : Plan α) : Prop :=
  ∀ w ∈ Deed.writes output p.deeds, P w.2

theorem textsHave_ofExcept (x : Except Fault α) : (ofExcept x).TextsHave output P :=
  List.forall_mem_nil _

theorem textsHave_write (path : Path) {lines : List Line} (h : P (Line.fileText lines)) :
    (act (.write path lines)).TextsHave output P :=
  List.forall_mem_singleton.mpr h

theorem textsHave_writeComponent (path : String) {lines : List Line}
    (h : P (Line.fileText lines)) : (act (.writeComponent path lines)).TextsHave output P :=
  List.forall_mem_singleton.mpr h

/-- Deeds that write no file. -/
theorem textsHave_of_none {d : Deed} (h : d.file? output = none) : (act d).TextsHave output P := by
  have hwrites : Deed.writes output (act d).deeds = [] := by
    rw [act, Deed.writes, List.filterMap_cons, h]
    rfl
  rw [TextsHave, hwrites]
  exact List.forall_mem_nil _

theorem TextsHave.bind {p : Plan α} (h : p.TextsHave output P) {f : α → Plan β}
    (hf : ∀ a, p.result = .ok a → (f a).TextsHave output P) : (p >>= f).TextsHave output P := by
  cases hp : p.result with
  | ok a =>
    rw [bind_of_ok hp, TextsHave, Deed.writes_append, List.forall_mem_append]
    exact ⟨h, hf a hp⟩
  | error e =>
    rw [bind_of_error hp]
    exact h

/-- **Carrying out a plan writes its texts,** up to the first deed that fails. -/
theorem exists_wrote {p : Plan α} (h : p.TextsHave output P) (g : Generation) :
    ∃ ws, g.Wrote P (p.carryOut output g).2 ws ∧
      ∀ a, (p.carryOut output g).1 = .ok a → ws = Deed.writes output p.deeds := by
  have hall : Deed.applyAll output (Deed.completed output p.deeds g) g = .ok _ :=
    Deed.applyAll_completed p.deeds g
  rw [← snd_carryOut] at hall
  have hfiles := Deed.exists_applyAll_iff.mp ⟨_, hall, rfl⟩
  have htexts : ∀ w ∈ Deed.writes output (Deed.completed output p.deeds g), P w.2 := by
    have hprefix : Deed.completed output p.deeds g <+: p.deeds := Deed.completed_prefix _ g
    obtain ⟨rest, hrest⟩ := hprefix
    intro w hw
    refine h w ?_
    rw [← hrest, Deed.writes_append]
    exact List.mem_append_left _ hw
  refine ⟨_, ⟨Deed.written_applyAll hall, hfiles, htexts, fun w hw => ?_⟩, fun a ha => ?_⟩
  · obtain ⟨v, hv, htext⟩ := Files.exists_text?_writeAll hfiles ⟨w, hw, rfl⟩
    exact ⟨v.2, htext, htexts v hv⟩
  · have hdone := (carryOut_eq_ok_iff.mp (Prod.ext ha rfl)).2
    rw [Deed.completed_of_applyAll hdone]

end Plan

end ChipSupport
