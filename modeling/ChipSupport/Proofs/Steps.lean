import ChipSupport.Fault
import Mathlib

/-!
# Sequences of steps that may fail

A list is worked through by steps each of which may end in a fault.  The run over the whole list
succeeds exactly when every step does, and its results are those of the steps.

## Main results

* `bind_eq_ok_iff` — two steps that succeed one after the other.
* `mapM_eq_ok_iff` — a run that succeeds, as the relation between the list and the results.
* `exists_mapM_flatten`, `exists_mapM_flatten_map` — a run that succeeds because every step does,
  with its results joined.
-/

namespace ChipSupport.Steps

variable {α β : Type}

/-- Two steps succeed if the first one does and the second one does with its result. -/
theorem bind_eq_ok_iff {x : Except Fault α} {f : α → Except Fault β} {b : β} :
    x >>= f = .ok b ↔ ∃ a, x = .ok a ∧ f a = .ok b := by
  cases x with
  | error e =>
    constructor
    · intro h
      cases h
    · rintro ⟨a, h, -⟩
      cases h
  | ok a =>
    constructor
    · intro h
      exact ⟨a, rfl, h⟩
    · rintro ⟨a', ha, hf⟩
      cases ha
      exact hf

theorem map_eq_ok_iff {x : Except Fault α} {f : α → β} {b : β} :
    x.map f = .ok b ↔ ∃ a, x = .ok a ∧ f a = b := by
  cases x <;> simp [Except.map]

/-- A run succeeds with the results of its steps, and not otherwise. -/
theorem mapM_eq_ok_iff (f : α → Except Fault β) (xs : List α) (ys : List β) :
    xs.mapM f = .ok ys ↔ List.Forall₂ (fun x y => f x = .ok y) xs ys := by
  induction xs generalizing ys with
  | nil =>
    rw [List.mapM_nil, List.forall₂_nil_left_iff]
    constructor
    · intro h
      exact (Except.ok.inj h).symm
    · rintro rfl
      rfl
  | cons x xs ih =>
    rw [List.mapM_cons, List.forall₂_cons_left_iff]
    cases hx : f x with
    | error e =>
      constructor
      · intro h
        cases h
      · rintro ⟨y, zs, h, -⟩
        cases h
    | ok y =>
      cases hxs : xs.mapM f with
      | error e =>
        constructor
        · intro h
          cases h
        · rintro ⟨z, zs, -, hzs, -⟩
          rw [← ih, hxs] at hzs
          cases hzs
      | ok zs =>
        constructor
        · intro h
          exact ⟨y, zs, rfl, (ih zs).mp hxs, (Except.ok.inj h).symm⟩
        · rintro ⟨z, zs', hz, hzs, rfl⟩
          have hzs' : zs = zs' := Except.ok.inj (hxs.symm.trans ((ih zs').mpr hzs))
          rw [← Except.ok.inj hz, ← hzs']
          rfl

theorem mapM_eq_ok_map {f : α → Except Fault β} {g : α → β} {xs : List α}
    (h : ∀ x ∈ xs, f x = .ok (g x)) : xs.mapM f = .ok (xs.map g) := by
  rw [mapM_eq_ok_iff, List.forall₂_map_right_iff, List.forall₂_same]
  exact h

/-- A run without results succeeds if every step does. -/
theorem forM_eq_ok {f : α → Except Fault Unit} {xs : List α} (h : ∀ x ∈ xs, f x = .ok ()) :
    xs.forM f = .ok () := by
  induction xs with
  | nil => rfl
  | cons x xs ih =>
    have hrun : (x :: xs).forM f = (f x >>= fun _ => xs.forM f) := rfl
    rw [hrun, h x List.mem_cons_self]
    exact ih fun y hy => h y (List.mem_cons_of_mem x hy)

/-- A run succeeds if every step does, and its results are as those of the steps. -/
theorem exists_mapM_forall {f : α → Except Fault β} {P : β → Prop} {xs : List α}
    (h : ∀ x ∈ xs, ∃ y, f x = .ok y ∧ P y) : ∃ ys, xs.mapM f = .ok ys ∧ ∀ y ∈ ys, P y := by
  induction xs with
  | nil => exact ⟨[], rfl, by simp⟩
  | cons x xs ih =>
    obtain ⟨y, hy, hP⟩ := h x List.mem_cons_self
    obtain ⟨ys, hys, hall⟩ := ih fun z hz => h z (List.mem_cons_of_mem _ hz)
    refine ⟨y :: ys, by rw [List.mapM_cons, hy, hys]; rfl, ?_⟩
    rw [List.forall_mem_cons]
    exact ⟨hP, hall⟩

/-- A run succeeds if every step does, and what holds of the steps holds of items and results. -/
theorem exists_mapM_forall₂ {f : α → Except Fault β} {P : α → β → Prop} {xs : List α}
    (h : ∀ x ∈ xs, ∃ y, f x = .ok y ∧ P x y) :
    ∃ ys, xs.mapM f = .ok ys ∧ List.Forall₂ P xs ys := by
  induction xs with
  | nil => exact ⟨[], rfl, List.Forall₂.nil⟩
  | cons x xs ih =>
    obtain ⟨y, hy, hP⟩ := h x List.mem_cons_self
    obtain ⟨ys, hys, hall⟩ := ih fun z hz => h z (List.mem_cons_of_mem _ hz)
    exact ⟨y :: ys, by rw [List.mapM_cons, hy, hys]; rfl, hall.cons hP⟩

/-- Lists with the same images are related item by item. -/
theorem forall₂_eq_iff {γ : Type} {f : α → γ} {g : β → γ} {xs : List α} {ys : List β} :
    List.Forall₂ (fun x y => f x = g y) xs ys ↔ xs.map f = ys.map g := by
  rw [← List.forall₂_eq_eq_eq, List.forall₂_map_left_iff, List.forall₂_map_right_iff]

/-- Two runs over lists of related items succeed with related results, if related steps do. -/
theorem exists_mapM_rel {α' β' : Type} {f : α → Except Fault β} {g : α' → Except Fault β'}
    {R : α → α' → Prop} {S : β → β' → Prop}
    (h : ∀ x x', R x x' → ∃ y y', f x = .ok y ∧ g x' = .ok y' ∧ S y y') {xs : List α}
    {xs' : List α'} (hxs : List.Forall₂ R xs xs') :
    ∃ ys ys', xs.mapM f = .ok ys ∧ xs'.mapM g = .ok ys' ∧ List.Forall₂ S ys ys' := by
  induction hxs with
  | nil => exact ⟨[], [], rfl, rfl, List.Forall₂.nil⟩
  | cons hx _ ih =>
    obtain ⟨y, y', hy, hy', hS⟩ := h _ _ hx
    obtain ⟨ys, ys', hys, hys', hall⟩ := ih
    exact ⟨y :: ys, y' :: ys', by rw [List.mapM_cons, hy, hys]; rfl,
      by rw [List.mapM_cons, hy', hys']; rfl, hall.cons hS⟩

/-- Every item of one list belongs to an item of the other one. -/
theorem exists_mem_of_forall₂ {P : α → β → Prop} {xs : List α} {ys : List β}
    (h : List.Forall₂ P xs ys) {x : α} (hx : x ∈ xs) : ∃ y ∈ ys, P x y := by
  induction h with
  | nil => cases hx
  | cons hxy _ ih =>
    rcases List.mem_cons.mp hx with rfl | hx
    · exact ⟨_, List.mem_cons_self, hxy⟩
    · obtain ⟨y, hy, hP⟩ := ih hx
      exact ⟨y, List.mem_cons_of_mem _ hy, hP⟩

theorem exists_of_mem_mapM {f : α → Except Fault β} {xs : List α} {ys : List β}
    (h : xs.mapM f = .ok ys) {y : β} (hy : y ∈ ys) : ∃ x ∈ xs, f x = .ok y := by
  rw [mapM_eq_ok_iff] at h
  induction h with
  | nil => simp at hy
  | cons hxy _ ih =>
    rcases List.mem_cons.mp hy with rfl | hy
    · exact ⟨_, List.mem_cons_self, hxy⟩
    · obtain ⟨x, hx, hfx⟩ := ih hy
      exact ⟨x, List.mem_cons_of_mem _ hx, hfx⟩

theorem exists_mem_of_mapM {f : α → Except Fault β} {xs : List α} {ys : List β}
    (h : xs.mapM f = .ok ys) {x : α} (hx : x ∈ xs) : ∃ y ∈ ys, f x = .ok y :=
  exists_mem_of_forall₂ ((mapM_eq_ok_iff f xs ys).mp h) hx

/-- Steps that each succeed with a list of known members: so does the run, with the lists joined. -/
theorem exists_mapM_flatten {f : α → Except Fault (List β)} {P : α → β → Prop} {xs : List α}
    (h : ∀ x ∈ xs, ∃ ys, f x = .ok ys ∧ ∀ y, y ∈ ys ↔ P x y) :
    ∃ zs, (do let yss ← xs.mapM f; return yss.flatten) = .ok zs ∧
      ∀ y, y ∈ zs ↔ ∃ x ∈ xs, P x y := by
  -- the results before they are joined, for the induction
  have key : ∃ yss, xs.mapM f = .ok yss ∧ ∀ y, y ∈ yss.flatten ↔ ∃ x ∈ xs, P x y := by
    induction xs with
    | nil => exact ⟨[], rfl, by simp⟩
    | cons x xs ih =>
      obtain ⟨ys, hx, hys⟩ := h x List.mem_cons_self
      obtain ⟨yss, hxs, hyss⟩ := ih fun z hz => h z (List.mem_cons_of_mem _ hz)
      refine ⟨ys :: yss, ?_, fun y => ?_⟩
      · rw [List.mapM_cons, hx, hxs]
        rfl
      · rw [List.flatten_cons, List.mem_append, hys, hyss, List.exists_mem_cons_iff]
  obtain ⟨yss, hrun, hmem⟩ := key
  refine ⟨yss.flatten, ?_, hmem⟩
  rw [hrun]
  rfl

/-- Steps that each succeed with a list of known images: so does the run, with the lists joined. -/
theorem exists_mapM_flatten_map {γ : Type} {f : α → Except Fault (List β)} {g : β → γ}
    {image : α → List γ} {xs : List α} (h : ∀ x ∈ xs, ∃ ys, f x = .ok ys ∧ ys.map g = image x) :
    ∃ zs, (do let yss ← xs.mapM f; return yss.flatten) = .ok zs ∧
      zs.map g = xs.flatMap image := by
  obtain ⟨yss, hrun, himages⟩ := exists_mapM_forall₂ h
  have hall : xs.map image = yss.map (List.map g) :=
    forall₂_eq_iff.mp (himages.imp fun _ _ hx => hx.symm)
  refine ⟨yss.flatten, by rw [hrun]; rfl, ?_⟩
  rw [List.map_flatten, ← hall, List.flatMap_def]

end ChipSupport.Steps
