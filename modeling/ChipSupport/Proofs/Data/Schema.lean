import ChipSupport.Data.Schema
import ChipSupport.Proofs.Steps

/-!
# Data that follow the rules of a schema

Data without a problem have the shape that the rules describe: tables have the fields that are
required, the values of fields follow the rules for the fields, and so do the items of lists.

## Main results

* `Violation.perm_sorted` — sorting violations neither drops nor adds one.
* `Schema.violations_of_problems` — **data without a problem break no rule.**
* `Schema.violations_field`, `Schema.violations_item`, `Schema.le_of_violations` — what the rules
  say about parts of data.
-/

namespace ChipSupport

/-! ### Violations in order -/

namespace Violation

theorem perm_falling {run vs r rest : List Violation} {last : Violation}
    (h : falling run last vs = .ok (r, rest)) : (r ++ rest).Perm (run ++ last :: vs) := by
  induction vs generalizing run last with
  | nil =>
    cases h
    exact List.perm_middle.symm
  | cons v vs ih =>
    obtain ⟨earlier, -, h⟩ := Steps.bind_eq_ok_iff.mp h
    cases earlier with
    | true => exact (ih h).trans List.perm_middle.symm
    | false =>
      cases h
      exact List.perm_middle.symm

theorem perm_rising {run vs r rest : List Violation} {last : Violation}
    (h : rising run last vs = .ok (r, rest)) : (r ++ rest).Perm (run ++ last :: vs) := by
  induction vs generalizing run last with
  | nil =>
    cases h
    exact ((List.reverse_perm _).append_right _).trans List.perm_middle.symm
  | cons v vs ih =>
    obtain ⟨earlier, -, h⟩ := Steps.bind_eq_ok_iff.mp h
    cases earlier with
    | true =>
      cases h
      exact ((List.reverse_perm _).append_right _).trans List.perm_middle.symm
    | false => exact (ih h).trans List.perm_middle.symm

theorem perm_firstRun {vs r rest : List Violation} (h : firstRun vs = .ok (r, rest)) :
    (r ++ rest).Perm vs := by
  match vs with
  | [] =>
    cases h
    exact .refl _
  | [v] =>
    cases h
    exact .refl _
  | v :: w :: vs =>
    obtain ⟨earlier, -, h⟩ := Steps.bind_eq_ok_iff.mp h
    cases earlier with
    | true => exact perm_falling h
    | false => exact perm_rising h

theorem perm_insert {vs ws : List Violation} {v : Violation} (h : insert vs v = .ok ws) :
    ws.Perm (v :: vs) := by
  obtain ⟨n, -, h⟩ := Steps.bind_eq_ok_iff.mp h
  cases h
  refine List.perm_middle.trans ?_
  rw [List.take_append_drop]

theorem perm_foldlM_insert {run rest ws : List Violation} (h : rest.foldlM insert run = .ok ws) :
    ws.Perm (run ++ rest) := by
  induction rest generalizing run with
  | nil =>
    cases h
    rw [List.append_nil]
  | cons v rest ih =>
    rw [List.foldlM_cons, Steps.bind_eq_ok_iff] at h
    obtain ⟨run', hinsert, h⟩ := h
    exact (ih h).trans (((perm_insert hinsert).append_right rest).trans List.perm_middle.symm)

/-- Sorting violations neither drops nor adds one. -/
theorem perm_sorted {vs ws : List Violation} (h : sorted vs = .ok ws) : ws.Perm vs := by
  obtain ⟨⟨run, rest⟩, hrun, h⟩ := Steps.bind_eq_ok_iff.mp h
  exact (perm_foldlM_insert h).trans (perm_firstRun hrun)

end Violation

namespace Schema

/-- **Data without a problem break no rule.** -/
theorem violations_of_problems {s : Schema} {d : Data} (h : s.problems d = .ok []) :
    s.violations d = [] := by
  unfold problems at h
  dsimp only at h
  split at h
  · cases h
  obtain ⟨vs, hvs, h⟩ := Steps.bind_eq_ok_iff.mp h
  split at h
  · cases h
  have hnil : vs = [] := List.map_eq_nil_iff.mp (Except.ok.inj h)
  exact List.nil_perm.mp (hnil ▸ Violation.perm_sorted hvs)

/-! ### The rules for parts of data -/

variable {required : List String} {fields : List (String × Schema)} {d value : Data}

theorem untied_eq {entries : List (Data × Data)} (h : d.entries? = some entries) :
    d.untied = d := by
  cases d <;> first | rfl | cases h

theorem violations_of_mem_fields {entries : List (Data × Data)} {name : String} {s : Schema}
    (h : fieldViolations entries fields = []) (hs : (name, s) ∈ fields)
    (hvalue : Data.find? name entries = some value) : s.violations value = [] := by
  induction fields with
  | nil => cases hs
  | cons field rest ih =>
    obtain ⟨first, schema⟩ := field
    rw [fieldViolations, List.append_eq_nil_iff] at h
    rcases List.mem_cons.mp hs with heq | hs
    · cases heq
      rw [hvalue] at h
      exact List.map_eq_nil_iff.mp h.1
    · exact ih h.2 hs

/-- The value of a field follows the rules for the field. -/
theorem violations_field {name : String} {s : Schema}
    (h : (Schema.record required fields).violations d = []) (hs : (name, s) ∈ fields)
    (hvalue : d.get? name = some value) : s.violations value = [] := by
  rw [Data.get?, Option.bind_eq_some_iff] at hvalue
  obtain ⟨entries, hentries, hfind⟩ := hvalue
  rw [violations, untied_eq hentries, hentries] at h
  exact violations_of_mem_fields (List.append_eq_nil_iff.mp h).2 hs hfind

/-- An item of a list follows the rules for items. -/
theorem violations_item {item : Schema} {items : List Data}
    (h : (Schema.list item).violations (.list items) = []) :
    ∀ i ∈ items, item.violations i = [] := by
  intro i hi
  obtain ⟨k, hk, rfl⟩ := List.getElem_of_mem hi
  have hnil : items.zipIdx.flatMap (fun e => (item.violations e.1).map (Violation.under (.int e.2)))
      = [] := h
  have hmem : (items[k], k) ∈ items.zipIdx :=
    List.mem_zipIdx_iff_getElem?.mpr (List.getElem?_eq_getElem hk)
  exact List.map_eq_nil_iff.mp (List.flatMap_eq_nil_iff.mp hnil _ hmem)

/-- A whole number is not below its bound. -/
theorem le_of_violations {low n : Int} {high : Option Int}
    (h : (Schema.whole low high).violations (.int n) = []) : low ≤ n := by
  by_contra hlt
  have hbelow : decide (n < low) = true := decide_eq_true (Int.not_le.mp hlt)
  have hnil := (List.append_eq_nil_iff.mp h).1
  rw [if_pos hbelow] at hnil
  cases hnil

end Schema

end ChipSupport
