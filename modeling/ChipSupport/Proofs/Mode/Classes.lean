import ChipSupport.Proofs.Mode

/-!
# Modes that become one

Merging takes the modes one after the other and cuts their names on the way.  Where no name begins
with a separator, the result is the same as that of sorting the modes into classes first: modes
become one if they have the same members and their names begin with the same character.

## Main definitions

* `Plain` — names that do not begin with a separator.
* `joins` — modes that become one.
* `mergedName` — the name of what a mode becomes part of.

## Main results

* `absorb_eq` — what is merged into a mode, and the name that it then has.
* `mergedName_of_mem_coalesce`, `exists_mergedName_mem_coalesce` — what is left is named by
  `mergedName`.
* `nodup_coalesce_iff` — **when merging gives no name twice.**
* `names_tell_coalesce_iff` — when the names that are left tell a property of the members.
-/

namespace ChipSupport.Mode

/-! ### Names -/

/-- A name that is not empty and does not begin with a separator. -/
def Plain (name : String) : Prop := ∃ c, name.toList.head? = some c ∧ c ≠ '_'

/-- Names that begin with different characters have nothing in common. -/
theorem commonStart_eq_empty {a b : String} (h : a.toList.head? ≠ b.toList.head?) :
    commonStart a b = "" := by
  rw [← String.toList_inj, toList_commonStart, String.toList_empty]
  cases ha : a.toList with
  | nil => rfl
  | cons c as =>
    cases hb : b.toList with
    | nil => rfl
    | cons d bs =>
      rw [ha, hb, List.head?_cons, List.head?_cons, ne_eq, Option.some.injEq] at h
      rw [sharedStart, if_neg h]
      rfl

/-- A separator at the end of a name is not the beginning of a plain one. -/
theorem head?_dropSeparator {c : Char} (hc : c ≠ '_') (s : List Char) :
    (dropSeparator (c :: s)).head? = some c := by
  unfold dropSeparator
  split
  · rename_i hlast
    cases s with
    | nil => exact absurd (Option.some.inj hlast) hc
    | cons d s => rfl
  · rfl

theorem head?_commonStart {a b : String} (ha : Plain a) (h : a.toList.head? = b.toList.head?) :
    (commonStart a b).toList.head? = a.toList.head? := by
  obtain ⟨c, hc, hplain⟩ := ha
  rw [hc] at h
  obtain ⟨as, has⟩ := List.head?_eq_some_iff.mp hc
  obtain ⟨bs, hbs⟩ := List.head?_eq_some_iff.mp h.symm
  rw [toList_commonStart, hc, has, hbs, sharedStart, if_pos rfl, head?_dropSeparator hplain]

/-- A plain name has something in common with those that begin alike, and with no others. -/
theorem isEmpty_commonStart {a : String} (ha : Plain a) (b : String) :
    (commonStart a b).isEmpty = !(a.toList.head? == b.toList.head?) := by
  by_cases h : a.toList.head? = b.toList.head?
  · have hne : commonStart a b ≠ "" := by
      intro hempty
      have hhead := head?_commonStart ha h
      obtain ⟨c, hc, -⟩ := ha
      rw [hempty, hc] at hhead
      cases hhead
    simp [h, hne]
  · rw [commonStart_eq_empty h, beq_false_of_ne h]
    rfl

variable {α β : Type}

/-- The common start of a name and those of other modes, the last one first. -/
def sharedName (name : String) (others : List (String × α)) : String :=
  others.foldr (fun other name => commonStart name other.1) name

theorem head?_sharedName {name : String} (hname : Plain name) {others : List (String × α)}
    (h : ∀ e ∈ others, name.toList.head? = e.1.toList.head?) :
    (sharedName name others).toList.head? = name.toList.head? := by
  induction others with
  | nil => rfl
  | cons other rest ih =>
    rw [List.forall_mem_cons] at h
    have hrest := ih h.2
    have hplain : Plain (sharedName name rest) := by
      rw [Plain, hrest]
      exact hname
    rw [sharedName, List.foldr_cons, ← sharedName, head?_commonStart hplain (hrest.trans h.1),
      hrest]

/-! ### Classes of modes -/

/-- Whether two modes become one: they have the same members, and their names begin alike. -/
def joins (same : α → α → Bool) (a b : String × α) : Bool :=
  same a.2 b.2 && a.1.toList.head? == b.1.toList.head?

/-- The name of what a mode becomes part of: the common start of the names of all modes that it
becomes one with. -/
def mergedName (same : α → α → Bool) (modes : List (String × α)) (m : String × α) : String :=
  match modes.filter (joins same m) with
  | [] => m.1
  | first :: rest => sharedName first.1 rest

/-- The common start of the names of a class begins like all of them. -/
theorem head?_sharedName_filter (same : α → α → Bool) {m : String × α} (hm : Plain m.1)
    (rest : List (String × α)) :
    (sharedName m.1 (rest.filter (joins same m))).toList.head? = m.1.toList.head? := by
  refine head?_sharedName hm fun e he => ?_
  have hjoins := (List.mem_filter.mp he).2
  rw [joins, Bool.and_eq_true, beq_iff_eq] at hjoins
  exact hjoins.2

/-- **The modes that are merged into a mode are those that it becomes one with**, and its name is
cut to the common start of their names. -/
theorem absorb_eq (same : α → α → Bool) {mode : String} (hmode : Plain mode) (members : α)
    (rest : List (String × α)) :
    absorb same mode members rest
      = (sharedName mode (rest.filter (joins same (mode, members))),
        rest.filter fun e => !joins same (mode, members) e) := by
  induction rest with
  | nil => rfl
  | cons other rest ih =>
    have hhead : (sharedName mode (rest.filter (joins same (mode, members)))).toList.head?
        = mode.toList.head? :=
      head?_sharedName_filter same (m := (mode, members)) hmode rest
    have hplain : Plain (sharedName mode (rest.filter (joins same (mode, members)))) := by
      rw [Plain, hhead]
      exact hmode
    -- the name so far begins like the first one, so that it decides about the next in the same way
    rw [absorb_cons, ih, isEmpty_commonStart hplain, Bool.not_not, hhead, List.filter_cons,
      List.filter_cons]
    change (if joins same (mode, members) other = true then _ else _) = _
    cases joins same (mode, members) other <;> rfl

/-- Merging goes on with the modes that the first one does not become one with. -/
theorem coalesce_cons_of_plain (same : α → α → Bool) {m : String × α} (hm : Plain m.1)
    (rest : List (String × α)) :
    coalesce same (m :: rest)
      = (sharedName m.1 (rest.filter (joins same m)), m.2)
        :: coalesce same (rest.filter fun e => !joins same m e) := by
  rw [coalesce_cons, absorb_eq same hm]

/-- Induction over the classes of modes, from the first one on. -/
@[elab_as_elim]
theorem classInduction (same : α → α → Bool) {motive : List (String × α) → Prop}
    (nil : motive [])
    (cons : ∀ m rest, motive (rest.filter fun e => !joins same m e) → motive (m :: rest)) :
    ∀ modes, motive modes
  | [] => nil
  | m :: rest => cons m rest (classInduction same nil cons _)
termination_by modes => modes.length
decreasing_by exact Nat.lt_succ_of_le (List.length_filter_le _ _)

theorem forall_mem_apart {same : α → α → Bool} {m : String × α} {rest : List (String × α)}
    {p : String × α → Prop} (h : ∀ e ∈ m :: rest, p e) :
    ∀ e ∈ rest.filter fun e => !joins same m e, p e :=
  fun e he => h e (List.mem_cons_of_mem m (List.mem_filter.mp he).1)

section Key

/-! Members are the same if they have the same key. -/

variable {same : α → α → Bool} {key : α → β} (hkey : ∀ a b, same a b = true ↔ key a = key b)
include hkey

theorem joins_iff {a b : String × α} :
    joins same a b = true ↔ key a.2 = key b.2 ∧ a.1.toList.head? = b.1.toList.head? := by
  rw [joins, Bool.and_eq_true, beq_iff_eq, hkey]

theorem joins_self (a : String × α) : joins same a a = true := (joins_iff hkey).mpr ⟨rfl, rfl⟩

/-- Modes that become one become one with the same modes. -/
theorem joins_congr {a b : String × α} (h : joins same a b = true) :
    joins same a = joins same b := by
  rw [joins_iff hkey] at h
  funext c
  rw [Bool.eq_iff_iff, joins_iff hkey, joins_iff hkey, h.1, h.2]

theorem mergedName_congr {a b : String × α} (h : joins same a b = true)
    {modes : List (String × α)} (ha : a ∈ modes) :
    mergedName same modes a = mergedName same modes b := by
  unfold mergedName
  rw [← joins_congr hkey h]
  cases hclass : modes.filter (joins same a) with
  | nil => exact absurd (joins_self hkey a) (List.filter_eq_nil_iff.mp hclass a ha)
  | cons first rest => rfl

theorem mergedName_cons_self (m : String × α) (rest : List (String × α)) :
    mergedName same (m :: rest) m = sharedName m.1 (rest.filter (joins same m)) := by
  rw [mergedName, List.filter_cons_of_pos (joins_self hkey m)]

/-- A mode that the first one does not become one with is merged among the others. -/
theorem mergedName_cons_of_not {m n : String × α} (h : joins same m n = false)
    (rest : List (String × α)) :
    mergedName same (m :: rest) n = mergedName same (rest.filter fun e => !joins same m e) n := by
  have hapart : ∀ e, joins same n e = true → joins same m e = false := by
    intro e he
    rw [Bool.eq_false_iff]
    intro hme
    rw [joins_iff hkey] at he hme
    have hmn := (joins_iff hkey).mpr ⟨hme.1.trans he.1.symm, hme.2.trans he.2.symm⟩
    rw [h] at hmn
    cases hmn
  have hfirst : ¬ joins same n m = true := by
    intro hnm
    have hself := hapart m hnm
    rw [joins_self hkey m] at hself
    cases hself
  have hrest : ∀ e ∈ rest, (joins same n e && !joins same m e) = joins same n e := by
    intro e _
    cases hne : joins same n e with
    | false => rfl
    | true => rw [hapart e hne]; rfl
  unfold mergedName
  rw [List.filter_cons_of_neg hfirst, List.filter_filter, List.filter_congr hrest]

/-! ### What is left -/

/-- What is left of a class has the name and the members of the mode that it begins with. -/
theorem mergedName_of_mem_coalesce {modes : List (String × α)}
    (hplain : ∀ m ∈ modes, Plain m.1) {e : String × α} (he : e ∈ coalesce same modes) :
    ∃ m ∈ modes, m.2 = e.2 ∧ mergedName same modes m = e.1
      ∧ m.1.toList.head? = e.1.toList.head? := by
  induction modes using classInduction same with
  | nil =>
    rw [coalesce_nil] at he
    cases he
  | cons first rest ih =>
    have hfirst := hplain first List.mem_cons_self
    rw [coalesce_cons_of_plain same hfirst] at he
    rcases List.mem_cons.mp he with rfl | he
    · refine ⟨first, List.mem_cons_self, rfl, mergedName_cons_self hkey first rest, ?_⟩
      exact (head?_sharedName_filter same hfirst rest).symm
    · obtain ⟨m, hm, hmembers, hname, hhead⟩ := ih (forall_mem_apart hplain) he
      obtain ⟨hrest, hapart⟩ := List.mem_filter.mp hm
      rw [Bool.not_eq_true'] at hapart
      refine ⟨m, List.mem_cons_of_mem first hrest, hmembers, ?_, hhead⟩
      rw [mergedName_cons_of_not hkey hapart]
      exact hname

/-- Every mode is left as a part of one that has its merged name and the same members. -/
theorem exists_mergedName_mem_coalesce {modes : List (String × α)}
    (hplain : ∀ m ∈ modes, Plain m.1) {m : String × α} (hm : m ∈ modes) :
    ∃ e ∈ coalesce same modes, e.1 = mergedName same modes m ∧ same e.2 m.2 = true := by
  induction modes using classInduction same with
  | nil => cases hm
  | cons first rest ih =>
    rw [coalesce_cons_of_plain same (hplain first List.mem_cons_self)]
    cases hjoins : joins same first m with
    | true =>
      refine ⟨_, List.mem_cons_self, ?_, ?_⟩
      · rw [← mergedName_congr hkey hjoins List.mem_cons_self, mergedName_cons_self hkey]
      · exact (hkey _ _).mpr ((joins_iff hkey).mp hjoins).1
    | false =>
      have hapart : m ∈ rest.filter fun e => !joins same first e := by
        rcases List.mem_cons.mp hm with rfl | hm
        · rw [joins_self hkey] at hjoins
          cases hjoins
        · exact List.mem_filter.mpr ⟨hm, by rw [hjoins]; rfl⟩
      obtain ⟨e, he, hname, hsame⟩ := ih (forall_mem_apart hplain) hapart
      refine ⟨e, List.mem_cons_of_mem _ he, ?_, hsame⟩
      rw [mergedName_cons_of_not hkey hjoins]
      exact hname

/-- No two modes that are left become one. -/
theorem pairwise_coalesce {modes : List (String × α)} (hplain : ∀ m ∈ modes, Plain m.1) :
    (coalesce same modes).Pairwise fun a b => joins same a b = false := by
  induction modes using classInduction same with
  | nil =>
    rw [coalesce_nil]
    exact List.Pairwise.nil
  | cons first rest ih =>
    have hfirst := hplain first List.mem_cons_self
    rw [coalesce_cons_of_plain same hfirst, List.pairwise_cons]
    -- what is left later comes from modes that the first one does not become one with
    refine ⟨fun e he => ?_, ih (forall_mem_apart hplain)⟩
    obtain ⟨m, hm, hmembers, -, hhead⟩ :=
      mergedName_of_mem_coalesce hkey (forall_mem_apart hplain) he
    have hapart := (List.mem_filter.mp hm).2
    rw [Bool.not_eq_true', joins, hmembers, hhead] at hapart
    rw [joins, head?_sharedName_filter same hfirst]
    exact hapart

/-- **Merging gives no name twice exactly if modes with the same merged name have the same
members.** -/
theorem nodup_coalesce_iff {modes : List (String × α)} (hplain : ∀ m ∈ modes, Plain m.1) :
    ((coalesce same modes).map Prod.fst).Nodup ↔ ∀ a ∈ modes, ∀ b ∈ modes,
      mergedName same modes a = mergedName same modes b → same a.2 b.2 = true := by
  constructor
  · intro hnodup a ha b hb hname
    obtain ⟨e, he, hea, hmembersA⟩ := exists_mergedName_mem_coalesce hkey hplain ha
    obtain ⟨e', he', heb, hmembersB⟩ := exists_mergedName_mem_coalesce hkey hplain hb
    have heq : e = e' := List.inj_on_of_nodup_map hnodup he he' (by rw [hea, heb, hname])
    rw [hkey] at hmembersA hmembersB ⊢
    rw [← hmembersA, heq, hmembersB]
  · intro h
    rw [List.Nodup, List.pairwise_map]
    refine (pairwise_coalesce hkey hplain).imp_of_mem fun {e e'} he he' hapart hname => ?_
    obtain ⟨a, ha, hmembersA, hea, -⟩ := mergedName_of_mem_coalesce hkey hplain he
    obtain ⟨b, hb, hmembersB, heb, -⟩ := mergedName_of_mem_coalesce hkey hplain he'
    have hsame := h a ha b hb (by rw [hea, heb, hname])
    rw [hmembersA, hmembersB] at hsame
    rw [joins, hsame, hname, beq_self_eq_true] at hapart
    cases hapart

/-- What is left is known from its name and members. -/
theorem eq_of_mem_coalesce {modes : List (String × α)} (hplain : ∀ m ∈ modes, Plain m.1)
    {a b : String × α} (ha : a ∈ coalesce same modes) (hb : b ∈ coalesce same modes)
    (hname : a.1 = b.1) (hmembers : same a.2 b.2 = true) : a = b := by
  have hjoins : joins same a b = true :=
    (joins_iff hkey).mpr ⟨(hkey _ _).mp hmembers, by rw [hname]⟩
  have hsymm : Std.Symm fun a b : String × α => joins same a b = false := by
    refine ⟨fun a b hab => ?_⟩
    rw [Bool.eq_false_iff, ne_eq, joins_iff hkey] at hab ⊢
    exact fun hba => hab ⟨hba.1.symm, hba.2.symm⟩
  by_contra hne
  have hapart := (pairwise_coalesce hkey hplain).forall ha hb hne
  rw [hjoins] at hapart
  cases hapart

/-- **The names that merging leaves tell a property of the members exactly if the merged names
do.** -/
theorem names_tell_coalesce_iff {γ : Type} {g : α → γ}
    (hg : ∀ a b, same a b = true → g a = g b) {modes : List (String × α)}
    (hplain : ∀ m ∈ modes, Plain m.1) :
    (∀ a ∈ coalesce same modes, ∀ b ∈ coalesce same modes, a.1 = b.1 → g a.2 = g b.2) ↔
      ∀ a ∈ modes, ∀ b ∈ modes,
        mergedName same modes a = mergedName same modes b → g a.2 = g b.2 := by
  constructor
  · intro h a ha b hb hname
    obtain ⟨e, he, hea, hmembersA⟩ := exists_mergedName_mem_coalesce hkey hplain ha
    obtain ⟨e', he', heb, hmembersB⟩ := exists_mergedName_mem_coalesce hkey hplain hb
    rw [← hg _ _ hmembersA, ← hg _ _ hmembersB]
    exact h e he e' he' (by rw [hea, heb, hname])
  · intro h e he e' he' hname
    obtain ⟨a, ha, hmembersA, hea, -⟩ := mergedName_of_mem_coalesce hkey hplain he
    obtain ⟨b, hb, hmembersB, heb, -⟩ := mergedName_of_mem_coalesce hkey hplain he'
    rw [← hmembersA, ← hmembersB]
    exact h a ha b hb (by rw [hea, heb, hname])

end Key

end ChipSupport.Mode
