import ChipSupport.Proofs.Struct.Addresses

/-!
# Trees of groups, and the visits of a walk

Where no group is nested in itself and none has two aliases, the groups make a tree, and a group is
reached by one sequence of aliases only.  The walk through the groups visits an element of a
register in the order of the members, and no element twice.

## Main definitions

* `Peripheral.IsTree` — groups that make a tree.
* `Peripheral.NamesApart` — registers with names that are told apart.
* `RegisterAddress.visits` — the elements that the walk visits, in their order.

## Main results

* `Peripheral.IsTree.way_unique` — the aliases on the way to a group.
* `RegisterAddress.mem_visits` — the walk visits what is reached.
* `RegisterAddress.nodup_visits` — **the walk visits nothing twice.**
* `RegisterAddress.exists_labels` — the names of an instance are the labels of its visits.
-/

namespace ChipSupport

namespace Peripheral

/-! ### Trees of groups -/

/-- The registers and aliases of all groups. -/
def registers (p : Peripheral) : List Register :=
  p.groups.flatMap fun g => g.membersOf Mode.default_

/-- A peripheral whose groups have a single mode and make a tree. -/
structure IsTree (p : Peripheral) : Prop where
  /-- The groups have no modes besides the default one. -/
  modes : ∀ g ∈ p.groups, g.modes = [Mode.default_]
  /-- No group is nested in itself. -/
  acyclic : ∀ g ∈ p.groups, ¬ Relation.TransGen p.Nests g g
  /-- No group has two aliases. -/
  once : (((p.registers.filter Register.isAlias).map Register.name).filter fun name =>
    (p.group? name).isSome).Nodup

/-- The names of the registers of all groups, as parts of the names of addresses. -/
def registerNames (p : Peripheral) (convention : Convention) : List String :=
  (p.registers.filter fun r => !r.isAlias).map convention.registerMacroName

/-- The registers of a peripheral have names that are different and do not end in a digit. -/
structure NamesApart (p : Peripheral) (convention : Convention) : Prop where
  /-- No two registers have the same name. -/
  nodup : (p.registerNames convention).Nodup
  /-- No name ends in a digit. -/
  last : ∀ name ∈ p.registerNames convention, ∀ c ∈ name.toList.getLast?, c.isDigit = false

/-- Items of two lists that stand in a relation which no two items of all the lists are in, are one
item of one list. -/
theorem eq_of_pairwise_flatMap {α β : Type} {l : List α} {f : α → List β} {R : β → β → Prop}
    (hsymm : ∀ x y, R x y → R y x) (h : (l.flatMap f).Pairwise fun x y => ¬ R x y) {a b : α}
    (ha : a ∈ l) (hb : b ∈ l) {x y : β} (hx : x ∈ f a) (hy : y ∈ f b) (hxy : R x y) :
    a = b ∧ x = y := by
  obtain ⟨hinside, hacross⟩ := List.pairwise_flatMap.mp h
  have heq : a = b := by
    by_contra hne
    have hsymm' : Std.Symm fun a b => ∀ x ∈ f a, ∀ y ∈ f b, ¬ R x y :=
      ⟨fun a b h x hx y hy hxy => h y hy x hx (hsymm x y hxy)⟩
    exact hacross.forall ha hb hne x hx y hy hxy
  subst heq
  refine ⟨rfl, ?_⟩
  by_contra hne
  have hsymm' : Std.Symm fun x y => ¬ R x y := ⟨fun x y h hxy => h (hsymm y x hxy)⟩
  exact (hinside a ha).forall hx hy hne hxy

/-- Two aliases for the same group. -/
def SameGroup (p : Peripheral) (a b : Register) : Prop :=
  a.isAlias = true ∧ b.isAlias = true ∧
    ∃ sub, p.group? a.name = some sub ∧ p.group? b.name = some sub

/-- Two registers of the same name. -/
def SameName (convention : Convention) (r s : Register) : Prop :=
  r.isAlias = false ∧ s.isAlias = false ∧
    convention.registerMacroName r = convention.registerMacroName s

theorem name_of_group? {p : Peripheral} {name : String} {g : RegisterGroup}
    (h : p.group? name = some g) : g.name = name := by
  simpa using List.find?_some h

variable {p : Peripheral} {convention : Convention}

theorem IsTree.pairwise (h : p.IsTree) : p.registers.Pairwise fun a b => ¬ SameGroup p a b := by
  have honce := h.once
  rw [List.Nodup, List.pairwise_filter, List.pairwise_map, List.pairwise_filter] at honce
  refine honce.imp fun {a b} hne hsame => ?_
  obtain ⟨ha, hb, sub, hsub, hsub'⟩ := hsame
  refine hne ha hb (by simp [hsub]) (by simp [hsub']) ?_
  rw [← name_of_group? hsub, name_of_group? hsub']

theorem NamesApart.pairwise (h : p.NamesApart convention) :
    p.registers.Pairwise fun r s => ¬ SameName convention r s := by
  have hnodup := h.nodup
  rw [registerNames, List.Nodup, List.pairwise_map, List.pairwise_filter] at hnodup
  refine hnodup.imp fun {r s} hne hsame => ?_
  obtain ⟨hr, hs, hname⟩ := hsame
  exact hne (by simp [hr]) (by simp [hs]) hname

/-- A group has one alias, in one group. -/
theorem IsTree.alias_unique (h : p.IsTree) {g g' : RegisterGroup} (hg : g ∈ p.groups)
    (hg' : g' ∈ p.groups) {a a' : Register} (ha : a ∈ g.membersOf Mode.default_)
    (ha' : a' ∈ g'.membersOf Mode.default_) (hsame : SameGroup p a a') : g = g' ∧ a = a' := by
  refine eq_of_pairwise_flatMap (fun x y hxy => ?_) h.pairwise hg hg' ha ha' hsame
  obtain ⟨hx, hy, sub, hsub, hsub'⟩ := hxy
  exact ⟨hy, hx, sub, hsub', hsub⟩

/-- A name belongs to one register, in one group. -/
theorem NamesApart.register_unique (h : p.NamesApart convention) {g g' : RegisterGroup}
    (hg : g ∈ p.groups) (hg' : g' ∈ p.groups) {r r' : Register}
    (hr : r ∈ g.membersOf Mode.default_) (hr' : r' ∈ g'.membersOf Mode.default_)
    (hsame : SameName convention r r') : g = g' ∧ r = r' := by
  refine eq_of_pairwise_flatMap (fun x y hxy => ?_) h.pairwise hg hg' hr hr' hsame
  obtain ⟨hx, hy, hname⟩ := hxy
  exact ⟨hy, hx, hname.symm⟩

/-! ### Ways to a group -/

/-- The last step on the way to a group is an alias of it. -/
theorem Reaches.exists_last {g h : RegisterGroup} {path : NestPath} {step : Register × Int}
    (hreach : p.Reaches g (path ++ [step]) h) :
    ∃ parent, p.Reaches g path parent ∧ step.1 ∈ parent.membersOf Mode.default_ ∧
      step.1.isAlias = true ∧ p.group? step.1.name = some h := by
  induction path generalizing g with
  | nil =>
    cases hreach with
    | inside ha halias hsub _ _ hreach =>
      cases hreach
      exact ⟨g, .here g, ha, halias, hsub⟩
  | cons first path ih =>
    cases hreach with
    | inside ha halias hsub hk hlt hreach =>
      obtain ⟨parent, hparent, hlast⟩ := ih hreach
      exact ⟨parent, .inside ha halias hsub hk hlt hparent, hlast⟩

/-- What is reached is nested, some levels deep. -/
theorem Reaches.nests {g h : RegisterGroup} {path : NestPath} (hreach : p.Reaches g path h) :
    Relation.ReflTransGen p.Nests g h := by
  induction hreach with
  | here => exact .refl
  | inside ha halias hsub _ _ _ ih => exact .head ⟨_, ha, halias, hsub⟩ ih

/-- In a tree no steps lead from a group back to it. -/
theorem IsTree.eq_nil_of_reaches (h : p.IsTree) {g : RegisterGroup} (hg : g ∈ p.groups)
    {path : NestPath} (hreach : p.Reaches g path g) : path = [] := by
  rcases path.eq_nil_or_concat' with hnil | ⟨front, step, rfl⟩
  · exact hnil
  · obtain ⟨parent, hparent, ha, halias, hsub⟩ := hreach.exists_last
    have hcycle : Relation.TransGen p.Nests g g := .tail' hparent.nests ⟨_, ha, halias, hsub⟩
    exact absurd hcycle (h.acyclic g hg)

/-- **In a tree the way to a group is one sequence of aliases.** -/
theorem IsTree.way_unique (h : p.IsTree) {g : RegisterGroup} (hg : g ∈ p.groups)
    {path path' : NestPath} {inner : RegisterGroup} (hreach : p.Reaches g path inner)
    (hreach' : p.Reaches g path' inner) : path.map Prod.fst = path'.map Prod.fst := by
  -- induction from the end, as the group that is reached tells the last alias
  induction path using List.reverseRecOn generalizing path' inner with
  | nil =>
    cases hreach
    rw [h.eq_nil_of_reaches hg hreach']
  | append_singleton path step ih =>
    rcases path'.eq_nil_or_concat' with rfl | ⟨path', step', rfl⟩
    · cases hreach'
      rw [h.eq_nil_of_reaches hg hreach]
    · obtain ⟨parent, hparent, ha, halias, hsub⟩ := hreach.exists_last
      obtain ⟨parent', hparent', ha', halias', hsub'⟩ := hreach'.exists_last
      obtain ⟨rfl, heq⟩ := h.alias_unique (hparent.mem_groups hg) (hparent'.mem_groups hg) ha ha'
        ⟨halias, halias', inner, hsub, hsub'⟩
      rw [List.map_append, List.map_append, ih hparent hparent', List.map_singleton,
        List.map_singleton, heq]

end Peripheral

namespace RegisterAddress

/-! ### Visits -/

/-- An element that is visited: the way to its group, the register and its number. -/
abbrev Visit := NestPath × Register × Int

/-- The visits of a member, given the visits of an element of a nested group. -/
def memberVisits (p : Peripheral) (nested : Int → RegisterGroup → List Visit) (elements : Int)
    (r : Register) : List Visit :=
  if r.isAlias then
    match p.group? r.name with
    | some sub => (upTo r.count).flatMap fun k =>
      (nested r.count sub).map fun v => ((r, k) :: v.1, v.2)
    | none => []
  else (namedElements r { elements }).map fun i => ([], r, i)

/-- The visits of an element of a group, in an array of a given length. -/
def visits (p : Peripheral) : Nat → Int → RegisterGroup → List Visit
  | 0, _, _ => []
  | depth + 1, elements, g =>
    (g.membersOf Mode.default_).flatMap (memberVisits p (visits p depth) elements)

/-- The member by which a visit begins. -/
def Visit.member (v : Visit) : Register := (v.1.head?.map Prod.fst).getD v.2.1

/-- A visit of what is reached from an element of a group. -/
def Visited (p : Peripheral) (elements : Int) (g : RegisterGroup) (v : Visit) : Prop :=
  ∃ inner, p.Reaches g v.1 inner ∧ v.2.1 ∈ inner.membersOf Mode.default_ ∧
    v.2.1.isAlias = false ∧ v.2.2 ∈ namedElements v.2.1 { elements := innermost elements v.1 }

variable {p : Peripheral} {nested : Int → RegisterGroup → List Visit} {elements : Int}

theorem mem_memberVisits {r : Register} {v : Visit} :
    v ∈ memberVisits p nested elements r ↔
      (r.isAlias = false ∧ ∃ i ∈ namedElements r { elements }, v = ([], r, i)) ∨
      (r.isAlias = true ∧ ∃ sub, p.group? r.name = some sub ∧ ∃ k ∈ upTo r.count,
        ∃ w ∈ nested r.count sub, v = ((r, k) :: w.1, w.2)) := by
  unfold memberVisits
  cases r.isAlias with
  | false => simp [eq_comm]
  | true =>
    cases p.group? r.name with
    | none => simp
    | some sub => simp [eq_comm]

theorem member_of_mem {r : Register} {v : Visit} (hv : v ∈ memberVisits p nested elements r) :
    v.member = r := by
  rcases mem_memberVisits.mp hv with ⟨-, i, -, rfl⟩ | ⟨-, sub, -, k, -, w, -, rfl⟩
  · rfl
  · rfl

theorem nodup_upTo (n : Int) : (upTo n).Nodup :=
  List.nodup_range.map fun _ _ => Int.ofNat_inj.mp

theorem nodup_namedElements (r : Register) (at_ : Place) : (namedElements r at_).Nodup := by
  unfold namedElements
  split
  · exact List.nodup_singleton 0
  · exact nodup_upTo _

/-- A member is visited without repetition, if the nested groups are. -/
theorem nodup_memberVisits {r : Register}
    (h : ∀ sub, p.group? r.name = some sub → (nested r.count sub).Nodup) :
    (memberVisits p nested elements r).Nodup := by
  unfold memberVisits
  split
  · split
    · next sub hsub =>
      rw [List.nodup_flatMap]
      constructor
      · intro k _
        refine (h sub hsub).map fun v w hvw => ?_
        simp only [Prod.mk.injEq, List.cons.injEq, true_and] at hvw
        exact Prod.ext hvw.1 hvw.2
      · -- the first step tells the number of the element
        refine (nodup_upTo r.count).imp fun {k l} hne v hk hl => hne ?_
        obtain ⟨w, -, rfl⟩ := List.mem_map.mp hk
        obtain ⟨w', -, heq⟩ := List.mem_map.mp hl
        simp only [Prod.mk.injEq, List.cons.injEq, true_and] at heq
        exact heq.1.1.symm
    · exact List.nodup_nil
  · refine (nodup_namedElements r { elements }).map fun i j hij => ?_
    simpa using hij

/-- A visit of a register of the group itself. -/
theorem visited_nil_iff {g : RegisterGroup} {r : Register} {i : Int} :
    Visited p elements g ([], r, i) ↔
      r ∈ g.membersOf Mode.default_ ∧ r.isAlias = false ∧ i ∈ namedElements r { elements } := by
  constructor
  · rintro ⟨inner, hreach, hr⟩
    cases hreach
    exact hr
  · intro hr
    exact ⟨g, .here g, hr⟩

/-- A visit inside of a nested group. -/
theorem visited_cons_iff {g : RegisterGroup} {a : Register} {k : Int}
    {path : NestPath} {r : Register} {i : Int} :
    Visited p elements g ((a, k) :: path, r, i) ↔
      a ∈ g.membersOf Mode.default_ ∧ a.isAlias = true ∧ 0 ≤ k ∧ k < a.count ∧
        ∃ sub, p.group? a.name = some sub ∧ Visited p a.count sub (path, r, i) := by
  constructor
  · rintro ⟨inner, hreach, hr⟩
    cases hreach with
    | inside ha halias hsub hk hlt hreach => exact ⟨ha, halias, hk, hlt, _, hsub, inner, hreach, hr⟩
  · rintro ⟨ha, halias, hk, hlt, sub, hsub, inner, hreach, hr⟩
    exact ⟨inner, .inside ha halias hsub hk hlt hreach, hr⟩

/-- What is visited from an element of a group begins by one of its members. -/
theorem visited_iff {g : RegisterGroup} {v : Visit} :
    Visited p elements g v ↔ ∃ r ∈ g.membersOf Mode.default_,
      (r.isAlias = false ∧ ∃ i ∈ namedElements r { elements }, v = ([], r, i)) ∨
      (r.isAlias = true ∧ ∃ sub, p.group? r.name = some sub ∧ ∃ k ∈ upTo r.count,
        ∃ w, Visited p r.count sub w ∧ v = ((r, k) :: w.1, w.2)) := by
  constructor
  · obtain ⟨path, r, i⟩ := v
    intro hv
    cases path with
    | nil =>
      obtain ⟨hr, hplain, hi⟩ := visited_nil_iff.mp hv
      exact ⟨r, hr, .inl ⟨hplain, i, hi, rfl⟩⟩
    | cons step path =>
      obtain ⟨ha, halias, hk, hlt, sub, hsub, hinner⟩ := visited_cons_iff.mp hv
      exact ⟨_, ha, .inr ⟨halias, sub, hsub, _, mem_upTo.mpr ⟨hk, hlt⟩, _, hinner, rfl⟩⟩
  · rintro ⟨r, hr, ⟨hplain, i, hi, rfl⟩ | ⟨halias, sub, hsub, k, hk, w, hw, rfl⟩⟩
    · exact visited_nil_iff.mpr ⟨hr, hplain, hi⟩
    · rw [mem_upTo] at hk
      exact visited_cons_iff.mpr ⟨hr, halias, hk.1, hk.2, sub, hsub, hw⟩

/-- **The walk visits what is reached.** -/
theorem mem_visits {depth : Nat} {g : RegisterGroup} (h : p.NestedWithin depth g) {v : Visit} :
    v ∈ visits p depth elements g ↔ Visited p elements g v := by
  induction depth generalizing elements g v with
  | zero => exact absurd h id
  | succ depth ih =>
    rw [visits, List.mem_flatMap, visited_iff]
    refine exists_congr fun r => and_congr_right fun hr => ?_
    rw [mem_memberVisits]
    refine or_congr_right (and_congr_right fun halias => exists_congr fun sub =>
      and_congr_right fun hsub => ?_)
    simp only [ih (h sub ⟨r, hr, halias, hsub⟩)]

/-! ### Visits of a tree -/

section Tree

variable {convention : Convention} (htree : p.IsTree) (hnames : p.NamesApart convention)
include htree hnames

/-- Members of a group that are visited are different. -/
theorem pairwise_members {g : RegisterGroup} (hg : g ∈ p.groups) :
    (g.membersOf Mode.default_).Pairwise fun r s =>
      (r.isAlias = true → (p.group? r.name).isSome) → r ≠ s := by
  have halias := (List.pairwise_flatMap.mp htree.pairwise).1 g hg
  have hplain := (List.pairwise_flatMap.mp hnames.pairwise).1 g hg
  refine (halias.and hplain).imp ?_
  rintro r s ⟨hgroup, hname⟩ hsome rfl
  cases h : r.isAlias with
  | false => exact hname ⟨h, h, rfl⟩
  | true =>
    obtain ⟨sub, hsub⟩ := Option.isSome_iff_exists.mp (hsome h)
    exact hgroup ⟨h, h, sub, hsub, hsub⟩

/-- **The walk visits nothing twice.** -/
theorem nodup_visits (depth : Nat) {g : RegisterGroup} (hg : g ∈ p.groups) :
    (visits p depth elements g).Nodup := by
  induction depth generalizing elements g with
  | zero => exact List.nodup_nil
  | succ depth ih =>
    rw [visits, List.nodup_flatMap]
    constructor
    · intro r _
      exact nodup_memberVisits fun sub hsub => ih (Peripheral.mem_groups_of_group? hsub)
    · -- a visit tells the member by which it begins
      refine (pairwise_members htree hnames hg).imp fun {r s} hne v hv hv' => ?_
      refine hne (fun halias => ?_) ((member_of_mem hv).symm.trans (member_of_mem hv'))
      rcases mem_memberVisits.mp hv with ⟨hplain, -⟩ | ⟨-, sub, hsub, -⟩
      · rw [halias] at hplain
        cases hplain
      · simp [hsub]

end Tree

/-! ### Names of visits -/

/-- The name of a visited element, after the element numbers of the groups around. -/
def nameAfter (inst : Instance) (convention : Convention) (numbers : String) (elements : Int)
    (v : Visit) : String :=
  (ofElement inst convention (numbersAlong numbers v.1) (innermost elements v.1) 0 v.2.1 v.2.2).name

/-- The names of a register's elements are those of its visits. -/
theorem map_name_ofRegister (inst : Instance) (convention : Convention) (r : Register)
    (g : RegisterGroup) (at_ : Place) (k : Int) :
    (ofRegister r g Mode.default_ inst convention at_ k).map name
      = (namedElements r { elements := at_.elements }).map fun i =>
        nameAfter inst convention (at_.numbersAt k) at_.elements ([], r, i) := by
  rw [ofRegister, List.map_map]
  refine List.map_congr_left fun i _ => ?_
  simp only [Function.comp_apply, elementName, nameAfter, ofElement, numbersAlong, innermost,
    show Mode.isDefault Mode.default_ = true from rfl, if_true, String.append_empty]
  rfl

/-- **The names that the walk finds are those of its visits,** at each element of the group. -/
theorem exists_names (htree : p.IsTree) (inst : Instance) (convention : Convention) (depth : Nat) :
    ∀ (g : RegisterGroup) (at_ : Place), g ∈ p.groups → p.NestedWithin depth g →
      ∃ found, ofGroup p inst convention depth g at_ = .ok found ∧
        found.map name = (upTo at_.elements).flatMap fun k =>
          (visits p depth at_.elements g).map
            (nameAfter inst convention (at_.numbersAt k) at_.elements) := by
  -- induction on the levels of nested groups
  induction depth with
  | zero => intro g at_ _ hwithin; exact absurd hwithin id
  | succ depth ih =>
    intro g at_ hg hwithin
    have hmember : ∀ k, ∀ r ∈ g.membersOf Mode.default_, ∃ found,
        ofMember p inst convention depth g at_ k r = .ok found ∧ found.map name
          = (memberVisits p (visits p depth) at_.elements r).map
            (nameAfter inst convention (at_.numbersAt k) at_.elements) := by
      intro k r hr
      unfold ofMember memberVisits
      cases halias : r.isAlias with
      | false => exact ⟨_, rfl, by rw [map_name_ofRegister]; simp⟩
      | true =>
        cases hsub : p.group? r.name with
        | none => exact ⟨[], rfl, rfl⟩
        | some sub =>
          obtain ⟨found, hrun, hnames⟩ := ih sub (at_.nested r g k)
            (Peripheral.mem_groups_of_group? hsub) (hwithin sub ⟨r, hr, halias, hsub⟩)
          refine ⟨found, hrun, ?_⟩
          rw [hnames, if_pos rfl, List.map_flatMap]
          refine List.flatMap_congr fun m _ => ?_
          rw [List.map_map, numbersAt_nested]
          rfl
    by_cases helements : 1 ≤ at_.elements
    · -- the members at one element, and all elements
      have helement := fun k (_ : k ∈ upTo at_.elements) =>
        Steps.exists_mapM_flatten_map (hmember k)
      obtain ⟨found, hrun, hnames⟩ := Steps.exists_mapM_flatten_map helement
      refine ⟨found, ?_, ?_⟩
      · rw [ofGroup_succ (htree.modes g hg) helements]
        exact hrun
      · rw [hnames]
        refine List.flatMap_congr fun k _ => ?_
        rw [visits, List.map_flatMap]
    · have hnone : upTo at_.elements = [] := by
        rw [upTo, Int.toNat_of_nonpos (by omega)]
        rfl
      exact ⟨[], by rw [ofGroup, if_pos (by omega)], by rw [hnone]; rfl⟩

/-- **The names of an instance are the labels of its visits,** each of which is made once. -/
theorem exists_labels {convention : Convention} (htree : p.IsTree)
    (hnames : p.NamesApart convention) {base : RegisterGroup} (hbase : p.baseGroup? = some base)
    (inst : Instance) :
    ∃ (found : List RegisterAddress) (vs : List Visit),
      ofInstance p base inst convention = .ok found ∧
      found.map name = vs.map (fun v => label inst convention v.1 v.2.1 v.2.2) ∧ vs.Nodup ∧
      ∀ v, v ∈ vs ↔ Visited p 1 base v := by
  have hmem : base ∈ p.groups := Peripheral.mem_groups_of_group? hbase
  have hwithin := Peripheral.nestedWithin htree.acyclic hmem
  obtain ⟨found, hrun, hfound⟩ :=
    exists_names htree inst convention p.groups.length base {} hmem hwithin
  refine ⟨found, visits p p.groups.length 1 base, hrun, ?_, nodup_visits htree hnames _ hmem,
    fun v => mem_visits hwithin⟩
  -- the base group is no array, so that the walk begins at its only element
  rw [hfound, show upTo ({} : Place).elements = [0] from rfl, List.flatMap_singleton]
  rfl

end RegisterAddress

end ChipSupport
