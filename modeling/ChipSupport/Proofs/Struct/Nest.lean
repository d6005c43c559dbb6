import ChipSupport.Proofs.Struct.Members

/-!
# Nests of group structs

The struct of a group holds the structs of its nested groups, as arrays where an alias counts
several elements.  The sizes of these structs and the positions in them are those of packed structs
in C: they are added up over the members that are written, and nothing is taken from the offsets or
sizes that the document states.

## Main definitions

* `StructBytes`, `MemberBytes` — the bytes of a struct and of its members.
* `ElementAt` — the position of a register's element in the nest.
* `Peripheral.Reaches` — the groups that are reached through nested groups.
* `Peripheral.WellLaid` — the conditions under which a document describes a nest.

## Main results

* `Peripheral.nestedWithin` — groups without a cycle are nested no deeper than there are groups.
* `structBytes_iff` — the struct of a group has the size of the group.
* `elementAt_iff` — the position of an element, as the sum of the offsets on the way to it.
-/

namespace ChipSupport

open GroupEntry

/-! ### Packed structs -/

/-- The bytes of the integer type of a register. -/
def Register.typeBytes (r : Register) : Int :=
  if r.size = 1 then 1 else if r.size = 2 then 2 else 4

/-- The aliases on the way to a nested group, outermost first, each with an element's number. -/
abbrev NestPath := List (Register × Int)

mutual

/-- The packed struct of a group takes a number of bytes. -/
inductive StructBytes (p : Peripheral) : RegisterGroup → Int → Prop
  /-- A struct takes the bytes of its members. -/
  | members {g : RegisterGroup} {n : Int} :
    MemberBytes p (layoutMembers (g.structMembers Mode.default_) g.size) n → StructBytes p g n

/-- Members that follow each other take a number of bytes. -/
inductive MemberBytes (p : Peripheral) : List GroupEntry → Int → Prop
  /-- No members take no bytes. -/
  | none : MemberBytes p [] 0
  /-- Reserved bytes. -/
  | reserved {number bytes n : Int} {entries : List GroupEntry} :
    MemberBytes p entries n → MemberBytes p (.reserved number bytes :: entries) (bytes + n)
  /-- A register takes the bytes of its integer type for each element. -/
  | plain {r : Register} {n : Int} {entries : List GroupEntry} : r.isAlias = false →
    MemberBytes p entries n → MemberBytes p (.register r :: entries) (r.count * r.typeBytes + n)
  /-- A nested group takes the bytes of its struct for each element. -/
  | nested {r : Register} {sub : RegisterGroup} {m n : Int} {entries : List GroupEntry} :
    r.isAlias = true → p.group? r.name = some sub → StructBytes p sub m →
    MemberBytes p entries n → MemberBytes p (.register r :: entries) (r.count * m + n)

end

/-- An element of a register lies at a position in the struct of a group, reached through elements
of nested groups. -/
inductive ElementAt (p : Peripheral) : RegisterGroup → NestPath → Register → Int → Int → Prop
  /-- An element of a member: behind the members in front of it and its own earlier elements. -/
  | here {g : RegisterGroup} {r : Register} {before after : List GroupEntry} {i n : Int} :
    layoutMembers (g.structMembers Mode.default_) g.size = before ++ .register r :: after →
    MemberBytes p before n → r.isAlias = false → 0 ≤ i → i < r.count →
    ElementAt p g [] r i (n + i * r.typeBytes)
  /-- An element inside of an element of a nested group. -/
  | inside {g sub : RegisterGroup} {a r : Register} {before after : List GroupEntry}
      {path : NestPath} {k i m n pos : Int} :
    layoutMembers (g.structMembers Mode.default_) g.size = before ++ .register a :: after →
    MemberBytes p before n → a.isAlias = true → p.group? a.name = some sub →
    StructBytes p sub m → 0 ≤ k → k < a.count → ElementAt p sub path r i pos →
    ElementAt p g ((a, k) :: path) r i (n + k * m + pos)

namespace Peripheral

/-! ### Nested groups -/

/-- A group holds an alias for another one. -/
def Nests (p : Peripheral) (g sub : RegisterGroup) : Prop :=
  ∃ a ∈ g.membersOf Mode.default_, a.isAlias = true ∧ p.group? a.name = some sub

/-- A group is reached from another one by a choice of an element in each array of groups. -/
inductive Reaches (p : Peripheral) : RegisterGroup → NestPath → RegisterGroup → Prop
  /-- Every group is reached from itself. -/
  | here (g : RegisterGroup) : Reaches p g [] g
  /-- The groups reached from an element of a nested group. -/
  | inside {g sub h : RegisterGroup} {a : Register} {k : Int} {path : NestPath} :
    a ∈ g.membersOf Mode.default_ → a.isAlias = true → p.group? a.name = some sub →
    0 ≤ k → k < a.count → Reaches p sub path h → Reaches p g ((a, k) :: path) h

/-- The groups nested in a group end after fewer than a number of levels. -/
def NestedWithin (p : Peripheral) : Nat → RegisterGroup → Prop
  | 0, _ => False
  | depth + 1, g => ∀ sub, p.Nests g sub → NestedWithin p depth sub

theorem mem_groups_of_group? {p : Peripheral} {name : String} {g : RegisterGroup}
    (h : p.group? name = some g) : g ∈ p.groups := List.mem_of_find?_eq_some h

theorem Reaches.mem_groups {p : Peripheral} {g h : RegisterGroup} {path : NestPath}
    (hreach : p.Reaches g path h) (hg : g ∈ p.groups) : h ∈ p.groups := by
  induction hreach with
  | here => exact hg
  | inside _ _ hsub _ _ _ ih => exact ih (mem_groups_of_group? hsub)

/-- Groups that are smaller than the groups they are nested in are not nested in themselves. -/
theorem acyclic_of_size_lt {p : Peripheral}
    (h : ∀ g ∈ p.groups, ∀ sub, p.Nests g sub → sub.size < g.size) :
    ∀ g ∈ p.groups, ¬ Relation.TransGen p.Nests g g := by
  intro g hg hcycle
  have hgroup : ∀ {g sub}, p.Nests g sub → sub ∈ p.groups := by
    rintro g sub ⟨a, -, -, ha⟩
    exact mem_groups_of_group? ha
  -- sizes get smaller along a chain of nested groups
  have key : ∀ sub, Relation.TransGen p.Nests g sub → sub ∈ p.groups ∧ sub.size < g.size := by
    intro sub hnests
    induction hnests with
    | single hnests => exact ⟨hgroup hnests, h g hg _ hnests⟩
    | tail _ hnests ih => exact ⟨hgroup hnests, Int.lt_trans (h _ ih.1 _ hnests) ih.2⟩
  exact absurd (key g hcycle).2 (Int.lt_irrefl _)

/-- Groups around a group, none of them twice, leave room for the groups that are nested in it. -/
theorem nestedWithin_of_trail {p : Peripheral}
    (hacyclic : ∀ g ∈ p.groups, ¬ Relation.TransGen p.Nests g g) :
    ∀ (depth : Nat) (trail : List RegisterGroup) (g : RegisterGroup), trail.Nodup →
      trail ⊆ p.groups → (∀ t ∈ trail, Relation.TransGen p.Nests t g) → g ∈ p.groups →
      p.groups.length ≤ depth + trail.length → p.NestedWithin depth g := by
  intro depth
  induction depth with
  | zero =>
    intro trail g hnodup hsub htrail hg hlen
    -- `g` and the groups around it would be more than there are
    have hnotMem : g ∉ trail := fun h => hacyclic g hg (htrail g h)
    have hle : (g :: trail).length ≤ p.groups.length :=
      (List.nodup_cons.mpr ⟨hnotMem, hnodup⟩).length_le_of_subset
        (List.cons_subset.mpr ⟨hg, hsub⟩)
    rw [List.length_cons] at hle
    omega
  | succ depth ih =>
    intro trail g hnodup hsub htrail hg hlen sub hnests
    have hnotMem : g ∉ trail := fun h => hacyclic g hg (htrail g h)
    obtain ⟨a, -, -, ha⟩ := id hnests
    refine ih (g :: trail) sub (List.nodup_cons.mpr ⟨hnotMem, hnodup⟩)
      (List.cons_subset.mpr ⟨hg, hsub⟩) ?_ (mem_groups_of_group? ha) ?_
    · intro t ht
      rcases List.mem_cons.mp ht with rfl | ht
      · exact Relation.TransGen.single hnests
      · exact (htrail t ht).tail hnests
    · rw [List.length_cons]
      omega

/-- **Groups without a cycle are nested no deeper than there are groups.** -/
theorem nestedWithin {p : Peripheral}
    (hacyclic : ∀ g ∈ p.groups, ¬ Relation.TransGen p.Nests g g) {g : RegisterGroup}
    (hg : g ∈ p.groups) : p.NestedWithin p.groups.length g :=
  nestedWithin_of_trail hacyclic p.groups.length [] g List.nodup_nil (List.nil_subset _)
    (fun _ ht => absurd ht List.not_mem_nil) hg (Nat.le_refl _)

end Peripheral

/-! ### Documents that describe a nest -/

/-- A group of a single mode whose registers lie one behind the other and do not overlap. -/
structure RegisterGroup.WellLaid (g : RegisterGroup) : Prop where
  /-- The group has no modes besides the default one. -/
  modes : g.modes = [Mode.default_]
  /-- The group is not empty. -/
  size : 1 ≤ g.size
  /-- The members are listed in the order of their offsets. -/
  ordered : (g.membersOf Mode.default_).Pairwise fun r s => r.offset ≤ s.offset
  /-- No two members share a byte. -/
  disjoint : (g.membersOf Mode.default_).Pairwise fun r s =>
    Disjoint (Set.Ico r.offset r.stop) (Set.Ico s.offset s.stop)
  /-- The members lie inside of the group. -/
  inside : ∀ r ∈ g.membersOf Mode.default_, 0 ≤ r.offset ∧ r.stop ≤ g.size
  /-- Every member has an element. -/
  count : ∀ r ∈ g.membersOf Mode.default_, 1 ≤ r.count
  /-- Registers have the size of an integer type. -/
  plain : ∀ r ∈ g.membersOf Mode.default_, r.isAlias = false → r.size ∈ ([1, 2, 4] : List Int)

/-- A peripheral whose groups are well laid and nested in each other without a cycle. -/
structure Peripheral.WellLaid (p : Peripheral) : Prop where
  /-- No two groups have the same name. -/
  names : (p.groups.map RegisterGroup.name).Nodup
  /-- Every group is well laid. -/
  groups : ∀ g ∈ p.groups, g.WellLaid
  /-- An alias names a group and states its size. -/
  aliases : ∀ g ∈ p.groups, ∀ a ∈ g.membersOf Mode.default_, a.isAlias = true →
    ∃ sub, p.group? a.name = some sub ∧ a.size = sub.size
  /-- No group is nested in itself. -/
  acyclic : ∀ g ∈ p.groups, ¬ Relation.TransGen p.Nests g g

namespace RegisterGroup.WellLaid

variable {g : RegisterGroup}

/-- In a group of a single mode the struct holds the registers of that mode. -/
theorem structMembers_eq (h : g.WellLaid) :
    g.structMembers Mode.default_ = g.membersOf Mode.default_ := by
  rw [structMembers, h.modes]
  rfl

end RegisterGroup.WellLaid

namespace Peripheral.WellLaid

variable {p : Peripheral} {g : RegisterGroup}

theorem size_pos (h : p.WellLaid) (hg : g ∈ p.groups) {r : Register}
    (hr : r ∈ g.membersOf Mode.default_) : 1 ≤ r.size := by
  cases halias : r.isAlias with
  | false =>
    have hsize := (h.groups g hg).plain r hr halias
    simp only [List.mem_cons, List.not_mem_nil, or_false] at hsize
    omega
  | true =>
    obtain ⟨sub, hsub, hsize⟩ := h.aliases g hg r hr halias
    rw [hsize]
    exact (h.groups sub (mem_groups_of_group? hsub)).size

/-- The members of a group lie one behind the other. -/
theorem ascending (h : p.WellLaid) (hg : g ∈ p.groups) :
    Register.Ascending 0 (g.membersOf Mode.default_) := by
  have hlaid := h.groups g hg
  refine Register.ascending_of_pairwise (fun r hr => (hlaid.inside r hr).1) ?_
  refine (hlaid.ordered.and hlaid.disjoint).imp_of_mem ?_
  rintro r s hr hs ⟨hle, hdisjoint⟩
  have hlt := Register.offset_lt_stop (hlaid.count r hr) (h.size_pos hg hr)
  have hlt' := Register.offset_lt_stop (hlaid.count s hs) (h.size_pos hg hs)
  -- none of the two is empty, so that being disjoint means that one ends first
  rw [Set.Ico_disjoint_Ico] at hdisjoint
  omega

theorem typeBytes_eq (h : p.WellLaid) (hg : g ∈ p.groups) {r : Register}
    (hr : r ∈ g.membersOf Mode.default_) (halias : r.isAlias = false) : r.typeBytes = r.size := by
  have hsize := (h.groups g hg).plain r hr halias
  simp only [List.mem_cons, List.not_mem_nil, or_false] at hsize
  unfold Register.typeBytes
  split
  · omega
  · split <;> omega

end Peripheral.WellLaid

/-! ### Sizes of structs -/

/-- A member takes the bytes that its register describes. -/
def GroupEntry.Described (p : Peripheral) : GroupEntry → Prop
  | .reserved _ _ => True
  | .register r =>
    if r.isAlias then
      ∃ sub, p.group? r.name = some sub ∧ r.size = sub.size ∧
        ∀ m, StructBytes p sub m ↔ m = sub.size
    else r.typeBytes = r.size

theorem described_register (p : Peripheral) (r : Register) :
    (GroupEntry.register r).Described p ↔
      if r.isAlias then
        ∃ sub, p.group? r.name = some sub ∧ r.size = sub.size ∧
          ∀ m, StructBytes p sub m ↔ m = sub.size
      else r.typeBytes = r.size := Iff.rfl

/-- Members that are as described take the bytes that are described, and no other number. -/
theorem memberBytes_iff {p : Peripheral} {entries : List GroupEntry} {n : Int}
    (h : ∀ e ∈ entries, e.Described p) : MemberBytes p entries n ↔ n = span entries := by
  induction entries generalizing n with
  | nil =>
    rw [span_nil]
    constructor
    · intro hn
      cases hn
      rfl
    · rintro rfl
      exact .none
  | cons e entries ih =>
    -- one case for each constructor of `MemberBytes`, in both directions
    have he := h e List.mem_cons_self
    have hrest : ∀ {k : Int}, MemberBytes p entries k ↔ k = span entries :=
      ih fun e he => h e (List.mem_cons_of_mem _ he)
    rw [span_cons]
    cases e with
    | reserved number bytes =>
      rw [bytes_reserved]
      constructor
      · intro hn
        cases hn with
        | reserved hk => rw [hrest.mp hk]
      · rintro rfl
        exact .reserved (hrest.mpr rfl)
    | register r =>
      rw [bytes_register]
      rw [described_register] at he
      split at he
      · next halias =>
        obtain ⟨sub, hsub, hsize, hbytes⟩ := he
        constructor
        · intro hn
          cases hn with
          | plain hplain => rw [halias] at hplain; cases hplain
          | nested _ hsub' hm hk =>
            rw [hsub, Option.some.injEq] at hsub'
            subst hsub'
            rw [(hbytes _).mp hm, hrest.mp hk, hsize]
        · rintro rfl
          rw [hsize]
          exact .nested halias hsub ((hbytes _).mpr rfl) (hrest.mpr rfl)
      · next hplain =>
        rw [Bool.not_eq_true] at hplain
        constructor
        · intro hn
          cases hn with
          | plain _ hk => rw [he, hrest.mp hk]
          | nested halias => rw [hplain] at halias; cases halias
        · rintro rfl
          rw [← he]
          exact .plain hplain (hrest.mpr rfl)

section Sizes

variable {p : Peripheral} {g : RegisterGroup}

/-- The members of a struct are as described, if the structs of its nested groups have the sizes of
these groups. -/
theorem described_of_mem (h : p.WellLaid) (hg : g ∈ p.groups)
    (hnested : ∀ sub, p.Nests g sub → ∀ m, StructBytes p sub m ↔ m = sub.size) :
    ∀ e ∈ layoutMembers (g.structMembers Mode.default_) g.size, e.Described p := by
  rintro (⟨number, bytes⟩ | r) he
  · trivial
  · rw [mem_layoutMembers, (h.groups g hg).structMembers_eq] at he
    rw [described_register]
    split
    · next halias =>
      obtain ⟨sub, hsub, hsize⟩ := h.aliases g hg r he halias
      exact ⟨sub, hsub, hsize, hnested sub ⟨r, he, halias, hsub⟩⟩
    · next hplain =>
      rw [Bool.not_eq_true] at hplain
      exact h.typeBytes_eq hg he hplain

/-- **The struct of a group has the size of the group.** -/
theorem structBytes_iff (h : p.WellLaid) (hg : g ∈ p.groups) {n : Int} :
    StructBytes p g n ↔ n = g.size := by
  -- induction on the levels of nested groups, which are finitely many
  have key : ∀ (depth : Nat) (g : RegisterGroup), g ∈ p.groups → p.NestedWithin depth g →
      ∀ n, StructBytes p g n ↔ n = g.size := by
    intro depth
    induction depth with
    | zero => intro g _ hwithin; exact absurd hwithin id
    | succ depth ih =>
      intro g hg hwithin n
      -- the nested groups are one level further in
      have hdescribed := described_of_mem h hg fun sub hsub => by
        obtain ⟨a, -, -, ha⟩ := id hsub
        exact ih sub (Peripheral.mem_groups_of_group? ha) (hwithin sub hsub)
      have hlaid := h.groups g hg
      have hspan : span (layoutMembers (g.structMembers Mode.default_) g.size) = g.size := by
        have hsize := hlaid.size
        rw [hlaid.structMembers_eq]
        exact span_layoutMembers (h.ascending hg) (by omega) fun r hr => (hlaid.inside r hr).2
      constructor
      · intro hn
        cases hn with
        | members hmembers => rw [(memberBytes_iff hdescribed).mp hmembers, hspan]
      · rintro rfl
        refine .members ((memberBytes_iff hdescribed).mpr hspan.symm)
  exact key p.groups.length g hg (Peripheral.nestedWithin h.acyclic hg) n

/-- The bytes of the members in front of a register are its offset. -/
theorem memberBytes_before_iff (h : p.WellLaid) (hg : g ∈ p.groups) {r : Register}
    {before after : List GroupEntry} {n : Int}
    (hsplit : layoutMembers (g.structMembers Mode.default_) g.size
      = before ++ .register r :: after) : MemberBytes p before n ↔ n = r.offset := by
  have hdescribed : ∀ e ∈ before, e.Described p := by
    intro e he
    refine described_of_mem h hg (fun sub hsub m => ?_) e ?_
    · obtain ⟨a, -, -, ha⟩ := id hsub
      exact structBytes_iff h (Peripheral.mem_groups_of_group? ha)
    · rw [hsplit]
      exact List.mem_append_left _ he
  rw [(h.groups g hg).structMembers_eq] at hsplit
  rw [memberBytes_iff hdescribed, span_before (h.ascending hg) hsplit]

theorem exists_split (h : p.WellLaid) (hg : g ∈ p.groups) {r : Register}
    (hr : r ∈ g.membersOf Mode.default_) : ∃ before after,
      layoutMembers (g.structMembers Mode.default_) g.size = before ++ .register r :: after := by
  refine List.append_of_mem (mem_layoutMembers.mpr ?_)
  rw [(h.groups g hg).structMembers_eq]
  exact hr

/-- What is written into the struct of a group is one of its members. -/
theorem mem_of_split (h : p.WellLaid) (hg : g ∈ p.groups) {r : Register}
    {before after : List GroupEntry}
    (hsplit : layoutMembers (g.structMembers Mode.default_) g.size
      = before ++ .register r :: after) : r ∈ g.membersOf Mode.default_ := by
  rw [← (h.groups g hg).structMembers_eq, ← @mem_layoutMembers r _ g.size, hsplit]
  exact List.mem_append_right _ List.mem_cons_self

end Sizes

/-! ### Positions of elements -/

/-- The distance of a nested group's element from the start of the outermost group, as the offsets
and sizes of the aliases describe it. -/
def distance : NestPath → Int
  | [] => 0
  | (a, k) :: path => a.offset + k * a.size + distance path

/-- **An element lies at the sum of the offsets on the way to it**, and nowhere else. -/
theorem elementAt_iff {p : Peripheral} (h : p.WellLaid) {g : RegisterGroup} (hg : g ∈ p.groups)
    {path : NestPath} {r : Register} {i pos : Int} :
    ElementAt p g path r i pos ↔
      (∃ inner, p.Reaches g path inner ∧ r ∈ inner.membersOf Mode.default_) ∧ r.isAlias = false ∧
        0 ≤ i ∧ i < r.count ∧ pos = distance path + r.offset + i * r.size := by
  induction path generalizing g pos with
  | nil =>
    constructor
    · intro hat
      cases hat with
      | here hsplit hbefore hplain hi hlt =>
        have hr := mem_of_split h hg hsplit
        refine ⟨⟨g, .here g, hr⟩, hplain, hi, hlt, ?_⟩
        rw [(memberBytes_before_iff h hg hsplit).mp hbefore, h.typeBytes_eq hg hr hplain, distance]
        omega
    · rintro ⟨⟨inner, hreach, hr⟩, hplain, hi, hlt, rfl⟩
      cases hreach
      obtain ⟨before, after, hsplit⟩ := exists_split h hg hr
      have hat := ElementAt.here hsplit ((memberBytes_before_iff h hg hsplit).mpr rfl) hplain hi hlt
      rw [h.typeBytes_eq hg hr hplain] at hat
      rw [distance, Int.zero_add]
      exact hat
  | cons step path ih =>
    obtain ⟨a, k⟩ := step
    constructor
    · intro hat
      cases hat with
      | inside hsplit hbefore halias hsub hbytes hk hlt hinner =>
        have hmem := Peripheral.mem_groups_of_group? hsub
        have ha := mem_of_split h hg hsplit
        obtain ⟨⟨inner, hreach, hr⟩, hplain, hi, hilt, rfl⟩ := (ih hmem).mp hinner
        obtain ⟨sub, hsub', hsize⟩ := h.aliases g hg a ha halias
        rw [hsub, Option.some.injEq] at hsub'
        subst hsub'
        refine ⟨⟨inner, .inside ha halias hsub hk hlt hreach, hr⟩, hplain, hi, hilt, ?_⟩
        rw [(memberBytes_before_iff h hg hsplit).mp hbefore, (structBytes_iff h hmem).mp hbytes,
          distance, hsize]
        omega
    · rintro ⟨⟨inner, hreach, hr⟩, hplain, hi, hilt, rfl⟩
      cases hreach with
      | inside ha halias hsub hk hlt hreach =>
        have hmem := Peripheral.mem_groups_of_group? hsub
        obtain ⟨before, after, hsplit⟩ := exists_split h hg ha
        obtain ⟨sub, hsub', hsize⟩ := h.aliases g hg a ha halias
        rw [hsub, Option.some.injEq] at hsub'
        subst hsub'
        have hat := ElementAt.inside hsplit ((memberBytes_before_iff h hg hsplit).mpr rfl) halias
          hsub ((structBytes_iff h hmem).mpr rfl) hk hlt
          ((ih hmem).mpr ⟨⟨inner, hreach, hr⟩, hplain, hi, hilt, rfl⟩)
        rw [distance, hsize, Int.add_assoc, Int.add_assoc, ← Int.add_assoc (distance path)]
        exact hat

end ChipSupport
