import ChipSupport.Header.Addresses
import ChipSupport.Proofs.Steps
import ChipSupport.Proofs.Struct.Nest

/-!
# Addresses of registers and positions in structs

Addresses are found by a walk through nested groups that adds up offsets, and structs are written
member by member.  On a peripheral whose groups are well laid both give every register the same
place.

## Main definitions

* `RegisterAddress.label` — the name of an element, by the way to it.
* `RegisterAddress.Yields` — the addresses of the registers that are reached from a group.

## Main results

* `RegisterAddress.exists_ofGroup` — the addresses that the walk finds, as those of the registers
  reached.
* `RegisterAddress.ofInstance_agrees_with_struct` — every address is the position of its register
  in the nest of structs, and every register reached has an address.
-/

namespace ChipSupport.RegisterAddress

/-! ### Names of elements -/

/-- The element numbers of the arrays on the way to a group, after the numbers of those around. -/
def numbersAlong (numbers : String) : NestPath → String
  | [] => numbers
  | (a, k) :: path =>
    numbersAlong (if 1 < a.count then numbers ++ Numeral.decimal k else numbers) path

/-- The number of elements of the array of groups directly around the group that is reached. -/
def innermost (elements : Int) : NestPath → Int
  | [] => elements
  | (a, _) :: path => innermost a.count path

/-- The name of an element: the instance and the register, the element numbers of the groups around
it, and its own number unless an array of groups is directly around it. -/
def label (inst : Instance) (convention : Convention) (path : NestPath) (r : Register) (i : Int) :
    String :=
  "REG_" ++ inst.name ++ "_" ++ convention.registerMacroName r ++ numbersAlong "" path
    ++ if 1 < r.count ∧ innermost 1 path = 1 then Numeral.decimal i else ""

/-! ### Addresses at a place of the walk -/

theorem mem_upTo {n k : Int} : k ∈ upTo n ↔ 0 ≤ k ∧ k < n := by
  unfold upTo
  rw [List.mem_map]
  constructor
  · rintro ⟨m, hm, rfl⟩
    rw [List.mem_range] at hm
    omega
  · rintro ⟨hk, hlt⟩
    exact ⟨k.toNat, List.mem_range.mpr (by omega), by omega⟩

/-- The elements that get a name are elements of the register. -/
theorem bounds_of_mem_namedElements {r : Register} {at_ : Place} {i : Int}
    (hi : i ∈ namedElements r at_) : 0 ≤ i ∧ i < r.count := by
  unfold namedElements at hi
  split at hi
  · rw [List.mem_singleton] at hi
    omega
  · exact mem_upTo.mp hi

theorem zero_mem_namedElements {r : Register} (at_ : Place) (hcount : 1 ≤ r.count) :
    0 ∈ namedElements r at_ := by
  unfold namedElements
  split
  · exact List.mem_singleton_self 0
  · exact mem_upTo.mpr (by omega)

/-- An element of a register in a group, given the element numbers of the groups around it, the
length of the array directly around it and the distance of the group from the base address. -/
def ofElement (inst : Instance) (convention : Convention) (numbers : String)
    (elements start : Int) (r : Register) (i : Int) : RegisterAddress where
  name := "REG_" ++ inst.name ++ "_" ++ convention.registerMacroName r ++ numbers
    ++ if 1 < r.count ∧ elements = 1 then Numeral.decimal i else ""
  address := inst.baseAddress + start + r.offset + i * r.size
  register := r

/-- An address belongs to a register that is reached from a group. -/
def Yields (p : Peripheral) (inst : Instance) (convention : Convention) (numbers : String)
    (elements start : Int) (g : RegisterGroup) (found : RegisterAddress) : Prop :=
  ∃ path inner r i, p.Reaches g path inner ∧ r ∈ inner.membersOf Mode.default_ ∧
    r.isAlias = false ∧ i ∈ namedElements r { elements := innermost elements path } ∧
    found = ofElement inst convention (numbersAlong numbers path) (innermost elements path)
      (start + distance path) r i

section Walk

variable {p : Peripheral} {inst : Instance} {convention : Convention}

/-- The registers reached from a group are its own and those reached from its nested groups. -/
theorem yields_iff {numbers : String} {elements start : Int} {g : RegisterGroup}
    {found : RegisterAddress} :
    Yields p inst convention numbers elements start g found ↔
      ∃ r ∈ g.membersOf Mode.default_,
        (r.isAlias = false ∧ ∃ i ∈ namedElements r { elements },
          found = ofElement inst convention numbers elements start r i) ∨
        (r.isAlias = true ∧ ∃ sub, p.group? r.name = some sub ∧ ∃ k ∈ upTo r.count,
          Yields p inst convention (if 1 < r.count then numbers ++ Numeral.decimal k else numbers)
            r.count (start + r.offset + k * r.size) sub found) := by
  constructor
  · rintro ⟨path, inner, r, i, hreach, hr, hplain, hi, rfl⟩
    cases hreach with
    | here =>
      refine ⟨r, hr, Or.inl ⟨hplain, i, hi, ?_⟩⟩
      rw [distance, Int.add_zero]
      rfl
    | @inside _ sub _ a k path ha halias hsub hk hlt hreach =>
      refine ⟨a, ha, Or.inr ⟨halias, sub, hsub, k, mem_upTo.mpr ⟨hk, hlt⟩,
        path, inner, r, i, hreach, hr, hplain, hi, ?_⟩⟩
      rw [distance, numbersAlong, innermost, ← Int.add_assoc, ← Int.add_assoc]
  · rintro ⟨a, ha, ⟨hplain, i, hi, rfl⟩ | ⟨halias, sub, hsub, k, hk, hyields⟩⟩
    · refine ⟨[], g, a, i, .here g, ha, hplain, hi, ?_⟩
      rw [distance, Int.add_zero]
      rfl
    · obtain ⟨path, inner, r, i, hreach, hr, hplain, hi, rfl⟩ := hyields
      rw [mem_upTo] at hk
      refine ⟨(a, k) :: path, inner, r, i, .inside ha halias hsub hk.1 hk.2 hreach, hr, hplain,
        hi, ?_⟩
      rw [distance, numbersAlong, innermost, ← Int.add_assoc, ← Int.add_assoc]

theorem mem_ofRegister {r : Register} {g : RegisterGroup} {at_ : Place} {k : Int}
    {found : RegisterAddress} :
    found ∈ ofRegister r g Mode.default_ inst convention at_ k ↔
      ∃ i ∈ namedElements r { elements := at_.elements },
        found = ofElement inst convention (at_.numbersAt k) at_.elements
          (at_.offset + k * g.size) r i := by
  unfold ofRegister
  rw [List.mem_map]
  refine exists_congr fun i => and_congr_right fun _ => ?_
  rw [eq_comm]
  have hname : elementName r Mode.default_ inst convention at_ k i
      = (ofElement inst convention (at_.numbersAt k) at_.elements
          (at_.offset + k * g.size) r i).name := by
    simp only [elementName, ofElement, show Mode.isDefault Mode.default_ = true from rfl,
      if_true, String.append_empty]
  have haddress : inst.baseAddress + at_.offset + r.offset + i * r.size + k * g.size
      = inst.baseAddress + (at_.offset + k * g.size) + r.offset + i * r.size := by omega
  rw [hname, haddress]
  rfl

theorem numbersAt_nested (at_ : Place) (a : Register) (g : RegisterGroup) (k m : Int) :
    (at_.nested a g k).numbersAt m
      = if 1 < a.count then at_.numbersAt k ++ Numeral.decimal m else at_.numbersAt k := rfl

/-- What a member of a group contributes to the walk at an element of the group. -/
def ofMember (p : Peripheral) (inst : Instance) (convention : Convention) (depth : Nat)
    (g : RegisterGroup) (at_ : Place) (k : Int) (r : Register) :
    Except Fault (List RegisterAddress) :=
  if r.isAlias then
    match p.group? r.name with
    | some sub => ofGroup p inst convention depth sub (at_.nested r g k)
    | none => .ok []
  else .ok (ofRegister r g Mode.default_ inst convention at_ k)

/-- The walk through a group of a single mode: its elements, and their members. -/
theorem ofGroup_succ {depth : Nat} {g : RegisterGroup} {at_ : Place}
    (hmodes : g.modes = [Mode.default_]) (helements : 1 ≤ at_.elements) :
    ofGroup p inst convention (depth + 1) g at_ = (do
      let perElement ← (upTo at_.elements).mapM fun k => do
        let perMember ← (g.membersOf Mode.default_).mapM (ofMember p inst convention depth g at_ k)
        return perMember.flatten
      return perElement.flatten) := by
  -- the run over the modes is a single step
  have hsingle : ∀ step : String → Except Fault (List RegisterAddress),
      (do let found ← [Mode.default_].mapM step; return found.flatten) = step Mode.default_ := by
    intro step
    rw [List.mapM_cons, List.mapM_nil]
    cases step Mode.default_ with
    | error e => rfl
    | ok found => simp [bind, Except.bind, pure, Except.pure]
  rw [ofGroup, if_neg (by omega), hmodes]
  exact hsingle _

/-- **The walk finds the addresses of the registers that are reached**, for each element of the
group at its place. -/
theorem exists_ofGroup (h : p.WellLaid) (inst : Instance) (convention : Convention)
    (depth : Nat) : ∀ (g : RegisterGroup) (at_ : Place), g ∈ p.groups → p.NestedWithin depth g →
      1 ≤ at_.elements → ∃ found, ofGroup p inst convention depth g at_ = .ok found ∧
        ∀ a, a ∈ found ↔ ∃ k ∈ upTo at_.elements, Yields p inst convention (at_.numbersAt k)
          at_.elements (at_.offset + k * g.size) g a := by
  -- induction on the levels of nested groups
  induction depth with
  | zero => intro g at_ _ hwithin _; exact absurd hwithin id
  | succ depth ih =>
    intro g at_ hg hwithin helements
    -- what one member contributes at the element `k`
    have hmember : ∀ k, ∀ r ∈ g.membersOf Mode.default_, ∃ found,
        ofMember p inst convention depth g at_ k r = .ok found ∧ ∀ a, a ∈ found ↔
          (r.isAlias = false ∧ ∃ i ∈ namedElements r { elements := at_.elements },
            a = ofElement inst convention (at_.numbersAt k) at_.elements
              (at_.offset + k * g.size) r i) ∨
          (r.isAlias = true ∧ ∃ sub, p.group? r.name = some sub ∧ ∃ m ∈ upTo r.count,
            Yields p inst convention
              (if 1 < r.count then at_.numbersAt k ++ Numeral.decimal m else at_.numbersAt k)
              r.count (at_.offset + k * g.size + r.offset + m * r.size) sub a) := by
      intro k r hr
      unfold ofMember
      cases halias : r.isAlias with
      | false =>
        refine ⟨_, rfl, fun a => ?_⟩
        rw [mem_ofRegister]
        simp
      | true =>
        obtain ⟨sub, hsub, hsize⟩ := h.aliases g hg r hr halias
        -- the walk through the nested group, from its place on
        obtain ⟨found, hrun, hmem⟩ := ih sub (at_.nested r g k)
          (Peripheral.mem_groups_of_group? hsub) (hwithin sub ⟨r, hr, halias, hsub⟩)
          ((h.groups g hg).count r hr)
        refine ⟨found, ?_, fun a => ?_⟩
        · rw [if_pos rfl, hsub]
          exact hrun
        · rw [hmem]
          have hoffset : (at_.nested r g k).offset = at_.offset + k * g.size + r.offset := by
            show at_.offset + r.offset + k * g.size = _
            omega
          simp only [numbersAt_nested, hoffset, ← hsize, hsub, Option.some.injEq, exists_eq_left',
            Bool.true_eq_false, false_and, false_or, true_and]
          rfl
    -- the members at one element, and all elements
    have helement := fun k (_ : k ∈ upTo at_.elements) => Steps.exists_mapM_flatten (hmember k)
    obtain ⟨found, hrun, hmem⟩ := Steps.exists_mapM_flatten helement
    refine ⟨found, ?_, fun a => ?_⟩
    · rw [ofGroup_succ (h.groups g hg).modes helements]
      exact hrun
    · rw [hmem]
      exact exists_congr fun k => and_congr_right fun _ => yields_iff.symm

end Walk

/-! ### Addresses of an instance -/

/-- The address of an element that is reached is the base address plus its position. -/
theorem elementAt_iff_eq_address {p : Peripheral} (h : p.WellLaid) {base inner : RegisterGroup}
    (hbase : base ∈ p.groups) {path : NestPath} (hreach : p.Reaches base path inner) {r : Register}
    (hr : r ∈ inner.membersOf Mode.default_) (hplain : r.isAlias = false) {i : Int} {at_ : Place}
    (hi : i ∈ namedElements r at_) (inst : Instance) (convention : Convention) (numbers : String)
    (elements pos : Int) :
    ElementAt p base path r i pos ↔
      pos = (ofElement inst convention numbers elements (0 + distance path) r i).address
        - inst.baseAddress := by
  obtain ⟨hle, hlt⟩ := bounds_of_mem_namedElements hi
  rw [elementAt_iff h hbase]
  have haddress : (ofElement inst convention numbers elements (0 + distance path) r i).address
      = inst.baseAddress + (0 + distance path) + r.offset + i * r.size := rfl
  constructor
  · rintro ⟨-, -, -, -, rfl⟩
    omega
  · intro hpos
    exact ⟨⟨inner, hreach, hr⟩, hplain, hle, hlt, by omega⟩

/-- **Addresses agree with the struct layout.**  On a peripheral whose groups are well laid the walk
succeeds, and every address that it finds is the base address plus the position of the register's
element in the nest of structs, the element being the one that the name tells.  For every choice of
an element in each array of groups, every register of the group that is reached has at least the
address of its first element. -/
theorem ofInstance_agrees_with_struct {p : Peripheral} (h : p.WellLaid) {base : RegisterGroup}
    (hbase : p.baseGroup? = some base) (inst : Instance) (style : Style) :
    ∃ found, ofInstance p base inst style.convention = .ok found ∧
      (∀ a ∈ found, ∃ path i, a.name = label inst style.convention path a.register i ∧
        ∀ pos, ElementAt p base path a.register i pos ↔ pos = a.address - inst.baseAddress) ∧
      (∀ path inner, p.Reaches base path inner →
        ∀ r ∈ inner.membersOf Mode.default_, r.isAlias = false →
          ∃ a ∈ found, a.register = r ∧ a.name = label inst style.convention path r 0 ∧
            ∀ pos, ElementAt p base path r 0 pos ↔ pos = a.address - inst.baseAddress) := by
  have hmemBase : base ∈ p.groups := Peripheral.mem_groups_of_group? hbase
  obtain ⟨found, hrun, hmem⟩ := exists_ofGroup h inst style.convention
    p.groups.length base {} hmemBase (Peripheral.nestedWithin h.acyclic hmemBase) (Int.le_refl 1)
  -- the base group is no array, so that the walk begins at its only element
  have hyields : ∀ a, a ∈ found ↔ Yields p inst style.convention "" 1 0 base a := by
    intro a
    rw [hmem, show upTo ({} : Place).elements = [0] from rfl]
    simp only [List.mem_singleton, exists_eq_left, Int.zero_mul]
    rfl
  refine ⟨found, hrun, ?_, ?_⟩
  · intro a ha
    obtain ⟨path, inner, r, i, hreach, hr, hplain, hi, rfl⟩ := (hyields a).mp ha
    exact ⟨path, i, rfl, elementAt_iff_eq_address h hmemBase hreach hr hplain hi inst _ _ _⟩
  · intro path inner hreach r hr hplain
    have hcount := (h.groups inner (hreach.mem_groups hmemBase)).count r hr
    have hi := zero_mem_namedElements { elements := innermost 1 path } hcount
    exact ⟨_, (hyields _).mpr ⟨path, inner, r, 0, hreach, hr, hplain, hi, rfl⟩, rfl, rfl,
      elementAt_iff_eq_address h hmemBase hreach hr hplain hi inst _ _ _⟩

/-- The group of a timer's counters: an array of two registers. -/
def timerCounters : RegisterGroup :=
  { name := "TC_SUB", owner := "TC", size := 4,
    members := [(Mode.default_, [{ name := "X", owner := "TC", size := 2, count := 2 }])] }

/-- The counters inside of a channel. -/
def timerCountersAlias : Register :=
  { name := "TC_SUB", owner := "TC", offset := 8, size := 4, isAlias := true }

/-- A channel of the timer: a register, and further on the counters. -/
def timerChannel : RegisterGroup :=
  { name := "TC_CHANNEL", owner := "TC", size := 0x10,
    members := [(Mode.default_, [{ name := "CTRL", owner := "TC" }, timerCountersAlias])] }

/-- The channels inside of the base group. -/
def timerChannelAlias : Register :=
  { name := "TC_CHANNEL", owner := "TC", offset := 0x10, size := 0x10, count := 2, isAlias := true }

/-- The base group of the timer: an array of two channels. -/
def timerBase : RegisterGroup :=
  { name := "TC", owner := "TC", size := 0x30, members := [(Mode.default_, [timerChannelAlias])] }

/-- A timer with nested groups. -/
def timer : Peripheral := { name := "TC", groups := [timerBase, timerChannel, timerCounters] }

theorem mem_groups_timer {g : RegisterGroup} (hg : g ∈ timer.groups) :
    g = timerBase ∨ g = timerChannel ∨ g = timerCounters := by
  simpa only [timer, List.mem_cons, List.not_mem_nil, or_false] using hg

/-- The aliases of the timer and their groups. -/
theorem nested_timer {g : RegisterGroup} (hg : g ∈ timer.groups) {a : Register}
    (ha : a ∈ g.membersOf Mode.default_) (halias : a.isAlias = true) :
    ∃ sub, timer.group? a.name = some sub ∧ a.size = sub.size ∧ sub.size < g.size := by
  rcases mem_groups_timer hg with rfl | rfl | rfl
  · have : a = timerChannelAlias := List.mem_singleton.mp ha
    subst this
    exact ⟨timerChannel, rfl, rfl, by decide⟩
  · rcases List.mem_cons.mp ha with rfl | ha
    · cases halias
    · have : a = timerCountersAlias := List.mem_singleton.mp ha
      subst this
      exact ⟨timerCounters, rfl, rfl, by decide⟩
  · rw [List.mem_singleton.mp ha] at halias
    cases halias

theorem wellLaid_timer : timer.WellLaid where
  names := by decide
  groups := by
    intro g hg
    rcases mem_groups_timer hg with rfl | rfl | rfl
    all_goals
      constructor
      case disjoint => simp only [Set.Ico_disjoint_Ico]; decide
      all_goals decide
  aliases := by
    intro g hg a ha halias
    obtain ⟨sub, hsub, hsize, -⟩ := nested_timer hg ha halias
    exact ⟨sub, hsub, hsize⟩
  acyclic := by
    refine Peripheral.acyclic_of_size_lt fun g hg sub hnests => ?_
    obtain ⟨a, ha, halias, hsub⟩ := hnests
    obtain ⟨sub', hsub', -, hlt⟩ := nested_timer hg ha halias
    rw [hsub, Option.some.injEq] at hsub'
    rw [hsub']
    exact hlt

/-- The addresses of the timer's registers agree with the layout of its structs. -/
theorem timer_agrees_with_struct :
    timer.WellLaid ∧ timer.baseGroup? = some timerBase ∧
    ∃ found, ofInstance timer timerBase { name := "TC0", baseAddress := 0x40000000 }
        Style.legacy.convention = .ok found ∧
      (∀ a ∈ found, ∃ path i,
        a.name = label { name := "TC0", baseAddress := 0x40000000 } Style.legacy.convention path
          a.register i ∧
        ∀ pos, ElementAt timer timerBase path a.register i pos ↔ pos = a.address - 0x40000000) ∧
      (∀ path inner, timer.Reaches timerBase path inner →
        ∀ r ∈ inner.membersOf Mode.default_, r.isAlias = false →
          ∃ a ∈ found, a.register = r ∧
            a.name = label { name := "TC0", baseAddress := 0x40000000 } Style.legacy.convention
              path r 0 ∧
            ∀ pos, ElementAt timer timerBase path r 0 pos ↔ pos = a.address - 0x40000000) :=
  ⟨wellLaid_timer, rfl, ofInstance_agrees_with_struct wellLaid_timer rfl _ _⟩

/-- The registers of both channels, with all counters, as the channel around them is no array. -/
example : (ofInstance timer timerBase { name := "TC0", baseAddress := 0x40000000 }
      Style.legacy.convention).map (List.map fun a => (a.name, a.address)) =
    .ok [("REG_TC0_CTRL0", 0x40000010), ("REG_TC0_X00", 0x40000018), ("REG_TC0_X01", 0x4000001A),
      ("REG_TC0_CTRL1", 0x40000020), ("REG_TC0_X10", 0x40000028),
      ("REG_TC0_X11", 0x4000002A)] := by cbv

end ChipSupport.RegisterAddress
