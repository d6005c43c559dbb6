import ChipSupport.Proofs.Struct.Visits
import ChipSupport.Proofs.Text.Numbering

/-!
# Names of addresses

The name of an address is that of the register, followed by the numbers of the elements around it
and its own number.  Names of registers that do not end in a digit can be read back, and in a tree
of groups the register tells the arrays around it.  So two addresses have the same name only if
their numbers are written alike.

## Main definitions

* `RegisterAddress.arrayLengths`, `RegisterAddress.elementNumbers` — the arrays whose numbers are
  written, and these numbers.

## Main results

* `RegisterAddress.exists_visited` — every choice of numbers is visited.
* `RegisterAddress.label_eq_iff` — when two visits have the same name.
* `RegisterAddress.names_nodup_iff` — **when no two addresses have the same name.**
-/

namespace ChipSupport.RegisterAddress

/-! ### Numbers on the way to an element -/

/-- The lengths of the arrays on the way to an element whose numbers are written: those with several
elements, and an array of registers only if the group around it is no array. -/
def arrayLengths (elements : Int) : NestPath → Register → List Int
  | [], r => if 1 < r.count ∧ elements = 1 then [r.count] else []
  | (a, _) :: path, r =>
    if 1 < a.count then a.count :: arrayLengths a.count path r else arrayLengths a.count path r

/-- The numbers that are written in the name of an element. -/
def elementNumbers (elements : Int) : NestPath → Register → Int → List Int
  | [], r, i => if 1 < r.count ∧ elements = 1 then [i] else []
  | (a, k) :: path, r, i =>
    if 1 < a.count then k :: elementNumbers a.count path r i else elementNumbers a.count path r i

theorem one_lt_of_mem_arrayLengths {elements : Int} {path : NestPath} {r : Register} :
    ∀ n ∈ arrayLengths elements path r, 1 < n := by
  induction path generalizing elements with
  | nil =>
    intro n hn
    rw [arrayLengths] at hn
    split at hn
    · next h => exact List.mem_singleton.mp hn ▸ h.1
    · cases hn
  | cons step path ih =>
    intro n hn
    rw [arrayLengths] at hn
    split at hn
    · next h =>
      rcases List.mem_cons.mp hn with rfl | hn
      · exact h
      · exact ih n hn
    · exact ih n hn

/-- The lengths are those of the aliases on the way. -/
theorem arrayLengths_congr {elements : Int} {path path' : NestPath} (r : Register)
    (h : path.map Prod.fst = path'.map Prod.fst) :
    arrayLengths elements path r = arrayLengths elements path' r := by
  induction path generalizing elements path' with
  | nil =>
    rw [List.map_nil, eq_comm, List.map_eq_nil_iff] at h
    rw [h]
  | cons step path ih =>
    cases path' with
    | nil => cases h
    | cons step' path' =>
      rw [List.map_cons, List.map_cons, List.cons.injEq] at h
      rw [arrayLengths, arrayLengths, h.1, ih h.2]

section Visits

variable {p : Peripheral}

/-- The numbers in a name are numbers of elements of the arrays. -/
theorem numbers_elementNumbers {elements : Int} {g : RegisterGroup} {path : NestPath} {r : Register}
    {i : Int} (h : Visited p elements g (path, r, i)) :
    Numeral.Numbers (arrayLengths elements path r) (elementNumbers elements path r i) := by
  induction path generalizing elements g with
  | nil =>
    obtain ⟨-, -, hi⟩ := visited_nil_iff.mp h
    rw [arrayLengths, elementNumbers]
    split
    · exact .cons (bounds_of_mem_namedElements hi) .nil
    · exact .nil
  | cons step path ih =>
    obtain ⟨-, -, hk, hlt, sub, -, hinner⟩ := visited_cons_iff.mp h
    rw [arrayLengths, elementNumbers]
    split
    · exact .cons ⟨hk, hlt⟩ (ih hinner)
    · exact ih hinner

/-- A number that is not written is that of the only element that is named. -/
theorem eq_zero_of_not_written {elements : Int} {r : Register} {i : Int}
    (hi : i ∈ namedElements r { elements }) (h : ¬ (1 < r.count ∧ elements = 1)) : i = 0 := by
  unfold namedElements at hi
  split at hi
  · exact List.mem_singleton.mp hi
  · next hall =>
    rw [mem_upTo] at hi
    dsimp only at hall
    omega

/-- Visits of one register by the same aliases are told by the numbers that are written. -/
theorem eq_of_elementNumbers_eq {elements : Int} {g : RegisterGroup} {path path' : NestPath}
    {r : Register} {i i' : Int} (h : Visited p elements g (path, r, i))
    (h' : Visited p elements g (path', r, i')) (hway : path.map Prod.fst = path'.map Prod.fst)
    (heq : elementNumbers elements path r i = elementNumbers elements path' r i') :
    path = path' ∧ i = i' := by
  induction path generalizing elements g path' with
  | nil =>
    rw [List.map_nil, eq_comm, List.map_eq_nil_iff] at hway
    subst hway
    refine ⟨rfl, ?_⟩
    obtain ⟨-, -, hi⟩ := visited_nil_iff.mp h
    obtain ⟨-, -, hi'⟩ := visited_nil_iff.mp h'
    rw [elementNumbers, elementNumbers] at heq
    split at heq
    · exact (List.cons.inj heq).1
    · next hone => rw [eq_zero_of_not_written hi hone, eq_zero_of_not_written hi' hone]
  | cons step path ih =>
    cases path' with
    | nil => cases hway
    | cons step' path' =>
      obtain ⟨a, k⟩ := step
      obtain ⟨a', k'⟩ := step'
      rw [List.map_cons, List.map_cons, List.cons.injEq] at hway
      obtain ⟨rfl, hway⟩ := hway
      obtain ⟨-, -, hk, hlt, sub, hsub, hinner⟩ := visited_cons_iff.mp h
      obtain ⟨-, -, hk', hlt', sub', hsub', hinner'⟩ := visited_cons_iff.mp h'
      obtain rfl : sub = sub' := Option.some.inj (hsub.symm.trans hsub')
      rw [elementNumbers, elementNumbers] at heq
      split at heq
      · rw [List.cons.injEq] at heq
        obtain ⟨rfl, rfl⟩ := ih hinner hinner' hway heq.2
        exact ⟨by rw [heq.1], rfl⟩
      · obtain ⟨rfl, rfl⟩ := ih hinner hinner' hway heq
        have hlt' : k' < a.count := hlt'
        exact ⟨by rw [show k = k' by omega], rfl⟩

/-- **Every choice of numbers is visited.** -/
theorem exists_visited {elements : Int} {g : RegisterGroup} {path : NestPath} {r : Register}
    {i : Int} (h : Visited p elements g (path, r, i)) {ks : List Int}
    (hks : Numeral.Numbers (arrayLengths elements path r) ks) :
    ∃ path' i', Visited p elements g (path', r, i') ∧ elementNumbers elements path' r i' = ks := by
  induction path generalizing elements g ks with
  | nil =>
    obtain ⟨hr, hplain, hi⟩ := visited_nil_iff.mp h
    rw [arrayLengths] at hks
    split at hks
    · next hwritten =>
      cases hks with | @cons _ k _ _ hk hnil => ?_
      cases hnil
      refine ⟨[], k, visited_nil_iff.mpr ⟨hr, hplain, ?_⟩, by rw [elementNumbers, if_pos hwritten]⟩
      rw [namedElements, if_neg (fun hfirst => hfirst.2 hwritten.2)]
      exact mem_upTo.mpr hk
    · next hsingle =>
      cases hks
      exact ⟨[], i, h, by rw [elementNumbers, if_neg hsingle]⟩
  | cons step path ih =>
    obtain ⟨a, k⟩ := step
    obtain ⟨ha, halias, hk, hlt, sub, hsub, hinner⟩ := visited_cons_iff.mp h
    rw [arrayLengths] at hks
    split at hks
    · next hseveral =>
      cases hks with | @cons _ l _ ks hl hks => ?_
      obtain ⟨path', i', hvisit, hnumbers⟩ := ih hinner hks
      exact ⟨(a, l) :: path', i',
        visited_cons_iff.mpr ⟨ha, halias, hl.1, hl.2, sub, hsub, hvisit⟩,
        by rw [elementNumbers, if_pos hseveral, hnumbers]⟩
    · next hsingle =>
      obtain ⟨path', i', hvisit, hnumbers⟩ := ih hinner hks
      exact ⟨(a, k) :: path', i',
        visited_cons_iff.mpr ⟨ha, halias, hk, hlt, sub, hsub, hvisit⟩,
        by rw [elementNumbers, if_neg hsingle, hnumbers]⟩

end Visits

/-! ### Characters of a name -/

open Numeral

/-- The numbers on the way to an element and its own number are written one behind the other. -/
theorem toList_numbersAlong {p : Peripheral} {elements : Int} {g : RegisterGroup} {path : NestPath}
    {r : Register} {i : Int} (h : Visited p elements g (path, r, i)) (numbers : String) :
    (numbersAlong numbers path
        ++ if 1 < r.count ∧ innermost elements path = 1 then decimal i else "").toList
      = numbers.toList ++ (joined (elementNumbers elements path r i)).map digitChar := by
  induction path generalizing elements g numbers with
  | nil =>
    obtain ⟨-, -, hi⟩ := visited_nil_iff.mp h
    rw [numbersAlong, innermost, elementNumbers, String.toList_append]
    split
    · rw [toList_decimal (bounds_of_mem_namedElements hi).1, joined_cons, joined_nil,
        List.append_nil]
    · rfl
  | cons step path ih =>
    obtain ⟨-, -, hk, -, sub, -, hinner⟩ := visited_cons_iff.mp h
    rw [numbersAlong, innermost, elementNumbers, ih hinner]
    split
    · rw [String.toList_append, toList_decimal hk, joined_cons, List.map_append, List.append_assoc]
    · rfl

/-- The characters of a name: those of the instance and the register, and digits. -/
theorem toList_label {p : Peripheral} {g : RegisterGroup} {path : NestPath} {r : Register} {i : Int}
    (h : Visited p 1 g (path, r, i)) (inst : Instance) (convention : Convention) :
    (label inst convention path r i).toList
      = ("REG_" ++ inst.name ++ "_").toList ++ ((convention.registerMacroName r).toList
        ++ (joined (elementNumbers 1 path r i)).map digitChar) := by
  have hnumbers := toList_numbersAlong h ""
  rw [label, String.append_assoc, String.toList_append, hnumbers, String.toList_append,
    String.toList_empty, List.nil_append, List.append_assoc]

/-- **Two visits have the same name exactly if the registers do and the numbers are written
alike.** -/
theorem label_eq_iff {p : Peripheral} {g g' : RegisterGroup} {path path' : NestPath}
    {r r' : Register}
    {i i' : Int} {convention : Convention} (h : Visited p 1 g (path, r, i))
    (h' : Visited p 1 g' (path', r', i'))
    (hr : ∀ c ∈ (convention.registerMacroName r).toList.getLast?, c.isDigit = false)
    (hr' : ∀ c ∈ (convention.registerMacroName r').toList.getLast?, c.isDigit = false)
    (inst : Instance) :
    label inst convention path r i = label inst convention path' r' i' ↔
      convention.registerMacroName r = convention.registerMacroName r' ∧
        joined (elementNumbers 1 path r i) = joined (elementNumbers 1 path' r' i') := by
  rw [← String.toList_inj, toList_label h, toList_label h', List.append_cancel_left_eq]
  constructor
  · intro heq
    obtain ⟨hname, hnumbers⟩ := name_append_joined_inj hr hr' heq
    exact ⟨String.toList_inj.mp hname, hnumbers⟩
  · rintro ⟨hname, hnumbers⟩
    rw [hname, hnumbers]

/-! ### Names of an instance -/

section Tree

variable {p : Peripheral} {convention : Convention} (hnames : p.NamesApart convention)
  {base : RegisterGroup} (hbase : base ∈ p.groups)
include hnames hbase

theorem last_of_visited {path : NestPath} {r : Register} {i : Int}
    (h : Visited p 1 base (path, r, i)) :
    ∀ c ∈ (convention.registerMacroName r).toList.getLast?, c.isDigit = false := by
  obtain ⟨inner, hreach, hr, hplain, -⟩ := h
  have hregister : r ∈ p.registers := List.mem_flatMap.mpr ⟨inner, hreach.mem_groups hbase, hr⟩
  have hname : r ∈ p.registers.filter fun r => !r.isAlias :=
    List.mem_filter.mpr ⟨hregister, by rw [show r.isAlias = false from hplain]; rfl⟩
  exact hnames.last _ (List.mem_map_of_mem hname)

/-- In a tree the name tells the visit, if the numbers on the way can be read. -/
theorem eq_of_label_eq (htree : p.IsTree) {path path' : NestPath} {r r' : Register} {i i' : Int}
    (h : Visited p 1 base (path, r, i)) (h' : Visited p 1 base (path', r', i'))
    (hreadable : Readable (arrayLengths 1 path r)) {inst : Instance}
    (heq : label inst convention path r i = label inst convention path' r' i') :
    (path, r, i) = (path', r', i') := by
  obtain ⟨hname, hjoined⟩ := (label_eq_iff h h' (last_of_visited hnames hbase h)
    (last_of_visited hnames hbase h') inst).mp heq
  obtain ⟨inner, hreach, hr, hplain, -⟩ := id h
  obtain ⟨inner', hreach', hr', hplain', -⟩ := id h'
  -- the name tells the register, the register its group, and the group the aliases
  obtain ⟨rfl, rfl⟩ := hnames.register_unique (hreach.mem_groups hbase) (hreach'.mem_groups hbase)
    hr hr' ⟨hplain, hplain', hname⟩
  have hway := htree.way_unique hbase hreach hreach'
  have hnumbers := numbers_elementNumbers h'
  rw [← arrayLengths_congr r hway] at hnumbers
  have hwritten := eq_of_joined_eq hreadable (numbers_elementNumbers h) hnumbers hjoined
  obtain ⟨rfl, rfl⟩ := eq_of_elementNumbers_eq h h' hway hwritten
  rfl

end Tree

/-- **No two addresses have the same name exactly if all element numbers can be read.**  Where the
groups make a tree, and the registers have different names that do not end in a digit, the walk
succeeds, and the names that it finds are different exactly if the lengths of the arrays on the way
are readable for every register that is reached and has an element. -/
theorem names_nodup_iff {p : Peripheral} (htree : p.IsTree) {style : Style}
    (hnames : p.NamesApart style.convention) {base : RegisterGroup}
    (hbase : p.baseGroup? = some base) (inst : Instance) :
    ∃ found, ofInstance p base inst style.convention = .ok found ∧
      ((found.map name).Nodup ↔ ∀ path inner, p.Reaches base path inner →
        ∀ r ∈ inner.membersOf Mode.default_, r.isAlias = false → 1 ≤ r.count →
          Readable (arrayLengths 1 path r)) := by
  have hmem : base ∈ p.groups := Peripheral.mem_groups_of_group? hbase
  obtain ⟨found, vs, hrun, hlabels, hnodup, hvisited⟩ := exists_labels htree hnames hbase inst
  refine ⟨found, hrun, ?_⟩
  rw [hlabels, List.nodup_map_iff_inj_on hnodup]
  constructor
  · intro hinj path inner hreach r hr hplain hcount
    rw [readable_iff one_lt_of_mem_arrayLengths]
    intro ks ls hks hls heq
    have h : Visited p 1 base (path, r, 0) :=
      ⟨inner, hreach, hr, hplain, zero_mem_namedElements _ hcount⟩
    obtain ⟨path₁, i₁, h₁, rfl⟩ := exists_visited h hks
    obtain ⟨path₂, i₂, h₂, rfl⟩ := exists_visited h hls
    have hlabel : label inst style.convention path₁ r i₁ = label inst style.convention path₂ r i₂ :=
      (label_eq_iff h₁ h₂ (last_of_visited hnames hmem h₁) (last_of_visited hnames hmem h₂)
        inst).mpr ⟨rfl, heq⟩
    have hvisits : (path₁, r, i₁) = (path₂, r, i₂) :=
      hinj _ ((hvisited _).mpr h₁) _ ((hvisited _).mpr h₂) hlabel
    rw [Prod.mk.injEq, Prod.mk.injEq] at hvisits
    rw [hvisits.1, hvisits.2.2]
  · rintro hreadable ⟨path, r, i⟩ hv ⟨path', r', i'⟩ hv' hlabel
    rw [hvisited] at hv hv'
    obtain ⟨inner, hreach, hr, hplain, hi⟩ := id hv
    have hcount : 1 ≤ r.count := by
      obtain ⟨hle, hlt⟩ := bounds_of_mem_namedElements hi
      exact Int.add_one_le_of_lt (Int.lt_of_le_of_lt hle hlt)
    exact eq_of_label_eq hnames hmem htree hv hv' (hreadable path inner hreach r hr hplain hcount)
      hlabel

theorem isTree_timer : timer.IsTree where
  modes := by decide
  acyclic := wellLaid_timer.acyclic
  once := by decide

theorem namesApart_timer : timer.NamesApart Style.legacy.convention := by
  have hnames : timer.registerNames Style.legacy.convention = ["CTRL", "X"] := by cbv
  constructor
  all_goals rw [hnames]
  case nodup => decide
  case last => simp

/-- No two addresses of the timer have the same name, and its numbers can be read. -/
theorem names_nodup_timer :
    timer.IsTree ∧ timer.NamesApart Style.legacy.convention ∧
    timer.baseGroup? = some timerBase ∧
    ∃ found, ofInstance timer timerBase { name := "TC0", baseAddress := 0x40000000 }
        Style.legacy.convention = .ok found ∧ (found.map name).Nodup ∧
      ∀ path inner, timer.Reaches timerBase path inner →
        ∀ r ∈ inner.membersOf Mode.default_, r.isAlias = false → 1 ≤ r.count →
          Readable (arrayLengths 1 path r) := by
  obtain ⟨found, hrun, hiff⟩ := names_nodup_iff isTree_timer namesApart_timer rfl
    { name := "TC0", baseAddress := 0x40000000 }
  have hlist : (ofInstance timer timerBase { name := "TC0", baseAddress := 0x40000000 }
      Style.legacy.convention).map (List.map name) = .ok ["REG_TC0_CTRL0", "REG_TC0_X00",
        "REG_TC0_X01", "REG_TC0_CTRL1", "REG_TC0_X10", "REG_TC0_X11"] := by cbv
  have hnodup : (found.map name).Nodup := by
    rw [hrun] at hlist
    rw [Except.ok.inj hlist]
    decide
  exact ⟨isTree_timer, namesApart_timer, rfl, found, hrun, hnodup, hiff.mp hnodup⟩

/-! ### Long arrays -/

/-- The address of a transfer. -/
def descriptorAddress : Register := { name := "ADDR", owner := "DMA", size := 4 }

/-- A descriptor of a transfer. -/
def descriptor : RegisterGroup :=
  { name := "DMA_DESC"
    owner := "DMA"
    size := 4
    members := [(Mode.default_, [descriptorAddress])] }

/-- The descriptors inside of a channel. -/
def descriptorAlias : Register :=
  { name := "DMA_DESC", owner := "DMA", size := 4, count := 11, isAlias := true }

/-- A channel with eleven descriptors. -/
def dmaChannel : RegisterGroup :=
  { name := "DMA_CHANNEL"
    owner := "DMA"
    size := 0x40
    members := [(Mode.default_, [descriptorAlias])] }

/-- The channels inside of the base group. -/
def dmaChannelAlias : Register :=
  { name := "DMA_CHANNEL", owner := "DMA", size := 0x40, count := 12, isAlias := true }

/-- The base group: an array of twelve channels. -/
def dmaBase : RegisterGroup :=
  { name := "DMA", owner := "DMA", size := 0x300, members := [(Mode.default_, [dmaChannelAlias])] }

/-- A controller whose channels and descriptors have numbers of two digits. -/
def dma : Peripheral := { name := "DMA", groups := [dmaBase, dmaChannel, descriptor] }

theorem isTree_dma : dma.IsTree where
  modes := by decide
  acyclic := by
    refine Peripheral.acyclic_of_size_lt fun g hg sub hnests => ?_
    obtain ⟨a, ha, halias, hsub⟩ := hnests
    simp only [dma, List.mem_cons, List.not_mem_nil, or_false] at hg
    rcases hg with rfl | rfl | rfl
    · obtain rfl : a = dmaChannelAlias := List.mem_singleton.mp ha
      obtain rfl : dmaChannel = sub := Option.some.inj hsub
      decide
    · obtain rfl : a = descriptorAlias := List.mem_singleton.mp ha
      obtain rfl : descriptor = sub := Option.some.inj hsub
      decide
    · obtain rfl : a = descriptorAddress := List.mem_singleton.mp ha
      cases halias
  once := by decide

theorem namesApart_dma : dma.NamesApart Style.legacy.convention := by
  have hnames : dma.registerNames Style.legacy.convention = ["ADDR"] := by cbv
  constructor
  all_goals rw [hnames]
  case nodup => decide
  case last => simp

/-- Every descriptor of every channel is visited. -/
theorem visited_dma {k l : Int} (hk : 0 ≤ k ∧ k < 12) (hl : 0 ≤ l ∧ l < 11) :
    Visited dma 1 dmaBase ([(dmaChannelAlias, k), (descriptorAlias, l)], descriptorAddress, 0) := by
  refine visited_cons_iff.mpr ⟨List.mem_singleton_self _, rfl, hk.1, hk.2, dmaChannel, rfl, ?_⟩
  refine visited_cons_iff.mpr ⟨List.mem_singleton_self _, rfl, hl.1, hl.2, descriptor, rfl, ?_⟩
  exact visited_nil_iff.mpr ⟨List.mem_singleton_self _, rfl, List.mem_singleton_self _⟩

/-- **Two descriptors of different channels have the same name:** number ten of channel one, and
number zero of channel eleven. -/
theorem dma_names_not_nodup :
    dma.IsTree ∧ dma.NamesApart Style.legacy.convention ∧ dma.baseGroup? = some dmaBase ∧
    ∃ found, ofInstance dma dmaBase { name := "DMA", baseAddress := 0x40 }
      Style.legacy.convention = .ok found ∧ ¬ (found.map name).Nodup := by
  obtain ⟨found, vs, hrun, hlabels, hvs, hvisited⟩ :=
    exists_labels isTree_dma namesApart_dma rfl { name := "DMA", baseAddress := 0x40 }
  refine ⟨isTree_dma, namesApart_dma, rfl, found, hrun, ?_⟩
  rw [hlabels, List.nodup_map_iff_inj_on hvs]
  intro hinj
  have hten : label { name := "DMA", baseAddress := 0x40 } Style.legacy.convention
      [(dmaChannelAlias, 1), (descriptorAlias, 10)] descriptorAddress 0
        = "REG_DMA_ADDR110" := by cbv
  have heleven : label { name := "DMA", baseAddress := 0x40 } Style.legacy.convention
      [(dmaChannelAlias, 11), (descriptorAlias, 0)] descriptorAddress 0
        = "REG_DMA_ADDR110" := by cbv
  have hvisits := hinj _ ((hvisited _).mpr (visited_dma (k := 1) (l := 10) (by decide) (by decide)))
    _ ((hvisited _).mpr (visited_dma (k := 11) (l := 0) (by decide) (by decide)))
    (hten.trans heleven.symm)
  simp at hvisits

end ChipSupport.RegisterAddress
