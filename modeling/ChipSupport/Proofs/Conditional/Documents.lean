import ChipSupport.Proofs.Conditional.Unbroken

/-!
# Documents without line feeds

The texts in a header are attributes of a document.  What is read from a document whose attributes
have no line feeds, and whose names have no `#`, is a description with the same property.

## Main definitions

* `Data.Unbroken`, `Document.Unbroken` — documents without line feeds in attributes.

## Main results

* `Document.unbroken_device`, `Document.unbroken_peripherals`, … — what is read from them.
-/

namespace ChipSupport

open Text

/-! ### Data -/

/-- Whether a key is that of an attribute. -/
def Data.isAttribute : Data → Bool
  | .text s => s.toList.head? == some '@'
  | _ => false

mutual

/-- Data whose attributes have no line feeds, at any depth, and whose names have no `#`. -/
def Data.Unbroken : Data → Prop
  | .list items => Data.UnbrokenItems items
  | .table entries => Data.UnbrokenEntries entries
  | .ordered entries => Data.UnbrokenEntries entries
  | _ => True

/-- The same for the items of a list. -/
def Data.UnbrokenItems : List Data → Prop
  | [] => True
  | d :: rest => d.Unbroken ∧ Data.UnbrokenItems rest

/-- The same for the entries of a table. -/
def Data.UnbrokenEntries : List (Data × Data) → Prop
  | [] => True
  | (key, value) :: rest =>
    ((key.isAttribute = true → Lacks '\n' (Node.shown value))
      ∧ (key.hasText "@name" = true → Lacks '#' (Node.shown value)) ∧ value.Unbroken)
      ∧ Data.UnbrokenEntries rest

end

namespace Data

theorem UnbrokenItems.of_mem {items : List Data} (h : UnbrokenItems items) :
    ∀ d ∈ items, d.Unbroken := by
  induction items with
  | nil => exact List.forall_mem_nil _
  | cons d rest ih =>
    rw [UnbrokenItems] at h
    exact List.forall_mem_cons.mpr ⟨h.1, ih h.2⟩

/-- An entry is found under its name. -/
theorem UnbrokenEntries.find? {entries : List (Data × Data)} (h : UnbrokenEntries entries)
    {name : String} {value : Data} (hvalue : Data.find? name entries = some value) :
    ((Data.text name).isAttribute = true → Lacks '\n' (Node.shown value))
      ∧ (name = "@name" → Lacks '#' (Node.shown value)) ∧ value.Unbroken := by
  fun_induction Data.find? name entries with
  | case1 => cases hvalue
  | case2 value' rest =>
    cases hvalue
    rw [UnbrokenEntries] at h
    obtain ⟨⟨hattribute, hname, hunbroken⟩, -⟩ := h
    refine ⟨hattribute, fun heq => hname ?_, hunbroken⟩
    rw [heq]
    rfl
  | case3 key value' rest hne ih =>
    rw [UnbrokenEntries] at h
    exact ih h.2 hvalue
  | case4 entry rest hkey ih =>
    rw [UnbrokenEntries] at h
    exact ih h.2 hvalue

namespace Unbroken

variable {d : Data} (h : d.Unbroken)
include h

theorem get? {name : String} {value : Data} (hvalue : d.get? name = some value) :
    ((Data.text name).isAttribute = true → Lacks '\n' (Node.shown value))
      ∧ (name = "@name" → Lacks '#' (Node.shown value)) ∧ value.Unbroken := by
  obtain ⟨entries, hentries, hvalue⟩ := Option.bind_eq_some_iff.mp hvalue
  cases d with
  | table entries' =>
    cases hentries
    rw [Unbroken] at h
    exact h.find? hvalue
  | ordered entries' =>
    cases hentries
    rw [Unbroken] at h
    exact h.find? hvalue
  | _ => cases hentries

theorem attr (name : String) {absent : String} (habsent : Lacks '\n' absent) :
    Lacks '\n' (Node.attr d name absent) := by
  rw [Node.attr, Node.attr?]
  cases hvalue : d.get? ("@" ++ name) with
  | none => exact habsent
  | some value =>
    refine (h.get? hvalue).1 ?_
    rw [isAttribute, String.toList_append]
    rfl

theorem isName_attr : IsName (Node.attr d "name") := by
  refine ⟨h.attr _ (by decide), ?_⟩
  rw [Node.attr, Node.attr?]
  cases hvalue : d.get? ("@" ++ "name") with
  | none => exact List.not_mem_nil
  | some value => exact (h.get? hvalue).2.1 rfl

theorem asList : ∀ item ∈ Node.asList d, item.Unbroken := by
  unfold Node.asList
  split
  · rw [Unbroken] at h
    exact h.of_mem
  · split
    · exact List.forall_mem_nil _
    · exact List.forall_mem_singleton.mpr h

theorem getD (tag : String) : ((d.get? tag).getD .null).Unbroken := by
  cases hvalue : d.get? tag with
  | none => trivial
  | some value => exact (h.get? hvalue).2.2

theorem children (tag : String) : ∀ node ∈ Node.children d tag, node.Unbroken :=
  (h.getD tag).asList

theorem part {tag : String} {value : Data} (hvalue : Node.part d tag = .ok value) :
    value.Unbroken := by
  unfold Node.part at hvalue
  split at hvalue
  · cases hvalue
    exact h.getD tag
  · cases hvalue

end Unbroken

end Data

namespace Node

/-! ### Nodes -/

theorem shown_attributeData (node : Data) (name : String) :
    shown (attributeData node name) = attr node name := by
  rw [attributeData, attr]
  cases attr? node name <;> rfl

theorem unbroken_namedValues {nodes : List Data} (h : ∀ n ∈ nodes, n.Unbroken) :
    ∀ v ∈ namedValues nodes, v.Unbroken :=
  List.forall_mem_map.mpr fun n hn =>
    ⟨(h n hn).attr _ (by decide), (h n hn).attr _ (by decide), (h n hn).attr _ (by decide)⟩

/-! ### Groups -/

section Groups

variable {module_ : Data} (hmodule : module_.Unbroken) {node : Data} (hnode : node.Unbroken)

include hmodule in
theorem unbroken_valueGroup {group : Data} {field : String} {nodes : List Data}
    (h : valueGroup module_ group field = .ok nodes) : ∀ n ∈ nodes, n.Unbroken := by
  rw [valueGroup] at h
  split at h
  · cases h
    exact List.forall_mem_nil _
  · obtain ⟨found, hfound, h⟩ := Steps.bind_eq_ok_iff.mp h
    split at h
    · next valueNode =>
      cases h
      exact (hmodule.children _ valueNode (mem_of_find? hfound)).children _
    · cases h

include hnode in
theorem lacks_bitfieldModes {modes : List String} (h : bitfieldModes node = .ok modes) :
    ∀ mode ∈ modes, Lacks '\n' mode := by
  unfold bitfieldModes at h
  split at h
  · next s hs =>
    have hwords : ∀ mode ∈ words s, Lacks '\n' mode := by
      refine lacks_of_mem_words ?_
      rw [← attr_eq_of_attributeData hs]
      exact hnode.attr _ (by decide)
    split at h
    · cases h
      exact List.forall_mem_singleton.mpr (by decide)
    · cases h
      exact hwords
  · cases h

include hmodule hnode

theorem unbroken_bitfield {register : String} {f : Bitfield}
    (h : bitfield module_ register node = .ok f) : f.Unbroken := by
  obtain ⟨modes, hmodes, h⟩ := Steps.bind_eq_ok_iff.mp h
  obtain ⟨values, hvalues, h⟩ := Steps.bind_eq_ok_iff.mp h
  obtain ⟨mask, -, h⟩ := Steps.bind_eq_ok_iff.mp h
  cases h
  exact ⟨hnode.attr _ (by decide), hnode.attr _ (by decide), lacks_bitfieldModes hnode hmodes,
    unbroken_namedValues (unbroken_valueGroup hmodule hvalues)⟩

theorem unbroken_register {isAlias : Bool} {r : Register}
    (h : register module_ isAlias node = .ok r) : r.Unbroken := by
  have hfields (fields : List Bitfield) : (children node "bitfield").mapM
      (bitfield module_ (attr node "name")) = .ok fields → ∀ f ∈ fields, f.Unbroken := by
    intro hfields f hf
    obtain ⟨n, hn, hf⟩ := Steps.exists_of_mem_mapM hfields hf
    exact unbroken_bitfield hmodule (hnode.children _ n hn) hf
  -- a nested group has no bitfields, which are read first
  cases isAlias
  all_goals
    simp only [register, Bool.false_eq_true, if_true, if_false] at h
    obtain ⟨bitfields, hbitfields, h⟩ := Steps.bind_eq_ok_iff.mp h
    obtain ⟨offset, -, h⟩ := Steps.bind_eq_ok_iff.mp h
    obtain ⟨size, -, h⟩ := Steps.bind_eq_ok_iff.mp h
    obtain ⟨initval, -, h⟩ := Steps.bind_eq_ok_iff.mp h
    obtain ⟨count, -, h⟩ := Steps.bind_eq_ok_iff.mp h
    cases h
    refine ⟨hnode.isName_attr, hmodule.isName_attr, hnode.attr _ (by decide),
      hnode.attr _ (by decide), ?_⟩
  · exact hfields bitfields hbitfields
  · cases hbitfields
    exact List.forall_mem_nil _

theorem unbroken_registers {rs : List Register} (h : registers module_ node = .ok rs) :
    ∀ r ∈ rs, r.Unbroken := by
  intro r hr
  rcases (mem_registers h).mp hr with ⟨child, hchild, hr⟩ | ⟨child, hchild, hr⟩
  · exact unbroken_register hmodule (hnode.children _ child hchild) hr
  · exact unbroken_register hmodule (hnode.children _ child hchild) hr

omit hmodule in
theorem isName_groupModes : ∀ mode ∈ groupModes node, IsName mode := by
  rw [groupModes, List.forall_mem_cons, List.forall_mem_map]
  refine ⟨Mode.isName_default, fun name hname => ?_⟩
  obtain ⟨m, hm, rfl⟩ := List.mem_map.mp (List.mem_filter.mp hname).1
  rw [shown_attributeData]
  exact (hnode.children _ m hm).isName_attr

omit hmodule hnode in
theorem map_fst_listed (rs : List Register) (seen modes : List String) :
    (listed rs seen modes).map Prod.fst = modes := by
  induction modes generalizing seen with
  | nil => rfl
  | cons mode rest ih => rw [listed, List.map_cons, ih]

/-- Merging shortens the names of modes and changes the modes of registers only. -/
theorem unbroken_group {g : RegisterGroup} (h : group module_ node = .ok g) : g.Unbroken := by
  obtain ⟨rs, hrs⟩ := exists_registers h
  obtain ⟨hmodes, hmembers⟩ := group_eq_ok h hrs
  have hregisters := unbroken_registers hmodule hnode hrs
  have hlisted : ∀ m ∈ listed rs [] (groupModes node), IsName m.1 := by
    intro m hm
    refine isName_groupModes hnode m.1 ?_
    rw [← map_fst_listed rs [] (groupModes node)]
    exact List.mem_map_of_mem hm
  have hmerged : ∀ m ∈ mergedModes (groupModes node) rs, IsName m.1 ∧ ∀ r ∈ m.2, r.Unbroken := by
    rw [mergedModes_eq, List.forall_mem_map]
    intro e he
    obtain ⟨m, hm, hrs', hname⟩ := Mode.exists_of_mem_coalesce he
    refine ⟨⟨?_, ?_⟩, List.forall_mem_map.mpr fun r hr => ?_⟩
    · exact (hlisted m hm).unbroken.of_subset hname.subset
    · exact (hlisted m hm).noHash.of_subset hname.subset
    · rw [← hrs'] at hr
      obtain ⟨hname, howner, hrw, hcaption, hbitfields⟩ := hregisters r (mem_of_mem_listed hm hr)
      exact ⟨hname, howner, hrw, hcaption, hbitfields⟩
  have hfields : g.name = attr node "name" ∧ g.owner = attr module_ "name"
      ∧ g.section_ = attr node "section" := by
    unfold group at h
    obtain ⟨rs, -, h⟩ := Steps.bind_eq_ok_iff.mp h
    obtain ⟨-, -, h⟩ := Steps.bind_eq_ok_iff.mp h
    obtain ⟨size, -, h⟩ := Steps.bind_eq_ok_iff.mp h
    obtain ⟨alignment, -, h⟩ := Steps.bind_eq_ok_iff.mp h
    split at h
    · cases h
    · rw [← Except.ok.inj h]
      exact ⟨rfl, rfl, rfl⟩
  obtain ⟨hname, howner, hsection⟩ := hfields
  refine ⟨?_, ?_, ?_, ?_, ?_⟩
  · rw [hname]
    exact hnode.isName_attr
  · rw [howner]
    exact hmodule.isName_attr
  · rw [hsection]
    exact hnode.attr _ (by decide)
  · rw [hmodes]
    exact List.forall_mem_map.mpr fun m hm => (hmerged m hm).1
  · rw [hmembers]
    exact fun m hm => (hmerged m ((lastOfEach_sublist _).subset hm)).2

end Groups

/-! ### Peripherals -/

theorem unbroken_inst {node : Data} (hnode : node.Unbroken) {i : Instance} (h : inst node = .ok i) :
    i.Unbroken := by
  obtain ⟨base, -, h⟩ := Steps.bind_eq_ok_iff.mp h
  split at h
  · next baseNode signalsNode parametersNode hsignals hparameters =>
    obtain ⟨instanceId, -, h⟩ := Steps.bind_eq_ok_iff.mp h
    obtain ⟨baseAddress, -, h⟩ := Steps.bind_eq_ok_iff.mp h
    cases h
    have hsignalsNode := (hnode.get? hsignals).2.2
    have hparametersNode := (hnode.get? hparameters).2.2
    refine ⟨hnode.attr _ (by decide), unbroken_namedValues (hparametersNode.children _),
      List.forall_mem_map.mpr fun s hs => ?_⟩
    have hs := hsignalsNode.children _ s hs
    exact ⟨hs.attr _ (by decide), hs.attr _ (by decide), hs.attr _ (by decide),
      hs.attr _ (by decide)⟩
  · cases h

theorem unbroken_peripheral {deviceNode module_ : Data} (hnode : deviceNode.Unbroken)
    (hmodule : module_.Unbroken) {p : Peripheral} (h : peripheral deviceNode module_ = .ok p) :
    p.Unbroken := by
  have hgroups : ∀ g ∈ p.groups, g.Unbroken := by
    intro g hg
    obtain ⟨node, hchild, hg⟩ := Steps.exists_of_mem_mapM (peripheral_eq_ok h).2 hg
    exact unbroken_group hmodule (hmodule.children _ node hchild) hg
  unfold peripheral at h
  obtain ⟨groups, -, h⟩ := Steps.bind_eq_ok_iff.mp h
  dsimp only at h
  split at h
  · next instances hinstances =>
    rw [← Except.ok.inj h] at hgroups ⊢
    refine ⟨hnode.attr _ (by decide), hnode.attr _ (by decide), hnode.attr _ (by decide), hgroups,
      fun i hi => ?_⟩
    obtain ⟨n, hn, hi⟩ := Steps.exists_of_mem_mapM hinstances hi
    exact unbroken_inst (hnode.children _ n hn) hi
  · split at h
    · rw [← Except.ok.inj h] at hgroups ⊢
      exact ⟨hnode.attr _ (by decide), hnode.attr _ (by decide), hnode.attr _ (by decide), hgroups,
        List.forall_mem_nil _⟩
    · cases h

end Node

/-! ### Documents -/

/-- Documents without line feeds in attributes, and without `#` in names. -/
structure Document.Unbroken (doc : Document) : Prop where
  deviceNode : doc.deviceNode.Unbroken
  modulesNode : doc.modulesNode.Unbroken

namespace Document

open Node

variable {doc : Document} (hdoc : doc.Unbroken)
include hdoc

omit hdoc in
theorem unbroken_childrenOf {node? : Option Data} (h : ∀ n ∈ node?, n.Unbroken) (tag : String) :
    ∀ n ∈ childrenOf? node? tag, n.Unbroken := by
  cases node? with
  | none => exact List.forall_mem_nil _
  | some node => exact (h node rfl).children tag

theorem unbroken_propertyNodes {group : String} {nodes : List Data}
    (h : doc.propertyNodes group = .ok nodes) : ∀ n ∈ nodes, n.Unbroken := by
  obtain ⟨groups, hgroups, h⟩ := Steps.bind_eq_ok_iff.mp h
  obtain ⟨node?, hnode, h⟩ := Steps.bind_eq_ok_iff.mp h
  cases h
  refine unbroken_childrenOf (fun n hn => ?_) _
  cases hn
  exact (hdoc.deviceNode.part hgroups).children _ n (mem_of_find? hnode)

theorem unbroken_device {d : Device} (h : doc.device = .ok d) : d.Unbroken := by
  obtain ⟨base, hbase, h⟩ := Steps.bind_eq_ok_iff.mp h
  obtain ⟨segments, hsegments, h⟩ := Steps.bind_eq_ok_iff.mp h
  obtain ⟨parameters, hparameters, h⟩ := Steps.bind_eq_ok_iff.mp h
  obtain ⟨signatures, hsignatures, h⟩ := Steps.bind_eq_ok_iff.mp h
  obtain ⟨electrical, helectrical, h⟩ := Steps.bind_eq_ok_iff.mp h
  cases h
  have hspace : ∀ n ∈ base, n.Unbroken := by
    obtain ⟨spaces, hspaces, hbase⟩ := Steps.bind_eq_ok_iff.mp hbase
    intro n hn
    cases hn
    exact (hdoc.deviceNode.part hspaces).children _ n (mem_of_find? hbase)
  have hnode := hdoc.deviceNode
  refine ⟨hnode.attr _ (by decide), hnode.attr _ (by decide),
    unbroken_namedValues ((hnode.part hparameters).children _),
    unbroken_namedValues (unbroken_propertyNodes hdoc hsignatures),
    unbroken_namedValues (unbroken_propertyNodes hdoc helectrical), fun s hs => ?_⟩
  obtain ⟨n, hn, hs⟩ := Steps.exists_of_mem_mapM hsegments hs
  obtain ⟨start, -, hs⟩ := Steps.bind_eq_ok_iff.mp hs
  obtain ⟨size, -, hs⟩ := Steps.bind_eq_ok_iff.mp hs
  obtain ⟨pageSize, -, hs⟩ := Steps.bind_eq_ok_iff.mp hs
  cases hs
  exact (unbroken_childrenOf hspace _ n hn).attr _ (by decide)

theorem unbroken_interrupts {l : InterruptList} (h : doc.interrupts = .ok l) : l.Unbroken := by
  obtain ⟨nodes, hnodes, h⟩ := Steps.bind_eq_ok_iff.mp h
  obtain ⟨vectors, hvectors, h⟩ := Steps.bind_eq_ok_iff.mp h
  cases h
  refine ⟨fun i hi => ?_, List.forall_mem_nil _⟩
  obtain ⟨n, hn, hi⟩ := Steps.exists_of_mem_mapM hvectors hi
  obtain ⟨number, -, hi⟩ := Steps.bind_eq_ok_iff.mp hi
  cases hi
  have hn := (hdoc.deviceNode.part hnodes).children _ n hn
  exact ⟨hn.isName_attr, hn.attr _ (by decide), hn.attr _ (by decide)⟩

theorem unbroken_events {kind tag : String} {events : List Event}
    (h : doc.events kind tag = .ok events) : ∀ e ∈ events, Lacks '\n' e.name := by
  obtain ⟨nodes, hnodes, h⟩ := Steps.bind_eq_ok_iff.mp h
  have hunbroken : ∀ n ∈ nodes, n.Unbroken := by
    unfold eventNodes at hnodes
    obtain ⟨all, hall, hnodes⟩ := Steps.bind_eq_ok_iff.mp hnodes
    dsimp only at hnodes
    split at hnodes
    · cases hnodes
      exact List.forall_mem_nil _
    · obtain ⟨node, hnode, hnodes⟩ := Steps.bind_eq_ok_iff.mp hnodes
      cases hnodes
      exact ((hdoc.deviceNode.part hall).part hnode).children tag
  intro e he
  obtain ⟨n, hn, he⟩ := Steps.exists_of_mem_mapM h he
  obtain ⟨index, -, he⟩ := Steps.bind_eq_ok_iff.mp he
  cases he
  exact (hunbroken n hn).attr _ (by decide)

theorem unbroken_peripheralNodes {nodes : List Data} (h : doc.peripheralNodes = .ok nodes) :
    ∀ n ∈ nodes, n.Unbroken := by
  obtain ⟨node, hnode, h⟩ := Steps.bind_eq_ok_iff.mp h
  cases h
  exact (hdoc.deviceNode.part hnode).children _

theorem lacks_portPinNames {names : List String} (h : doc.portPinNames = .ok names) :
    ∀ name ∈ names, Lacks '\n' name := by
  obtain ⟨nodes, hnodes, h⟩ := Steps.bind_eq_ok_iff.mp h
  obtain ⟨all, hall, h⟩ := Steps.bind_eq_ok_iff.mp h
  cases h
  intro name hname
  rw [List.mem_eraseDups] at hname
  obtain ⟨found, hfound, hname⟩ := List.mem_flatten.mp (List.mem_filter.mp hname).1
  obtain ⟨instance_, hinstance, hfound⟩ := Steps.exists_of_mem_mapM hall hfound
  obtain ⟨node, hnode, hinstance⟩ := List.mem_flatMap.mp hinstance
  have hinstance := (unbroken_peripheralNodes hdoc hnodes node hnode).children _ instance_ hinstance
  obtain ⟨signals, hsignals, hfound⟩ := Steps.bind_eq_ok_iff.mp hfound
  obtain ⟨s, hs, hname⟩ := Steps.exists_of_mem_mapM hfound hname
  split at hname
  · next pad hpad =>
    cases hname
    rw [← attr_eq_of_attributeData hpad]
    exact ((hinstance.part hsignals).children _ s hs).attr _ (by decide)
  · cases hname

theorem unbroken_peripheral {name : Data} {p : Peripheral} (h : doc.peripheral name = .ok p) :
    p.Unbroken := by
  obtain ⟨nodes, node, module_, hnodes, hdevice, hmodule, h⟩ := exists_named h
  exact Node.unbroken_peripheral (unbroken_peripheralNodes hdoc hnodes node (mem_of_find? hdevice))
    (hdoc.modulesNode.children _ module_ (mem_of_find? hmodule)) h

theorem unbroken_peripheralsOf {cache : Cache} (hcache : ∀ entry ∈ cache, entry.2.Unbroken)
    {names : List Data} {ps : List Peripheral}
    (h : (Cache.peripheralsOf doc cache names).1 = .ok ps) : ∀ p ∈ ps, p.Unbroken := by
  induction names generalizing cache ps with
  | nil =>
    cases h
    exact List.forall_mem_nil _
  | cons name rest ih =>
    -- the peripheral that is read, and the cache afterwards
    have hread : (∀ p, (Cache.peripheral doc cache name).1 = .ok p → p.Unbroken)
        ∧ ∀ entry ∈ (Cache.peripheral doc cache name).2.1, entry.2.Unbroken := by
      unfold Cache.peripheral
      split
      · next p hp =>
        obtain ⟨entry, hentry, rfl⟩ := Option.map_eq_some_iff.mp hp
        refine ⟨fun q hq => ?_, hcache⟩
        cases hq
        exact hcache entry (List.mem_of_find?_eq_some hentry)
      · dsimp only
        split
        · next p hp =>
          have hp := unbroken_peripheral hdoc hp
          refine ⟨fun q hq => ?_, List.forall_mem_cons.mpr ⟨hp, hcache⟩⟩
          cases hq
          exact hp
        · refine ⟨fun q hq => ?_, hcache⟩
          cases hq
    obtain ⟨hp, hcache⟩ := hread
    rw [Cache.peripheralsOf] at h
    rcases hfirst : Cache.peripheral doc cache name with ⟨f | p, cache', notes⟩
    · rw [hfirst] at h hp hcache
      dsimp only at h
      split at h
      · exact ih hcache h
      · cases h
    · rw [hfirst] at h hp hcache
      obtain ⟨others, hothers, rfl⟩ := Steps.map_eq_ok_iff.mp h
      exact List.forall_mem_cons.mpr ⟨hp p rfl, ih hcache hothers⟩

theorem unbroken_peripherals {ps : List Peripheral}
    (h : (Cache.peripherals doc []).1 = .ok ps) : ∀ p ∈ ps, p.Unbroken := by
  unfold Cache.peripherals at h
  split at h
  · exact unbroken_peripheralsOf hdoc (List.forall_mem_nil _) h
  · cases h

end Document

end ChipSupport
