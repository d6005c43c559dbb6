import ChipSupport.Document
import ChipSupport.Proofs.Document.Group
import ChipSupport.Proofs.Struct.Members

/-!
# Peripherals as they are read

A peripheral is described by a node of the device and by a module of the same name.  Its groups, and
the registers that they list, belong to the module.

## Main results

* `Node.mode_of_mem_membersOf`, `Node.owner_of_mem_membersOf` — what a listed register carries.
* `Document.peripheralParts_eq_ok_iff`, `Document.exists_named`, `Document.exists_parts` — the nodes
  that a peripheral is read from.
-/

namespace ChipSupport

namespace Node

variable {module_ node : Data} {g : RegisterGroup}

/-! ### Groups -/

theorem owner_group (h : group module_ node = .ok g) : g.owner = attr module_ "name" := by
  unfold group at h
  obtain ⟨rs, -, h⟩ := Steps.bind_eq_ok_iff.mp h
  obtain ⟨-, -, h⟩ := Steps.bind_eq_ok_iff.mp h
  obtain ⟨size, -, h⟩ := Steps.bind_eq_ok_iff.mp h
  obtain ⟨alignment, -, h⟩ := Steps.bind_eq_ok_iff.mp h
  split at h
  · cases h
  · rw [← Except.ok.inj h]

theorem owner_register {isAlias : Bool} {r : Register}
    (h : register module_ isAlias node = .ok r) : r.owner = attr module_ "name" := by
  -- a nested group has no bitfields, which are read first
  cases isAlias
  all_goals
    simp only [register, Bool.false_eq_true, if_true, if_false] at h
    obtain ⟨bitfields, -, h⟩ := Steps.bind_eq_ok_iff.mp h
    obtain ⟨offset, -, h⟩ := Steps.bind_eq_ok_iff.mp h
    obtain ⟨size, -, h⟩ := Steps.bind_eq_ok_iff.mp h
    obtain ⟨initval, -, h⟩ := Steps.bind_eq_ok_iff.mp h
    obtain ⟨count, -, h⟩ := Steps.bind_eq_ok_iff.mp h
    rw [← Except.ok.inj h]

/-- A register that is listed under a mode carries it, and the group has it. -/
theorem mode_of_mem_membersOf (h : group module_ node = .ok g) {mode : String} {r : Register}
    (hr : r ∈ g.membersOf mode) : r.mode = mode ∧ mode ∈ g.modes := by
  obtain ⟨rs, hmem, hr⟩ := RegisterGroup.exists_mem_members hr
  refine ⟨mode_of_mem_members h hmem hr, ?_⟩
  obtain ⟨all, hall⟩ := exists_registers h
  obtain ⟨hmodes, hmembers⟩ := group_eq_ok h hall
  rw [hmembers] at hmem
  rw [hmodes]
  exact List.mem_map_of_mem ((lastOfEach_sublist _).subset hmem)

theorem mem_of_mem_listed {rs : List Register} {seen modes : List String}
    {m : String × List Register} (hm : m ∈ listed rs seen modes) {r : Register} (hr : r ∈ m.2) :
    r ∈ rs := by
  induction modes generalizing seen with
  | nil => cases hm
  | cons mode rest ih =>
    rw [listed] at hm
    rcases List.mem_cons.mp hm with rfl | hm
    · dsimp only at hr
      split at hr
      · cases hr
      · exact (List.mem_filter.mp hr).1
    · exact ih hm

/-- A register that a group lists belongs to the module. -/
theorem owner_of_mem_membersOf (h : group module_ node = .ok g) {mode : String} {r : Register}
    (hr : r ∈ g.membersOf mode) : r.owner = attr module_ "name" := by
  obtain ⟨rs, hmem, hr⟩ := RegisterGroup.exists_mem_members hr
  obtain ⟨all, hall⟩ := exists_registers h
  rw [(group_eq_ok h hall).2] at hmem
  have hmerged := (lastOfEach_sublist _).subset hmem
  rw [mergedModes_eq, List.mem_map] at hmerged
  obtain ⟨e, he, hcarrying⟩ := hmerged
  obtain ⟨m, hm, hmembers, -⟩ := Mode.exists_of_mem_coalesce he
  -- merging changes the mode of a register only
  have hregisters : (carrying e).2 = rs := (Prod.ext_iff.mp hcarrying).2
  rw [← hregisters] at hr
  obtain ⟨s, hs, rfl⟩ := List.mem_map.mp hr
  rw [← hmembers] at hs
  have howner : s.owner = attr module_ "name" := by
    rcases (mem_registers hall).mp (mem_of_mem_listed hm hs) with
      ⟨child, -, hread⟩ | ⟨child, -, hread⟩
    · exact owner_register hread
    · exact owner_register hread
  exact howner

/-! ### Peripherals -/

variable {deviceNode : Data} {p : Peripheral}

theorem peripheral_eq_ok (h : peripheral deviceNode module_ = .ok p) :
    p.name = attr deviceNode "name" ∧
      (children module_ "register-group").mapM (group module_) = .ok p.groups := by
  unfold peripheral at h
  obtain ⟨groups, hgroups, h⟩ := Steps.bind_eq_ok_iff.mp h
  -- faults in the instances leave the groups as they are
  dsimp only at h
  split at h
  · rw [← Except.ok.inj h]
    exact ⟨rfl, hgroups⟩
  · split at h
    · rw [← Except.ok.inj h]
      exact ⟨rfl, hgroups⟩
    · cases h

theorem exists_group (h : peripheral deviceNode module_ = .ok p) (hg : g ∈ p.groups) :
    ∃ node, group module_ node = .ok g := by
  obtain ⟨node, -, hnode⟩ := Steps.exists_of_mem_mapM (peripheral_eq_ok h).2 hg
  exact ⟨node, hnode⟩

/-- An instance of a peripheral is read from a child of the node of the peripheral. -/
theorem exists_of_mem_usableInstances (h : peripheral deviceNode module_ = .ok p) {i : Instance}
    (hi : i ∈ p.usableInstances) :
    ∃ child ∈ children deviceNode "instance", inst child = .ok i := by
  unfold peripheral at h
  obtain ⟨groups, -, h⟩ := Steps.bind_eq_ok_iff.mp h
  dsimp only at h
  split at h
  · next instances hinstances =>
    rw [← Except.ok.inj h] at hi
    exact Steps.exists_of_mem_mapM hinstances hi
  · split at h
    · rw [← Except.ok.inj h] at hi
      cases hi
    · cases h

/-! ### Names -/

theorem mem_of_find? {key : String} {value node : Data} {nodes : List Data}
    (h : find? key value nodes = .ok (some node)) : node ∈ nodes := by
  induction nodes with
  | nil => cases h
  | cons n rest ih =>
    rw [find?] at h
    obtain ⟨found, -, h⟩ := Steps.bind_eq_ok_iff.mp h
    split at h
    · cases h
      exact List.mem_cons_self
    · exact List.mem_cons_of_mem _ (ih h)

/-- The text of an attribute that is a text. -/
theorem attr_eq_of_attributeData {node : Data} {name s : String}
    (h : attributeData node name = .text s) : attr node name = s := by
  rw [attributeData] at h
  rw [attr]
  cases hattr : attr? node name with
  | none =>
    rw [hattr] at h
    cases h
    rfl
  | some d =>
    rw [hattr] at h
    rw [Option.map_some, Option.getD_some, show d = .text s from h]
    rfl

theorem part_of_find? {key : String} {value found : Data} {nodes : List Data}
    (h : find? key value nodes = .ok (some found)) :
    ∃ d, part found ("@" ++ key) = .ok d ∧ d.sameKey value = true := by
  induction nodes with
  | nil => cases h
  | cons node rest ih =>
    rw [find?] at h
    obtain ⟨d, hd, h⟩ := Steps.bind_eq_ok_iff.mp h
    split at h
    · next hsame =>
      cases h
      exact ⟨d, hd, hsame⟩
    · exact ih h

theorem attr_of_named? {name : String} {found : Data} {nodes : List Data}
    (h : named? (.text name) nodes = .ok (some found)) : attr found "name" = name := by
  obtain ⟨d, hd, hsame⟩ := part_of_find? h
  -- only a text is the same key as a text
  have htext : d = .text name := by
    cases d with
    | text s =>
      rw [Data.sameKey, beq_iff_eq] at hsame
      rw [hsame]
    | _ => simp [Data.sameKey] at hsame
  rw [part] at hd
  split at hd
  · rw [Except.ok.injEq, htext] at hd
    rw [attr, attr?]
    cases hget : found.get? ("@" ++ "name") with
    | none =>
      rw [hget] at hd
      cases hd
    | some d =>
      rw [hget] at hd
      rw [Option.getD_some] at hd
      rw [hd]
      rfl
  · cases hd

end Node

namespace Document

/-- The parts of a peripheral are the first node of the device and the first module of its name. -/
theorem peripheralParts_eq_ok_iff {doc : Document} {name deviceNode module_ : Data} :
    doc.peripheralParts name = .ok (deviceNode, module_) ↔
      name.canBeKey = true ∧ ∃ nodes, doc.peripheralNodes = .ok nodes ∧
        Node.named? name nodes = .ok (some deviceNode) ∧
        Node.named? name (Node.children doc.modulesNode "module") = .ok (some module_) := by
  unfold peripheralParts
  dsimp only
  cases name.canBeKey with
  | false =>
    refine iff_of_false ?_ (by simp)
    rintro ⟨⟩
  | true =>
    rw [Bool.not_true, if_neg Bool.false_ne_true, and_iff_right rfl]
    constructor
    · intro h
      obtain ⟨nodes, hnodes, h⟩ := Steps.bind_eq_ok_iff.mp h
      obtain ⟨inDevice, hdevice, h⟩ := Steps.bind_eq_ok_iff.mp h
      obtain ⟨found, hmodule, h⟩ := Steps.bind_eq_ok_iff.mp h
      split at h
      · cases h
        exact ⟨nodes, hnodes, hdevice, hmodule⟩
      · cases h
    · rintro ⟨nodes, hnodes, hdevice, hmodule⟩
      rw [hnodes, hmodule]
      change (Node.named? name nodes >>= _) = _
      rw [hdevice]
      rfl

/-- A peripheral is read from the first node of the device and the first module of a name. -/
theorem exists_named {doc : Document} {name : Data} {p : Peripheral}
    (h : doc.peripheral name = .ok p) :
    ∃ nodes deviceNode module_, doc.peripheralNodes = .ok nodes ∧
      Node.named? name nodes = .ok (some deviceNode) ∧
      Node.named? name (Node.children doc.modulesNode "module") = .ok (some module_) ∧
      Node.peripheral deviceNode module_ = .ok p := by
  rw [peripheral] at h
  obtain ⟨⟨deviceNode, module_⟩, hparts, h⟩ := Steps.bind_eq_ok_iff.mp h
  obtain ⟨-, nodes, hnodes, hdevice, hmodule⟩ := peripheralParts_eq_ok_iff.mp hparts
  exact ⟨nodes, deviceNode, module_, hnodes, hdevice, hmodule, h⟩

/-- A peripheral is read from a node of the device and a module that have its name. -/
theorem exists_parts {doc : Document} {name : String} {p : Peripheral}
    (h : doc.peripheral (.text name) = .ok p) :
    ∃ deviceNode module_, Node.peripheral deviceNode module_ = .ok p ∧
      Node.attr deviceNode "name" = name ∧ Node.attr module_ "name" = name := by
  obtain ⟨nodes, deviceNode, module_, -, hdevice, hmodule, h⟩ := exists_named h
  exact ⟨deviceNode, module_, h, Node.attr_of_named? hdevice, Node.attr_of_named? hmodule⟩

end Document

end ChipSupport
