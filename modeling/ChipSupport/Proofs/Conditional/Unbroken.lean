import ChipSupport.Device
import ChipSupport.Mips.Device
import ChipSupport.Proofs.Document.Peripheral
import ChipSupport.Proofs.Register.Vector
import ChipSupport.Proofs.Text.Lacks

/-!
# Descriptions without line feeds

A line of a header that is made of texts without line feeds is one line.  Where it begins with a
name, it is no directive if the name has no `#`.

## Main definitions

* `Text.IsName` — names that cannot break a line or begin a directive.
* `Register.Unbroken`, `Peripheral.Unbroken`, `Device.Unbroken`, … — descriptions whose texts have
  no line feeds, and whose names are such names.

## Main results

* `Register.Unbroken.modeTable`, `Bitfield.unbroken_vectorFields` — what is derived from them.
-/

namespace ChipSupport

open Text

/-- Names that cannot break a line or begin a directive. -/
structure Text.IsName (s : String) : Prop where
  unbroken : Lacks '\n' s
  noHash : Lacks '#' s

/-! ### Registers -/

structure NamedValue.Unbroken (v : NamedValue) : Prop where
  name : Lacks '\n' v.name
  value : Lacks '\n' v.value
  caption : Lacks '\n' v.caption

structure NamedField.Unbroken (f : NamedField) : Prop where
  name : Lacks '\n' f.name
  caption : Lacks '\n' f.caption

structure Bitfield.Unbroken (f : Bitfield) : Prop where
  name : Lacks '\n' f.name
  caption : Lacks '\n' f.caption
  modes : ∀ mode ∈ f.modes, Lacks '\n' mode
  values : ∀ v ∈ f.values, v.Unbroken

structure Register.Unbroken (r : Register) : Prop where
  name : IsName r.name
  owner : IsName r.owner
  rw : Lacks '\n' r.rw
  caption : Lacks '\n' r.caption
  bitfields : ∀ f ∈ r.bitfields, f.Unbroken

structure RegisterGroup.Unbroken (g : RegisterGroup) : Prop where
  name : IsName g.name
  owner : IsName g.owner
  section_ : Lacks '\n' g.section_
  modes : ∀ mode ∈ g.modes, IsName mode
  members : ∀ m ∈ g.members, ∀ r ∈ m.2, r.Unbroken

/-! ### Devices -/

structure Signal.Unbroken (s : Signal) : Prop where
  group : Lacks '\n' s.group
  index : Lacks '\n' s.index
  function : Lacks '\n' s.function
  pad : Lacks '\n' s.pad

structure Instance.Unbroken (i : Instance) : Prop where
  name : Lacks '\n' i.name
  parameters : ∀ v ∈ i.parameters, v.Unbroken
  signals : ∀ s ∈ i.signals, s.Unbroken

structure Peripheral.Unbroken (p : Peripheral) : Prop where
  name : Lacks '\n' p.name
  moduleId : Lacks '\n' p.moduleId
  version : Lacks '\n' p.version
  groups : ∀ g ∈ p.groups, g.Unbroken
  instances : ∀ i ∈ p.usableInstances, i.Unbroken

structure Device.Unbroken (d : Device) : Prop where
  name : Lacks '\n' d.name
  architecture : Lacks '\n' d.architecture
  parameters : ∀ v ∈ d.parameters, v.Unbroken
  signatures : ∀ v ∈ d.signatures, v.Unbroken
  electrical : ∀ v ∈ d.electrical, v.Unbroken
  segments : ∀ s ∈ d.segments, Lacks '\n' s.name

structure Interrupt.Unbroken (i : Interrupt) : Prop where
  name : IsName i.name
  caption : Lacks '\n' i.caption
  owner : Lacks '\n' i.owner

structure InterruptList.Unbroken (l : InterruptList) : Prop where
  vectors : ∀ i ∈ l.vectors, i.Unbroken
  requests : ∀ i ∈ l.requests, i.Unbroken

structure ConfigOption.Unbroken (o : ConfigOption) : Prop where
  name : Lacks '\n' o.name
  desc : Lacks '\n' o.desc

structure ConfigField.Unbroken (f : ConfigField) : Prop where
  name : Lacks '\n' f.name
  desc : Lacks '\n' f.desc
  options : ∀ o ∈ f.options, o.Unbroken

structure ConfigRegister.Unbroken (r : ConfigRegister) : Prop where
  name : Lacks '\n' r.name
  portals : ∀ portal ∈ r.portals, Lacks '\n' portal
  modes : ∀ m ∈ r.modes, ∀ f ∈ m.fields, f.Unbroken
  baseOf : ∀ name ∈ r.baseOf, Lacks '\n' name

structure MipsDevice.Unbroken (d : MipsDevice) : Prop where
  name : Lacks '\n' d.name
  regions : ∀ r ∈ d.regions, Lacks '\n' r.name
  interrupts : d.interrupts.Unbroken
  sfrs : ∀ r ∈ d.sfrs, r.Unbroken
  dcrs : ∀ r ∈ d.dcrs, r.Unbroken

/-! ### Modes -/

theorem Bitfield.Unbroken.toNamed {f : Bitfield} (h : f.Unbroken) : f.toNamed.Unbroken :=
  ⟨h.name, h.caption⟩

theorem Mode.isName_default : IsName Mode.default_ := ⟨by decide, by decide⟩

/-- A merged mode has a start of a mode's name. -/
theorem Mode.lacks_of_mem_coalesce {α : Type} {c : Char} {same : α → α → Bool}
    {modes : List (String × α)} (h : ∀ m ∈ modes, Lacks c m.1) {e : String × α}
    (he : e ∈ Mode.coalesce same modes) : Lacks c e.1 := by
  obtain ⟨m, hm, -, hname⟩ := Mode.exists_of_mem_coalesce he
  exact (h m hm).of_subset hname.subset

theorem Register.Unbroken.modeTable {r : Register} (h : r.Unbroken) (coalesce : Bool) :
    ∀ m ∈ r.modeTable coalesce, Lacks '\n' m.1 ∧ ∀ f ∈ m.2, f.Unbroken := by
  have htable : ∀ m ∈ (modeNames r.bitfields).map fun mode => (mode, fieldsIn r.bitfields mode),
      Lacks '\n' m.1 ∧ ∀ f ∈ m.2, f.Unbroken := by
    refine List.forall_mem_map.mpr fun mode hmode => ⟨?_, fun f hf => ?_⟩
    · rw [modeNames, List.mem_eraseDups] at hmode
      obtain ⟨f, hf, hmem⟩ := List.mem_flatMap.mp hmode
      exact (h.bitfields f hf).modes mode hmem
    · rw [fieldsIn, Bitfield.mem_sorted] at hf
      exact h.bitfields f (List.mem_filter.mp hf).1
  unfold Register.modeTable
  split
  · exact List.forall_mem_singleton.mpr ⟨by decide, List.forall_mem_nil _⟩
  · dsimp only
    split
    · intro m hm
      obtain ⟨m', hm', hmembers, -⟩ := Mode.exists_of_mem_coalesce hm
      refine ⟨Mode.lacks_of_mem_coalesce (fun e he => (htable e he).1) hm, ?_⟩
      exact hmembers ▸ (htable m' hm').2
    · exact htable

/-! ### Vector fields -/

theorem dropNumber_subset (s : List Char) : dropNumber s ⊆ s := by
  have hdrop (t : List Char) : (t.dropWhile isDecimal).reverse ⊆ t :=
    fun d hd => (List.dropWhile_sublist _).subset (List.mem_reverse.mp hd)
  unfold dropNumber
  split
  · next rest hrest =>
    intro d hd
    rw [← List.mem_reverse, hrest]
    rcases List.mem_append.mp hd with hd | hd
    · exact List.mem_cons_of_mem _ (hdrop rest hd)
    · exact List.mem_singleton.mp hd ▸ List.mem_cons_self
  · exact fun d hd => List.mem_reverse.mp (hdrop _ hd)

theorem lacks_baseName {c : Char} {name : String} (h : Lacks c name) : Lacks c (baseName name) := by
  rw [baseName, lacks_ofList]
  exact fun hc => h (dropNumber_subset _ hc)

theorem lacks_blankDigits {c : Char} (hc : c ≠ 'x') {caption : String} (h : Lacks c caption) :
    Lacks c (blankDigits caption) := by
  rw [blankDigits, lacks_ofList]
  intro hmem
  obtain ⟨d, hd, hblank⟩ := List.mem_map.mp hmem
  split at hblank
  · exact hc hblank.symm
  · exact h (hblank ▸ hd)

namespace Bitfield

theorem Unbroken.beginVector {f : Bitfield} (h : f.Unbroken) : f.beginVector.Unbroken :=
  ⟨lacks_baseName h.name, lacks_blankDigits (by decide) h.caption⟩

theorem unbroken_vectorsFrom {current : Option NamedField} {next : Int} {fs : List Bitfield}
    (hcurrent : ∀ v ∈ current, v.Unbroken) (h : ∀ f ∈ fs, f.Unbroken) :
    ∀ v ∈ vectorsFrom current next fs, v.Unbroken := by
  -- a vector field goes on or ends at each bit, and another one may begin there
  have hbegin (f : Bitfield) (hf : f.Unbroken) :
      ∀ v ∈ (if f.isNumberedBit then some f.beginVector else none), v.Unbroken := by
    split
    · intro v hv
      cases hv
      exact hf.beginVector
    · intro v hv
      cases hv
  induction fs generalizing current next with
  | nil =>
    intro v hv
    exact hcurrent v (Option.mem_toList.mp hv)
  | cons f rest ih =>
    rw [List.forall_mem_cons] at h
    cases current with
    | none => exact ih (hbegin f h.1) h.2
    | some v =>
      have hv := hcurrent v rfl
      rw [vectorsFrom]
      split
      · refine ih (fun w hw => ?_) h.2
        cases hw
        exact ⟨hv.name, hv.caption⟩
      · exact List.forall_mem_cons.mpr ⟨hv, ih (hbegin f h.1) h.2⟩

theorem unbroken_vectorFields {fs : List Bitfield} (h : ∀ f ∈ fs, f.Unbroken)
    (policy : Duplicates) : ∀ v ∈ Field.namedOnly (vectorFields fs policy), v.Unbroken := by
  intro v hv
  have hmem := Field.mem_of_mem_dropDuplicates hv
  rw [Field.namedOnly_map_named] at hmem
  refine unbroken_vectorsFrom (fun w hw => by cases hw) (fun f hf => ?_) v hmem
  exact h f (mem_sorted.mp hf)

end Bitfield

/-! ### Members of groups -/

theorem RegisterGroup.Unbroken.membersOf {g : RegisterGroup} (h : g.Unbroken) (mode : String) :
    ∀ r ∈ g.membersOf mode, r.Unbroken := by
  intro r hr
  obtain ⟨rs, hmem, hr⟩ := RegisterGroup.exists_mem_members hr
  exact h.members (mode, rs) hmem r hr

end ChipSupport
