import ChipSupport.Header.ConfigSettings
import ChipSupport.Header.Instances
import ChipSupport.Header.Pins
import ChipSupport.Header.VectorTable
import ChipSupport.License
import ChipSupport.Proofs.Conditional.Registers
import ChipSupport.Proofs.Interrupt.Slots
import ChipSupport.Proofs.Text.Wrap

/-!
# Conditional parts of device headers

What a header says of the device stands in parts for compilers or assemblers only where the two read
different definitions.

## Main results

* `Comment.plain_block` — the lines of comments are no directives.
* `ConfigSettings.nested_lines`, `VectorTable.nested_lines`, `Instances.nested_lines`,
  `Instances.nested_baseLines`, `Pins.nested_lines` — the blocks of a header.
-/

namespace ChipSupport

open Text Conditional

/-! ### Comments -/

/-- A text that is trimmed begins as before. -/
theorem Conditional.Begins.trimEnd {s : String} (h : Begins s) : Begins (Text.trimEnd s) := by
  obtain ⟨c, rest, hdrop, hc⟩ := h
  have hblank : isBlank c = false := by
    have hhead := List.head?_dropWhile_not isBlank s.toList
    rw [hdrop] at hhead
    simpa using hhead
  have hall : ∀ d ∈ s.toList.takeWhile isBlank, isBlank d = true :=
    fun d hd => List.mem_takeWhile_imp hd
  refine ⟨c, trimEndChars rest, ?_, hc⟩
  have hsplit : s.toList = s.toList.takeWhile isBlank ++ c :: rest := by
    rw [← hdrop, List.takeWhile_append_dropWhile]
  rw [Text.trimEnd, String.toList_ofList, hsplit, trimEndChars_append hblank,
    List.dropWhile_append_of_pos hall, List.dropWhile_cons_of_neg (by simp [hblank])]

namespace Comment

/-- Spaces in front do not change how a text begins. -/
theorem begins_indented (n : Nat) {s : String} (h : Begins s) :
    Begins (String.ofList (List.replicate n ' ') ++ s) :=
  begins_append_of_lacks (by simp) h

theorem plain_firstLine (n : Nat) {line : String} (h : Lacks '\n' line) :
    Plain (.text (firstLine (String.ofList (List.replicate n ' ')) line)) := by
  have hlead : Begins (String.ofList (List.replicate n ' ') ++ "/* ") :=
    begins_indented n (by decide)
  have hunbroken : Lacks '\n' (String.ofList (List.replicate n ' ') ++ "/* ") := by
    simp +decide
  unfold firstLine
  split
  · exact plain_text hunbroken hlead
  · exact plain_text (lacks_trimEnd (lacks_append.mpr ⟨hunbroken, h⟩)) (hlead.append line).trimEnd

theorem plain_laterLine (n : Nat) {line : String} (h : Lacks '\n' line) :
    Plain (.text (laterLine (String.ofList (List.replicate n ' ')) line)) := by
  unfold laterLine
  split
  · exact plain_text (by simp +decide) (begins_indented n (by decide))
  · exact plain_text (by simp +decide [h]) ((begins_indented n (by decide)).append line)

/-- **The lines of comments are no directives.** -/
theorem plain_block (text : String) (indent : Int) : ∀ l ∈ block text indent, Plain l := by
  have hlast : Plain (.text (String.ofList (List.replicate (margin indent) ' ') ++ " */")) :=
    plain_text (by simp +decide) (begins_indented _ (by decide))
  have hlines : ∀ line ∈ wrapText (room indent) (room_pos indent) text, Lacks '\n' line :=
    fun line hline => lacks_of_mem_wrapText hline
  rw [block, List.forall_mem_map, blockText, List.forall_mem_append, List.forall_mem_singleton]
  refine ⟨?_, hlast⟩
  split
  · rw [List.forall_mem_singleton]
    exact plain_text (by simp +decide) (begins_indented _ (by decide))
  · next line rest hwrap =>
    rw [hwrap, List.forall_mem_cons] at hlines
    rw [List.forall_mem_cons, List.forall_mem_map]
    exact ⟨plain_firstLine _ hlines.1, fun l hl => plain_laterLine _ (hlines.2 l hl)⟩

end Comment

theorem Line.nested_heading {title : String} (h : Lacks '\n' title) :
    Nested (Line.heading title) :=
  .cons (by decide) (.cons (plain_text (by simp +decide [h]) (.append (by decide) _))
    (.cons (by decide) .nil))

/-! ### Configuration registers -/

namespace ConfigSettings

theorem nested_fieldLines {r : ConfigRegister} (hr : Lacks '\n' r.name) {f : ConfigField}
    (hf : f.Unbroken) {ls : List Line} (h : fieldLines r f = .ok ls) : Nested ls := by
  obtain ⟨-, -, h⟩ := Steps.bind_eq_ok_iff.mp h
  cases h
  have hoptions : Nested (f.options.map (optionLine r f)) := by
    refine .map fun o ho => ?_
    obtain ⟨hname, hdesc⟩ := hf.options o ho
    simp +decide [Plain, optionLine, hr, hf.name, hname, hdesc]
  refine .cons (plain_text ?_ (by simp +decide [String.append_assoc]))
    (.cons ?_ (hoptions.append ?_))
  · simp +decide [hr, hf.name, hf.desc]
  · simp +decide [Plain, valueLine, hr, hf.name]
  · exact .cons Line.plain_blank .nil

theorem nested_registerLines {r : ConfigRegister} (hr : Lacks '\n' r.name) (mask : ConfigMask) :
    Nested (registerLines r mask) := by
  have hsection : Lacks '\n' ("." ++ r.sectionName) := by
    simp +decide [ConfigRegister.sectionName, hr]
  refine (Line.nested_heading hr).append fun parts => ?_
  refine .opening (by decide) (.plain ?_ (.plain ?_ (.otherwise (by decide) (by decide)
    (.plain ?_ (.closing (by decide) (by decide) (.plain ?_ (.plain ?_ (.plain Line.plain_blank
      (.nil _)))))))))
  all_goals simp +decide [Plain, hr, hsection]

/-- **The settings of configuration registers close what they open.** -/
theorem nested_lines {rs : List ConfigRegister} (hrs : ∀ r ∈ rs, r.Unbroken) {mask : ConfigMask}
    {ls : List Line} (h : lines rs mask = .ok ls) : Nested ls := by
  unfold lines at h
  split at h
  · rw [← Except.ok.inj h]
    exact .cons (plain_text (by decide) (by decide)) (.cons Line.plain_blank .nil)
  · obtain ⟨body, hbody, h⟩ := Steps.bind_eq_ok_iff.mp h
    have husage : Nested (Comment.block usage ++ [Line.blank]) :=
      .append (.of_plain (Comment.plain_block _ _)) (.cons Line.plain_blank .nil)
    rw [← Except.ok.inj h]
    refine husage.append (.flatten fun block hblock => ?_)
    obtain ⟨r, hr, hblock⟩ := Steps.exists_of_mem_mapM hbody hblock
    have hunbroken := hrs r hr
    obtain ⟨-, -, hblock⟩ := Steps.bind_eq_ok_iff.mp hblock
    obtain ⟨-, -, hblock⟩ := Steps.bind_eq_ok_iff.mp hblock
    obtain ⟨fields, hfields, hblock⟩ := Steps.bind_eq_ok_iff.mp hblock
    cases hblock
    refine (nested_registerLines hunbroken.name mask).append (.flatten fun part hpart => ?_)
    obtain ⟨f, hf, hpart⟩ := Steps.exists_of_mem_mapM hfields hpart
    obtain ⟨m, hm, hf⟩ := List.mem_flatMap.mp hf
    exact nested_fieldLines hunbroken.name (hunbroken.modes m hm f hf) hpart

end ConfigSettings

/-! ### Interrupts -/

namespace VectorTable

theorem plain_numberLine {v : Interrupt} (hv : v.Unbroken) : Plain (numberLine v) := by
  obtain ⟨⟨hname, hhash⟩, hcaption, howner⟩ := hv
  have howner' : Lacks '\n' (if v.owner.isEmpty then " */" else " (" ++ v.owner ++ ") */") :=
    lacks_ite (by decide) (by simp +decide [howner])
  -- a name may be blank, but then the line begins with what is behind it
  have hnumbered : Begins (padTo ("  " ++ v.name ++ "_IRQn") 32 ++ " = ") :=
    begins_append_of_lacks (by simp +decide [hhash]) (by decide)
  refine plain_text ?_ ((((((hnumbered.append _).append _).padTo 40).append _).append _).append _)
  rw [lacks_append]
  exact ⟨by simp +decide [hname, hcaption], howner'⟩

theorem plain_slotLine {slot : VectorSlot} (h : ∀ v, slot = .handler v → v.Unbroken) :
    Plain (slotLine slot) := by
  have hdeclaration (name : String) : Begins ("  void *" ++ name ++ ";") :=
    .append (.append (by decide) _) _
  cases slot with
  | reserved n =>
    have hname : Lacks '\n' (VectorSlot.reserved n).memberName :=
      lacks_ite (by simp +decide) (by simp +decide)
    exact plain_text (by simp +decide [hname]) (hdeclaration _)
  | handler v =>
    obtain ⟨⟨hname, -⟩, hcaption, -⟩ := h v rfl
    refine plain_text (by simp +decide [VectorSlot.memberName, hname, hcaption]) ?_
    exact ((((((hdeclaration _).padTo 44).append _).append _).append _).append _).append _

theorem handler_mem_vectorSlotsFrom {next : Int} {vs : List Interrupt} {v : Interrupt}
    (h : .handler v ∈ vectorSlotsFrom next vs) : v ∈ vs := by
  induction vs generalizing next with
  | nil => cases h
  | cons w vs ih =>
    rw [vectorSlotsFrom, List.mem_append] at h
    rcases h with h | h
    · -- the slots up to the next vector are reserved
      obtain ⟨n, -, h⟩ := List.mem_map.mp h
      cases h
    · rcases List.mem_cons.mp h with h | h
      · cases h
        exact List.mem_cons_self
      · exact List.mem_cons_of_mem _ (ih h)

theorem handler_mem_vectorSlots {vs : List Interrupt} {v : Interrupt}
    (h : .handler v ∈ vectorSlots vs) : v ∈ vs := by
  cases vs with
  | nil => cases h
  | cons w vs =>
    rcases List.mem_cons.mp h with h | h
    · cases h
      exact List.mem_cons_self
    · exact List.mem_cons_of_mem _ (handler_mem_vectorSlotsFrom h)

/-- **The interrupt definitions close what they open.** -/
theorem nested_lines {l : InterruptList} (hl : l.Unbroken) (style : Style) :
    Nested (lines l style) := by
  have hvectors : ∀ v ∈ l.sortedVectors, v.Unbroken := fun v hv =>
    hl.vectors v (l.perm_sortedVectors.mem_iff.mp hv)
  have hlast : Nested (if style.periphMaxIrq then
      [.text ("  PERIPH_MAX_IRQn                = " ++ Numeral.decimal l.lastVectorNumber ++ ",")]
      else []) := by
    split
    · exact .cons (plain_text (by simp +decide) (by simp +decide [String.append_assoc])) .nil
    · exact .nil
  have hnumbers : Nested (numberLines l style) := by
    have hfirst : Nested ([.text "typedef enum IRQn", .text "\x7b"] : List Line) :=
      .of_plain (by decide)
    have hcount : Plain (.text ("  PERIPH_COUNT_IRQn              = "
        ++ Numeral.decimal (l.lastVectorNumber + 1))) :=
      plain_text (by simp +decide) (by simp +decide)
    have hvectorLines : Nested (l.sortedVectors.map numberLine) :=
      .map fun v hv => plain_numberLine (hvectors v hv)
    exact (((hfirst.append hvectorLines).append (.cons Line.plain_blank .nil)).append hlast).append
      (.cons hcount (.of_plain (by decide)))
  have hslots : Nested (slotLines l) := by
    refine ((Nested.of_plain (by decide)).append (.map fun slot hslot => ?_)).append
      (.of_plain (by decide))
    refine plain_slotLine fun v hv => hvectors v (handler_mem_vectorSlots (hv ▸ hslot))
  have hhandlers : Nested (l.sortedVectors.map handlerLine) := by
    refine .map fun v hv => plain_text ?_ (by simp +decide [String.append_assoc])
    simp +decide [(hvectors v hv).name.unbroken]
  intro parts
  -- one part for compilers goes around the numbers, the slots and the handlers
  have hopen : Leads parts (Line.heading "Interrupt Vector Definitions" ++ [Line.compilerOnly])
      (false :: parts) :=
    (Line.nested_heading (by decide) parts).append (.opening (by decide) (.nil _))
  have hclose : Leads (false :: parts) [Line.blank, Line.endCompilerOnly, Line.blank] parts :=
    .plain Line.plain_blank (.closing (by decide) (by decide) (.plain Line.plain_blank (.nil _)))
  exact (((hopen.append (hnumbers _)).append (hslots _)).append (hhandlers _)).append hclose

end VectorTable

/-! ### Instances -/

namespace Instances

theorem nested_accessMacroLines : Nested accessMacroLines := by
  have hmacros : ∀ m ∈ accessMacros, Lacks '\n' m.1 ∧ Lacks '\n' m.2 := by decide
  have hvalues : Nested (accessMacros.map fun m => .define m.1 m.2) :=
    .map fun m hm => ⟨(hmacros m hm).1, (hmacros m hm).2, by decide⟩
  have hnumbers : Nested (accessMacros.map fun m => .define m.1 "(x)") :=
    .map fun m hm => ⟨(hmacros m hm).1, by decide, by decide⟩
  exact .cases (by decide) hvalues (by decide) (by decide) hnumbers (by decide) (by decide)
    (.cons Line.plain_blank .nil)

theorem lacks_accessType (r : Register) : Lacks '\n' r.accessType := by
  have hkind : Lacks '\n' r.accessKind := lacks_ite (by decide) (lacks_ite (by decide) (by decide))
  have hbits : Lacks '\n' (if r.size = 1 then "8" else if r.size = 2 then "16" else "") :=
    lacks_ite (by decide) (lacks_ite (by decide) (by decide))
  rw [Register.accessType, lacks_append, lacks_append]
  exact ⟨⟨hkind, by decide⟩, hbits⟩

theorem lacks_accessMacro (r : Register) : Lacks '\n' r.accessMacro := by
  have hkind : Lacks '\n' r.accessKind := lacks_ite (by decide) (lacks_ite (by decide) (by decide))
  have hbits : Lacks '\n' (if r.size = 1 then "8" else if r.size = 2 then "16" else "32") :=
    lacks_ite (by decide) (lacks_ite (by decide) (by decide))
  simp only [Register.accessMacro, lacks_append]
  exact ⟨⟨⟨⟨by decide, hkind⟩, by decide⟩, hbits⟩, by decide⟩

/-- The names of addresses are made of those of the registers reached. -/
theorem lacks_ofGroup {p : Peripheral} (hp : p.Unbroken) {inst : Instance}
    (hinst : Lacks '\n' inst.name) {convention : Convention} {depth : Nat} {group : RegisterGroup}
    (hgroup : group.Unbroken) {at_ : RegisterAddress.Place} (hat : Lacks '\n' at_.numbers)
    {found : List RegisterAddress}
    (h : RegisterAddress.ofGroup p inst convention depth group at_ = .ok found) :
    ∀ a ∈ found, Lacks '\n' a.name ∧ Lacks '\n' a.register.caption := by
  induction depth generalizing group at_ found with
  | zero =>
    rw [RegisterAddress.ofGroup] at h
    split at h
    · cases h
      exact List.forall_mem_nil _
    · cases h
  | succ depth ih =>
    rw [RegisterAddress.ofGroup] at h
    split at h
    · cases h
      exact List.forall_mem_nil _
    obtain ⟨perMode, hmodes, h⟩ := Steps.bind_eq_ok_iff.mp h
    cases h
    intro a ha
    -- the mode, the element of the group and the register that an address belongs to
    obtain ⟨inMode, hinMode, ha⟩ := List.mem_flatten.mp ha
    obtain ⟨mode, hmode, hinMode⟩ := Steps.exists_of_mem_mapM hmodes hinMode
    obtain ⟨perElement, helements, hinMode⟩ := Steps.bind_eq_ok_iff.mp hinMode
    cases hinMode
    obtain ⟨inElement, hinElement, ha⟩ := List.mem_flatten.mp ha
    obtain ⟨element, -, hinElement⟩ := Steps.exists_of_mem_mapM helements hinElement
    obtain ⟨perRegister, hregisters, hinElement⟩ := Steps.bind_eq_ok_iff.mp hinElement
    cases hinElement
    obtain ⟨ofRegister, hofRegister, ha⟩ := List.mem_flatten.mp ha
    obtain ⟨r, hr, hofRegister⟩ := Steps.exists_of_mem_mapM hregisters hofRegister
    have hr := hgroup.membersOf mode r hr
    have hnumbers : Lacks '\n' (at_.numbersAt element) :=
      lacks_ite (lacks_append.mpr ⟨hat, Numeral.lacks_decimal _⟩) hat
    -- a register stands for a nested group, which is followed one level deeper, or has its own
    -- addresses
    split at hofRegister
    · split at hofRegister
      · next sub hsub =>
        exact ih (hp.groups sub (List.mem_of_find?_eq_some hsub)) hnumbers hofRegister a ha
      · cases hofRegister
        cases ha
    · cases hofRegister
      obtain ⟨index, -, rfl⟩ := List.mem_map.mp ha
      have hmode := (hgroup.modes mode hmode).unbroken
      have hmodePart : Lacks '\n' (if Mode.isDefault mode then "" else mode ++ "_") :=
        lacks_ite (by decide) (by simp +decide [hmode])
      have hindex : Lacks '\n'
          (if 1 < r.count ∧ at_.elements = 1 then Numeral.decimal index else "") :=
        lacks_ite (Numeral.lacks_decimal _) (by decide)
      have hname := Convention.lacks_registerMacroName hr.name.unbroken hr.owner.unbroken convention
      refine ⟨?_, hr.caption⟩
      simp only [RegisterAddress.elementName, lacks_append]
      exact ⟨⟨⟨⟨⟨⟨by decide, hinst⟩, by decide⟩, hmodePart⟩, hname⟩, hnumbers⟩, hindex⟩

theorem nested_addressLines {p : Peripheral} (hp : p.Unbroken) {inst : Instance}
    (hinst : Lacks '\n' inst.name) (style : Style) {ls : List Line}
    (h : addressLines p inst style = .ok ls) : Nested ls := by
  unfold addressLines at h
  split at h
  · cases h
    exact .nil
  · next base hbase =>
    obtain ⟨addresses, haddresses, h⟩ := Steps.bind_eq_ok_iff.mp h
    have hnames := lacks_ofGroup hp hinst (hp.groups base (List.mem_of_find?_eq_some hbase))
      (by decide) haddresses
    cases h
    refine .cons (plain_text (by simp +decide [hinst]) (by simp +decide [String.append_assoc])) ?_
    split
    · have hplain : Nested (addresses.map plainLine) := by
        refine .map fun a ha => ?_
        obtain ⟨hname, hcaption⟩ := hnames a ha
        simp +decide [Plain, plainLine, hname, hcaption]
      have htyped : Nested (addresses.map typedLine) := by
        refine .map fun a ha => ?_
        obtain ⟨hname, hcaption⟩ := hnames a ha
        simp +decide [Plain, typedLine, hname, hcaption, lacks_accessType]
      exact .cases (by decide) hplain (by decide) (by decide) htyped (by decide) (by decide) .nil
    · refine .map fun a ha => ?_
      obtain ⟨hname, hcaption⟩ := hnames a ha
      simp +decide [Plain, wrappedLine, hname, hcaption, lacks_accessMacro]

theorem nested_parameterLines {inst : Instance} (hinst : inst.Unbroken) :
    Nested (parameterLines inst) := by
  refine .cons (plain_text ?_ (by simp +decide [String.append_assoc])) (.map fun v hv => ?_)
  · simp +decide [hinst.name]
  · obtain ⟨hname, hvalue, hcaption⟩ := hinst.parameters v hv
    simp +decide [Plain, hinst.name, hname, hvalue, hcaption]

variable {ps : List Peripheral} (hps : ∀ p ∈ ps, p.Unbroken)
include hps

/-- **The definitions of instances close what they open.** -/
theorem nested_lines {style : Style} {ls : List Line} (h : lines ps style = .ok ls) :
    Nested ls := by
  obtain ⟨body, hbody, h⟩ := Steps.bind_eq_ok_iff.mp h
  cases h
  refine .append ?_ (.flatten fun block hblock => ?_)
  · split
    · exact nested_accessMacroLines
    · exact .nil
  · obtain ⟨p, hp, hblock⟩ := Steps.exists_of_mem_mapM hbody hblock
    have hp := hps p (List.mem_filter.mp hp).1
    obtain ⟨instances, hinstances, hblock⟩ := Steps.bind_eq_ok_iff.mp hblock
    cases hblock
    refine .flatten fun part hpart => ?_
    obtain ⟨inst, hinst, hpart⟩ := Steps.exists_of_mem_mapM hinstances hpart
    have hinst := hp.instances inst hinst
    obtain ⟨addresses, haddresses, hpart⟩ := Steps.bind_eq_ok_iff.mp hpart
    cases hpart
    have hblank : Nested [Line.blank] := .cons Line.plain_blank .nil
    exact (((hblank.append (nested_addressLines hp hinst.name style haddresses)).append
      hblank).append (nested_parameterLines hinst)).append hblank

theorem unbroken_of_mem_external : ∀ i ∈ (external ps).flatMap Peripheral.usableInstances,
    i.Unbroken := by
  intro i hi
  obtain ⟨p, hp, hi⟩ := List.mem_flatMap.mp hi
  exact (hps p (List.mem_filter.mp hp).1).instances i hi

/-- The numbers of instances open nothing. -/
theorem nested_idLines (style : Style) : Nested (idLines ps style) := by
  refine (((Line.nested_heading (by decide)).append (.map fun i hi => ?_)).append ?_).append
    (.cons ?_ (.cons Line.plain_blank .nil))
  · have hi := unbroken_of_mem_external hps i (List.mem_filter.mp hi).1
    simp +decide [Plain, hi.name]
  · split
    · refine .cons ?_ .nil
      simp +decide [Plain]
    · exact .nil
  · simp +decide [Plain]

omit hps in
theorem nested_pointerLines {p : Peripheral} (hp : p.Unbroken) : Nested (pointerLines p) := by
  have htype : Lacks '\n' (capitalized p.name) := lacks_capitalized hp.name
  have hnames : Lacks '\n' (String.intercalate ", " (p.usableInstances.map Instance.name)) :=
    lacks_intercalate (by decide) (List.forall_mem_map.mpr fun i hi => (hp.instances i hi).name)
  unfold pointerLines
  split
  · exact .nil
  · refine .append (.map fun i hi => ?_) (.cons ?_ (.cons ?_ (.cons Line.plain_blank .nil)))
    · simp +decide [Plain, baseNote, htype, (hp.instances i hi).name]
    · simp +decide [Plain, hp.name]
    · simp +decide [Plain, hp.name, hnames]

/-- **The base addresses close what they open.** -/
theorem nested_baseLines (style : Style) : Nested (baseLines ps style) := by
  have hall := unbroken_of_mem_external hps
  refine (Line.nested_heading (by decide)).append ?_
  split
  · have hnumbers : Nested (((external ps).flatMap Peripheral.usableInstances).map fun i =>
        .define i.name ("(0x" ++ Numeral.hex i.baseAddress ++ ")") (baseNote i)) := by
      refine .map fun i hi => ?_
      simp +decide [Plain, baseNote, (hall i hi).name]
    have hpointers : Nested ((external ps).flatMap pointerLines) :=
      .flatMap fun p hp => nested_pointerLines (hps p (List.mem_filter.mp hp).1)
    exact .cases (by decide) hnumbers (by decide) (by decide) hpointers (by decide) (by decide)
      (.cons Line.plain_blank .nil)
  · have hregs : Nested ((external ps).flatMap fun p => p.usableInstances.map fun i =>
        .define (i.name ++ "_REGS")
          ("((" ++ Text.lower p.name ++ "_registers_t)0x" ++ Numeral.hex i.baseAddress ++ "UL)")
          (i.name ++ " Instance Register Address")) := by
      refine .flatMap fun p hp => .map fun i hi => ?_
      have hp := hps p (List.mem_filter.mp hp).1
      simp +decide [Plain, hp.name, (hp.instances i hi).name]
    have hnumbers : Nested (((external ps).flatMap Peripheral.usableInstances).map fun i =>
        .define (i.name ++ "_BASE_ADDRESS") ("_UL_(0x" ++ Numeral.hex i.baseAddress ++ ")")
          (baseNote i)) := by
      refine .map fun i hi => ?_
      simp +decide [Plain, baseNote, (hall i hi).name]
    intro parts
    have hopen : Leads parts [Line.compilerOnly] (false :: parts) := .opening (by decide) (.nil _)
    have hclose : Leads (false :: parts) [Line.endCompilerOnly, Line.blank] parts :=
      .closing (by decide) (by decide) (.plain Line.plain_blank (.nil _))
    exact (((hopen.append (hregs _)).append hclose).append (hnumbers _)).append
      (.plain Line.plain_blank (.nil _))

end Instances

/-! ### Port pins -/

namespace Pins

theorem nested_pinLines {name : String} (hname : Lacks '\n' name) (p : Pin) :
    Nested (pinLines name p) := by
  refine .cons ?_ (.cons ?_ .nil)
  · simp +decide [Plain, hname]
  · simp +decide [Plain, maskText, hname]

theorem nested_signalLines {inst : Instance} (hinst : Lacks '\n' inst.name) {s : Signal}
    (hs : s.Unbroken) : Nested (signalLines inst s) := by
  obtain ⟨hgroup, hindex, hfunction, hpad⟩ := hs
  unfold signalLines
  split
  · exact .nil
  · split
    · refine .of_plain ?_
      simp only [wiredLines, List.forall_mem_cons]
      refine ⟨?_, ?_, ?_, ?_, ?_, Line.plain_blank, List.forall_mem_nil _⟩
      all_goals simp +decide [Plain, maskText, hinst, hgroup, hindex, hfunction, hpad]
    · exact .nil

/-- The definitions of pins open nothing. -/
theorem nested_lines {names : List String} (hnames : ∀ name ∈ names, Lacks '\n' name)
    {ps : List Peripheral} (hps : ∀ p ∈ ps, p.Unbroken) {ls : List Line}
    (h : lines names ps = .ok ls) : Nested ls := by
  obtain ⟨pins, hpins, h⟩ := Steps.bind_eq_ok_iff.mp h
  obtain ⟨read, hread, hpins⟩ := Steps.bind_eq_ok_iff.mp hpins
  cases hpins
  cases h
  refine .append (.flatMap fun pin hpin => ?_) (.flatMap fun i hi => ?_)
  · rw [List.mem_mergeSort] at hpin
    obtain ⟨name, hname, hpin⟩ := Steps.exists_of_mem_mapM hread hpin
    obtain ⟨p, -, rfl⟩ := Steps.map_eq_ok_iff.mp hpin
    exact nested_pinLines (hnames name hname) p
  · obtain ⟨p, hp, hi⟩ := List.mem_flatMap.mp hi
    have hi := (hps p hp).instances i hi
    refine .cons Line.plain_blank (.cons (plain_text ?_ (by simp +decide [String.append_assoc]))
      (.flatMap fun s hs => nested_signalLines hi.name (hi.signals s hs)))
    simp +decide [hi.name]

end Pins

end ChipSupport
