import ChipSupport.Proofs.ArmHeader.Places
import ChipSupport.Proofs.ArmHeader.Plan

/-!
# Component headers that are written once

Several runs for the same output directory know of the same component headers.  Between two times
at which they are forgotten, no component header is written twice, and at any time, also after a
fault, those that are known are files.  They are in the output directory, unless the name or the
identification of a peripheral has steps up that lead out of it.

## Main definitions

* `ArmHeader.Request` — writing headers, and forgetting which component headers are written.
* `ArmHeader.trace` — the deeds that are done for requests, one after the other.
* `ArmHeader.Held` — a component header that is known and is a file.
* `ArmHeader.CacheSound` — what holds of the component headers that are known.

## Main results

* `ArmHeader.applyAll_trace` — the deeds of a trace are what the requests do.
* `ArmHeader.cacheSound_of_presets` — **the component headers that are known are written, once.**
* `ArmHeader.first_mem_components` — a component header that is known after a request.
-/

namespace ChipSupport

namespace ArmHeader

/-- A document of which headers are written, with the configuration registers of the device. -/
structure Job where
  /-- The document. -/
  doc : Document
  /-- The configuration registers. -/
  dcrs : List ConfigRegister := []

/-- What can be asked for. -/
inductive Request where
  /-- Writing the headers of a device. -/
  | generate (style : Style) (license : License) (job : Job)
  /-- Forgetting which component headers are written. -/
  | clear

/-! ### Requests and their deeds -/

variable (output : Path)

/-- What has been done after a request, also if it ends with a fault. -/
def Request.perform (g : Generation) : Request → Generation
  | generate style license job =>
    ((ArmHeader.generate ⟨output, style, license⟩ job.doc job.dcrs).perform g).2
  | clear => { g with components := [] }

/-- What has been done after several requests. -/
def performAll (rs : List Request) (g : Generation) : Generation :=
  rs.foldl (Request.perform output) g

/-- The deeds that are done for a request, up to a fault. -/
def Request.deeds (g : Generation) : Request → List Deed
  | generate style license job =>
    Deed.completed output (plan ⟨output, style, license⟩ job.doc job.dcrs g.components).deeds g
  | clear => [.forget]

/-- The deeds that are done for several requests. -/
def trace : List Request → Generation → List Deed
  | [], _ => []
  | r :: rs, g => r.deeds output g ++ trace rs (r.perform output g)

variable {output}

/-- Writing headers is carrying out the plan. -/
theorem perform_generate (s : Setting) (doc : Document) (dcrs : List ConfigRegister)
    (g : Generation) :
    (generate s doc dcrs).perform g = (plan s doc dcrs g.components).carryOut s.output g :=
  generate_follows doc dcrs g rfl

theorem Request.applyAll_deeds (r : Request) (g : Generation) :
    Deed.applyAll output (r.deeds output g) g = .ok (r.perform output g) := by
  cases r with
  | generate style license job =>
    rw [Request.perform, perform_generate, Plan.snd_carryOut]
    exact Deed.applyAll_completed _ g
  | clear => rfl

/-- **The deeds of a trace are what the requests do.** -/
theorem applyAll_trace (output : Path) (rs : List Request) (g : Generation) :
    Deed.applyAll output (trace output rs g) g = .ok (performAll output rs g) := by
  induction rs generalizing g with
  | nil => rfl
  | cons r rs ih => exact Deed.applyAll_append_eq_ok.mpr ⟨_, r.applyAll_deeds g, ih _⟩

/-! ### One request -/

theorem Request.orderly_deeds (r : Request) (g : Generation) :
    Deed.Orderly (r.deeds output g) := by
  cases r with
  | generate style license job => exact (orderly_plan _ _ _ _).completed g
  | clear => exact .forget .nil

/-- The paths of component headers up to a fault. -/
theorem paths_untilFault (s : Setting) (ps : List Peripheral) :
    (untilFault (ps.map (componentFile s))).map Prod.fst <+:
      ps.map fun p => p.headerPath s.style := by
  induction ps with
  | nil => exact List.prefix_refl _
  | cons p ps ih =>
    rw [List.map_cons, componentFile]
    cases ComponentHeader.lines p s.style s.license with
    | ok lines => exact (List.prefix_cons_inj _).mpr ih
    | error f => exact List.nil_prefix

/-- The component headers that are written for a request are pending ones. -/
theorem paths_deeds (output : Path) (style : Style) (license : License) (job : Job)
    (g : Generation) :
    (((Request.generate style license job).deeds output g).filterMap Deed.component?).map Prod.fst
      <+: (pending style g.components job.doc.external).map fun p => p.headerPath style := by
  have hcompleted : ((Request.generate style license job).deeds output g).filterMap
      Deed.component? <+: _ := (Deed.completed_prefix _ g).filterMap Deed.component?
  exact ((hcompleted.trans (components_plan _ _ _ _)).map Prod.fst).trans (paths_untilFault _ _)

/-- Component headers are known after a request if they were known before or are written for it. -/
theorem components_perform (output : Path) (style : Style) (license : License) (job : Job)
    (g : Generation) :
    ((Request.generate style license job).perform output g).components = g.components
      ++ (((Request.generate style license job).deeds output g).filterMap Deed.component?).map
        Prod.fst := by
  refine (Request.orderly_deeds _ g).components_applyAll (fun h => ?_)
    (Request.applyAll_deeds (.generate style license job) g)
  exact forget_notMem_plan _ _ _ _ ((Deed.completed_prefix _ g).subset h)

/-! ### Success -/

section Success

variable {s : Setting} {doc : Document} {dcrs : List ConfigRegister} {g g' : Generation}
  {path : Path}

/-- Writing headers succeeds if the plan has a result and all of its deeds can be done. -/
theorem perform_generate_eq_ok_iff :
    (generate s doc dcrs).perform g = (.ok path, g') ↔
      (plan s doc dcrs g.components).result = .ok path ∧
        Deed.applyAll s.output (plan s doc dcrs g.components).deeds g = .ok g' := by
  rw [perform_generate, Plan.carryOut_eq_ok_iff]

/-- After a success, all component headers of the device are known. -/
theorem mem_components_of_ok (h : (generate s doc dcrs).perform g = (.ok path, g')) {p : Peripheral}
    (hp : p ∈ doc.external) : p.headerPath s.style ∈ g'.components := by
  obtain ⟨hresult, hall⟩ := perform_generate_eq_ok_iff.mp h
  rw [(orderly_plan _ _ _ _).components_applyAll (forget_notMem_plan _ _ _ _) hall,
    components_plan_of_ok hresult, List.mem_append]
  refine (mem_known_or_pending hp).imp_right ?_
  rintro ⟨q, hq, hpath⟩
  obtain ⟨d, ps, opening, -, hlines, -⟩ := plan_result_eq_ok.mp hresult
  obtain ⟨lines, hlines⟩ := hlines q hq
  refine List.mem_map.mpr ⟨(q.headerPath s.style, lines), List.mem_filterMap.mpr ⟨q, hq, ?_⟩, hpath⟩
  rw [componentFile, hlines]
  rfl

/-- After a success, the main header is there and includes the component headers. -/
theorem exists_text?_mainHeader (h : (generate s doc dcrs).perform g = (.ok path, g')) :
    ∃ front back, g'.files.text? path.location = some (Line.fileText (front
      ++ MainHeader.includeLines "Device-specific Peripheral Definitions"
        (doc.external.map fun p => p.headerPath s.style) ++ back)) := by
  obtain ⟨hresult, hall⟩ := perform_generate_eq_ok_iff.mp h
  obtain ⟨d, ps, opening, hopened, hlines, hown⟩ := plan_result_eq_ok.mp hresult
  obtain ⟨-, ds, back, hdeeds⟩ := exists_deeds_ownPlan hown
  rw [hopened.deeds_plan dcrs hlines, hdeeds, ← List.append_assoc, ← List.append_assoc] at hall
  obtain ⟨g₁, -, hlast⟩ := Deed.applyAll_append_eq_ok.mp hall
  obtain ⟨g₂, hwrite, hend⟩ := Deed.applyAll_cons_eq_ok.mp hlast
  cases hend
  exact ⟨opening, back, (Files.written_of_write (Deed.files_apply hwrite)).text?_self⟩

end Success

/-! ### Several requests -/

theorem orderly_trace (rs : List Request) (g : Generation) : Deed.Orderly (trace output rs g) := by
  induction rs generalizing g with
  | nil => exact .nil
  | cons r rs ih => exact (r.orderly_deeds g).append (ih _)

/-- Without forgetting in between, what is written is new each time. -/
theorem nodup_trace (output : Path) {rs : List Request} (hclear : Request.clear ∉ rs)
    (g : Generation) :
    (((trace output rs g).filterMap Deed.component?).map Prod.fst).Nodup ∧
      ∀ path ∈ ((trace output rs g).filterMap Deed.component?).map Prod.fst,
        path ∉ g.components := by
  induction rs generalizing g with
  | nil => exact ⟨List.nodup_nil, fun _ h => absurd h List.not_mem_nil⟩
  | cons r rs ih =>
    rw [List.mem_cons, not_or] at hclear
    cases r with
    | clear => exact absurd rfl hclear.1
    | generate style license job =>
      have hfirst := paths_deeds output style license job g
      have hcomponents := components_perform output style license job g
      obtain ⟨hnodup, hnew⟩ := ih hclear.2 ((Request.generate style license job).perform output g)
      rw [hcomponents] at hnew
      rw [trace, List.filterMap_append, List.map_append]
      refine ⟨List.nodup_append'.mpr ⟨?_, hnodup, fun path hpath hlater => ?_⟩, ?_⟩
      · exact (nodup_pending _ _).sublist hfirst.sublist
      · exact hnew path hlater (List.mem_append_right _ hpath)
      · intro path hpath
        rcases List.mem_append.mp hpath with hpath | hpath
        · obtain ⟨p, hp, rfl⟩ := List.mem_map.mp (hfirst.subset hpath)
          exact notMem_of_mem_pending hp
        · exact fun h => hnew path hpath (List.mem_append_left _ h)

/-- The deeds of a trace are those of plans, apart from forgetting. -/
theorem exists_plan_of_mem_trace {rs : List Request} {g : Generation} {d : Deed}
    (h : d ∈ trace output rs g) (hforget : d ≠ .forget) :
    ∃ style license job known, Request.generate style license job ∈ rs ∧
      d ∈ (plan ⟨output, style, license⟩ job.doc job.dcrs known).deeds := by
  induction rs generalizing g with
  | nil => cases h
  | cons r rs ih =>
    rcases List.mem_append.mp h with h | h
    · cases r with
      | clear => exact absurd (List.mem_singleton.mp h) hforget
      | generate style license job =>
        exact ⟨style, license, job, g.components, List.mem_cons_self,
          (Deed.completed_prefix _ g).subset h⟩
    · obtain ⟨style, license, job, known, hmem, hd⟩ := ih h
      exact ⟨style, license, job, known, List.mem_cons_of_mem _ hmem, hd⟩

/-- The component headers of a trace are those of peripherals. -/
theorem exists_of_mem_components_trace {rs : List Request} {g : Generation}
    {file : String × List Line} (h : file ∈ (trace output rs g).filterMap Deed.component?) :
    ∃ style license job, Request.generate style license job ∈ rs ∧
      ∃ p ∈ job.doc.external, componentFile ⟨output, style, license⟩ p = .ok file := by
  obtain ⟨d, hd, hfile⟩ := List.mem_filterMap.mp h
  obtain ⟨style, license, job, known, hmem, hplan⟩ :=
    exists_plan_of_mem_trace hd (by rintro rfl; cases hfile)
  exact ⟨style, license, job, hmem,
    exists_of_mem_components_plan (List.mem_filterMap.mpr ⟨d, hplan, hfile⟩)⟩

/-- Component headers are known at the end if they were known before or are written, unless they are
forgotten in between. -/
theorem components_performAll (output : Path) {rs : List Request} (hclear : Request.clear ∉ rs)
    (g : Generation) :
    (performAll output rs g).components
      = g.components ++ ((trace output rs g).filterMap Deed.component?).map Prod.fst := by
  induction rs generalizing g with
  | nil => exact (List.append_nil _).symm
  | cons r rs ih =>
    rw [List.mem_cons, not_or] at hclear
    cases r with
    | clear => exact absurd rfl hclear.1
    | generate style license job =>
      have hrest := ih hclear.2 ((Request.generate style license job).perform output g)
      rw [components_perform, List.append_assoc, ← List.map_append, ← List.filterMap_append]
        at hrest
      exact hrest

/-! ### Known component headers -/

/-- A known component header is a file, and its path goes on from the one of the output
directory. -/
structure Held (output : Path) (path : String) (files : Files) : Prop where
  file : files.isFile (output.child path).location = true
  below : output.child path = below output (Path.ofString path).parts

/-- What holds of the component headers that are known, while requests are fulfilled for an output
directory and nothing else writes to it.

* `deeds` — the deeds of the trace are what the requests do.
* `points` — after any number of deeds, every known component header is a file.
* `included` — after a success, the main header includes component headers that are known and are
  files.
* `once` — between two times of forgetting, no component header is written twice. -/
structure CacheSound (output : Path) (rs : List Request) (files : Files) : Prop where
  deeds : Deed.applyAll output (trace output rs { files }) { files }
    = .ok (performAll output rs { files })
  points : ∀ n, ∃ g, Deed.applyAll output ((trace output rs { files }).take n) { files } = .ok g ∧
    ∀ path ∈ g.components, Held output path g.files
  included : ∀ before style license job later path g,
    rs = before ++ .generate style license job :: later →
    (generate ⟨output, style, license⟩ job.doc job.dcrs).perform
      (performAll output before { files }) = (.ok path, g) →
    (∃ front back, g.files.text? path.location = some (Line.fileText (front
      ++ MainHeader.includeLines "Device-specific Peripheral Definitions"
        (job.doc.external.map fun p => p.headerPath style) ++ back))) ∧
    ∀ p ∈ job.doc.external,
      p.headerPath style ∈ g.components ∧ Held output (p.headerPath style) g.files
  once : ∀ before stretch later, rs = before ++ stretch ++ later → Request.clear ∉ stretch →
    (((trace output stretch (performAll output before { files })).filterMap
      Deed.component?).map Prod.fst).Nodup

/-- After each deed of a trace, the component headers that are known are files. -/
theorem held_of_isPrefix {rs : List Request} {files : Files}
    (hstyle : ∀ style license job, Request.generate style license job ∈ rs →
      style ∈ Style.presets)
    {done : List Deed} (hdone : done <+: trace output rs { files }) {g : Generation}
    (hall : Deed.applyAll output done { files } = .ok g) {path : String}
    (hpath : path ∈ g.components) : Held output path g.files := by
  have hpresent : g.Present output :=
    (orderly_trace rs _).present_of_isPrefix hdone (fun _ h => absurd h List.not_mem_nil) hall
  have hremember : Deed.remember path ∈ trace output rs { files } :=
    hdone.subset ((Deed.mem_components_applyAll hall hpath).resolve_left List.not_mem_nil)
  obtain ⟨file, hfile, rfl⟩ :=
    List.mem_map.mp ((orderly_trace rs _).mem_components_of_remember hremember)
  obtain ⟨style, license, job, hmem, p, -, hp⟩ := exists_of_mem_components_trace hfile
  have hbelow := child_headerPath (hstyle style license job hmem) output p
  rw [(componentFile_eq_ok_iff.mp hp).1] at hbelow
  exact ⟨hpresent _ hpath, hbelow⟩

/-- **Known component headers are written, and each one once.**  At every point of a run in preset
styles, also after a fault, the component headers that are known are files; what a main header
includes is known and is there; and no component header is written twice between two times of
forgetting.  A known component header is in the output directory, unless its path has more steps up
than down at some point. -/
theorem cacheSound_of_presets (output : Path) (rs : List Request) (files : Files)
    (hstyle : ∀ style license job, Request.generate style license job ∈ rs →
      style ∈ Style.presets) :
    CacheSound output rs files ∧
    ∀ n g, Deed.applyAll output ((trace output rs { files }).take n) { files } = .ok g →
      ∀ path ∈ g.components, Path.StaysBelow (Path.ofString path).parts →
        output.location <+: (output.child path).location := by
  have hheld : ∀ n g, Deed.applyAll output ((trace output rs { files }).take n) { files } = .ok g →
      ∀ path ∈ g.components, Held output path g.files := fun n g hg path hpath =>
    held_of_isPrefix hstyle (List.take_prefix n _) hg hpath
  refine ⟨⟨applyAll_trace output rs _, fun n => ?_, ?_, ?_⟩, fun n g hg path hpath hsteps => ?_⟩
  · have hall := applyAll_trace output rs { files }
    rw [← List.take_append_drop n (trace output rs { files })] at hall
    obtain ⟨g, hg, -⟩ := Deed.applyAll_append_eq_ok.mp hall
    exact ⟨g, hg, hheld n g hg⟩
  · intro before style license job later path g hrs h
    have hg : performAll output (before ++ [.generate style license job]) { files } = g := by
      rw [performAll, List.foldl_append]
      exact congrArg Prod.snd h
    -- the requests up to this one have a trace of their own
    have hall := applyAll_trace output (before ++ [.generate style license job]) { files }
    rw [hg] at hall
    have hpresets : ∀ style' license' job',
        Request.generate style' license' job' ∈ before ++ [.generate style license job] →
        style' ∈ Style.presets := by
      intro style' license' job' hmem
      refine hstyle style' license' job' ?_
      rw [hrs, List.append_cons]
      exact List.mem_append_left _ hmem
    have hmain := exists_text?_mainHeader h
    refine ⟨hmain, fun p hp => ?_⟩
    have hknown := mem_components_of_ok h hp
    exact ⟨hknown, held_of_isPrefix hpresets (List.prefix_refl _) hall hknown⟩
  · intro before stretch later _ hclear
    exact (nodup_trace output hclear _).1
  · rw [(hheld n g hg path hpath).below]
    exact prefix_location_below (Path.root_notMem_ofString path) hsteps

/-- A document of a device with a timer, whose module may have another name. -/
def timerDocument (device version : String) (module : String := "TC") : Document :=
  { source := ""
    deviceNode := .table [(.text "@name", .text device), (.text "@architecture", .text "CORTEX-M0"),
      (.text "peripherals", .table [(.text "module", .table [(.text "@name", .text module),
        (.text "@id", .text "U2249"), (.text "@version", .text version),
        (.text "instance", .table [(.text "@name", .text "TC"),
          (.text "register-group", .table [(.text "@name", .text "TC"),
            (.text "@offset", .text "64")]),
          (.text "signals", .null), (.text "parameters", .null)])])]),
      (.text "property-groups", .table []), (.text "address-spaces", .table []),
      (.text "parameters", .null), (.text "interrupts", .null), (.text "events", .null)]
    modulesNode := .table [(.text "module", .table [(.text "@name", .text module)])] }

/-- A licence block without text. -/
def timerLicense : License :=
  { header := "", generator := "", generatedBy := "", today := ⟨2024, 1, 1⟩ }

/-- The headers of timers. -/
def timerSetting : Setting := ⟨.ofString "out", .atmel, timerLicense⟩

/-- The device with a timer. -/
def timerDevice (device : String) : Device := { name := device, architecture := "CORTEX-M0" }

/-- A timer, whose module may have another name. -/
def timer (version : String) (module : String := "TC") : Peripheral :=
  { name := module, moduleId := "U2249", version, caption := "", groups := []
    instances := some [{ name := "TC", baseAddress := 64, instanceId := -1 }] }

/-- Headers of timers in two styles, with forgetting in between. -/
def timerRequests : List Request :=
  [.generate .atmel timerLicense { doc := timerDocument "DEVA" "1" }, .clear,
    .generate .legacy timerLicense { doc := timerDocument "DEVB" "2" }]

theorem cacheSound_timers :
    (∀ style license job, Request.generate style license job ∈ timerRequests →
      style ∈ Style.presets) ∧ CacheSound (.ofString "out") timerRequests {} ∧
    ∀ n g, Deed.applyAll (.ofString "out") ((trace (.ofString "out") timerRequests {}).take n) {}
        = .ok g →
      "component/tc_u2249.h" ∈ g.components →
      (Path.ofString "out").location
        <+: ((Path.ofString "out").child "component/tc_u2249.h").location := by
  have hstyle : ∀ style license job, Request.generate style license job ∈ timerRequests →
      style ∈ Style.presets := by
    intro style license job hmem
    simp only [timerRequests, List.mem_cons, List.not_mem_nil, or_false, reduceCtorEq,
      Request.generate.injEq, false_or] at hmem
    rcases hmem with ⟨rfl, -⟩ | ⟨rfl, -⟩ <;> simp [Style.presets]
  obtain ⟨hsound, hinside⟩ := cacheSound_of_presets (.ofString "out") timerRequests {} hstyle
  exact ⟨hstyle, hsound, fun n g hg hknown =>
    hinside n g hg _ hknown (Path.staysBelow_of_notMem (by decide +kernel))⟩

/-! ### A name that leads up -/

theorem exists_of_isOk {α : Type} {x : Except Fault α} (h : x.isOk = true) : ∃ a, x = .ok a := by
  cases x with
  | ok a => exact ⟨a, rfl⟩
  | error f => cases h

/-- The first component header of a document is known after a request if it can be made and
written. -/
theorem first_mem_components {s : Setting} {job : Job} {g : Generation} {d : Device}
    {ps rest : List Peripheral} {opening lines : List Line} {p : Peripheral} {files : Files}
    (hopened : Opened s job.doc d ps opening) (hexternal : job.doc.external = p :: rest)
    (hnew : p.headerPath s.style ∉ g.components)
    (hlines : ComponentHeader.lines p s.style s.license = .ok lines)
    (hwrite : g.files.write (s.output.child (p.headerPath s.style)) (Line.fileText lines)
      = .ok files) :
    p.headerPath s.style ∈
      ((Request.generate s.style s.license job).perform s.output g).components := by
  obtain ⟨later, hlater⟩ := Plan.exists_deeds_bind (componentsPlan s g.components (p :: rest))
    (ownPlan s job.doc job.dcrs d ps opening)
  have hdeeds : (plan s job.doc job.dcrs g.components).deeds = openingDeeds s job.doc d
      ++ ((componentsPlan s g.components (p :: rest)).deeds ++ later) := by
    rw [hopened.plan_eq, Plan.mk_bind, hexternal, ← hlater]
  rw [componentsPlan_cons_of_notMem hnew, hlines, openingDeeds] at hdeeds
  -- the notes that come before the header leave the files as they are
  obtain ⟨g', hg', -⟩ := Generation.exists_write (g :=
    { g with notes := (g.notes ++ (Document.Cache.peripherals job.doc []).2.2)
        ++ [note d s.style] }) hwrite
  have hdone : Deed.writeComponent (p.headerPath s.style) lines
      ∈ (Request.generate s.style s.license job).deeds s.output g := by
    change _ ∈ Deed.completed s.output (plan s job.doc job.dcrs g.components).deeds g
    rw [hdeeds]
    simp only [List.cons_append, List.nil_append, Deed.completed, Deed.apply, hg', List.mem_cons,
      true_or, or_true]
  rw [components_perform]
  refine List.mem_append_right _ (List.mem_map.mpr ⟨(p.headerPath s.style, lines), ?_, rfl⟩)
  exact List.mem_filterMap.mpr ⟨_, hdone, rfl⟩

/-- The request of the headers of a device with a timer whose name leads up twice. -/
def climbingRequest : Request :=
  .generate .atmel timerLicense { doc := timerDocument "DEVA" "1" "../../TC" }

theorem isOk_climbing :
    (MainHeader.opening (timerDevice "DEVA") (timerDocument "DEVA" "1" "../../TC").interrupts
      timerSetting.style timerSetting.license).isOk = true ∧
    (ComponentHeader.lines (timer "1" "../../TC") timerSetting.style
      timerSetting.license).isOk = true := by
  decide +kernel

theorem child_climbing :
    (Path.ofString "out").child ((timer "1" "../../TC").headerPath timerSetting.style)
      = ⟨.here, ["out", "component", "..", "..", "tc_u2249.h"]⟩ := by decide +kernel

theorem write_climbing (text : String) :
    ({} : Files).write ⟨.here, ["out", "component", "..", "..", "tc_u2249.h"]⟩ text
      = .ok ⟨[(["tc_u2249.h"], text)], [["out"], ["out", "component"]]⟩ := by cbv

/-- The component header of a peripheral whose name leads up is known, and it is not in the output
directory. -/
theorem climbing_outside :
    ∃ path ∈ (performAll (.ofString "out") [climbingRequest] {}).components,
      ¬ (Path.ofString "out").location <+: ((Path.ofString "out").child path).location := by
  obtain ⟨hopening, hlines⟩ := isOk_climbing
  obtain ⟨opening, hopening⟩ := exists_of_isOk hopening
  obtain ⟨lines, hlines⟩ := exists_of_isOk hlines
  have hwrite := write_climbing (Line.fileText lines)
  rw [← child_climbing] at hwrite
  refine ⟨(timer "1" "../../TC").headerPath timerSetting.style, ?_, ?_⟩
  · exact first_mem_components (s := timerSetting) (g := {}) ⟨rfl, rfl, hopening⟩ rfl
      List.not_mem_nil hlines hwrite
  · rw [child_climbing]
    decide +kernel

end ArmHeader

end ChipSupport
