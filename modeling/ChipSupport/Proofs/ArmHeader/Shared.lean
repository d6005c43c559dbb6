import ChipSupport.Proofs.ArmHeader.Cache

/-!
# Component headers that devices share

A component header is written for the first peripheral that needs a header at its path.  Other
peripherals that need one at the same path get the same header, which is the right one for them only
if it has the text that their own header would have.

## Main definitions

* `ArmHeader.SharedRight` — every component header that is included is the one of its peripheral.
* `ArmHeader.FirstAgrees` — the first header at a path has the text of the other ones.
* `ArmHeader.PlacesApart` — different headers are at different places.

## Main results

* `ArmHeader.exists_first` — what is at the place of a component header after a success.
* `ArmHeader.sharedRight_iff_firstAgrees` — **when shared component headers are right.**
-/

namespace ChipSupport

namespace ArmHeader

/-! ### Runs in one style -/

/-- The requests of the headers of several devices. -/
def requests (s : Setting) (jobs : List Job) : List Request :=
  jobs.map (.generate s.style s.license)

/-- The peripherals of several devices that have component headers. -/
def externals (jobs : List Job) : List Peripheral := jobs.flatMap fun job => job.doc.external

/-- The component headers that are written for several devices. -/
def written (s : Setting) (jobs : List Job) (files : Files) : List (String × List Line) :=
  (trace s.output (requests s jobs) { files }).filterMap Deed.component?

/-- What a success in a run means for the peripherals of its device. -/
def AfterSuccess (s : Setting) (jobs : List Job) (files : Files)
    (P : List Job → Peripheral → Files → Prop) : Prop :=
  ∀ before job later path g, jobs = before ++ job :: later →
    (generate s job.doc job.dcrs).perform (performAll s.output (requests s before) { files })
      = (.ok path, g) →
    ∀ p ∈ job.doc.external, P (before ++ [job]) p g.files

/-- After each success, the component header of a peripheral is the one that is made for it. -/
def SharedRight (s : Setting) (jobs : List Job) (files : Files) : Prop :=
  AfterSuccess s jobs files fun _ p files' =>
    ∃ lines, ComponentHeader.lines p s.style s.license = .ok lines ∧
      files'.text? (s.output.child (p.headerPath s.style)).location = some (Line.fileText lines)

/-- At each success, the component header that is written at the path of a peripheral has the text
of the one that is made for it. -/
def FirstAgrees (s : Setting) (jobs : List Job) (files : Files) : Prop :=
  AfterSuccess s jobs files fun jobs' p _ =>
    ∀ first, (p.headerPath s.style, first) ∈ written s jobs' files →
      ∃ lines, ComponentHeader.lines p s.style s.license = .ok lines ∧
        Line.fileText lines = Line.fileText first

/-- Documents of which the component headers at the same path have the same text. -/
def SameTexts (s : Setting) (jobs : List Job) : Prop :=
  ∀ p ∈ externals jobs, ∀ q ∈ externals jobs, p.headerPath s.style = q.headerPath s.style →
    (ComponentHeader.lines p s.style s.license).map Line.fileText
      = (ComponentHeader.lines q s.style s.license).map Line.fileText

/-- Documents of which the component headers with different paths are at different places, and none
is at the place of a header that belongs to a device alone. -/
structure PlacesApart (s : Setting) (jobs : List Job) : Prop where
  components : ∀ p ∈ externals jobs, ∀ q ∈ externals jobs,
    (s.output.child (p.headerPath s.style)).location
      = (s.output.child (q.headerPath s.style)).location →
    p.headerPath s.style = q.headerPath s.style
  own : ∀ p ∈ externals jobs, ∀ job ∈ jobs, ∀ d, job.doc.device = .ok d → ∀ path ∈ ownPaths s d,
    path.location ≠ (s.output.child (p.headerPath s.style)).location

variable {s : Setting} {jobs : List Job} {files : Files}

theorem clear_notMem_requests (s : Setting) (jobs : List Job) :
    Request.clear ∉ requests s jobs := by
  intro h
  obtain ⟨job, -, hjob⟩ := List.mem_map.mp h
  cases hjob

theorem PlacesApart.of_append {later : List Job} (h : PlacesApart s (jobs ++ later)) :
    PlacesApart s jobs := by
  have hsub : ∀ p ∈ externals jobs, p ∈ externals (jobs ++ later) := by
    intro p hp
    rw [externals, List.flatMap_append]
    exact List.mem_append_left _ hp
  exact ⟨fun p hp q hq => h.components p (hsub p hp) q (hsub q hq),
    fun p hp job hjob => h.own p (hsub p hp) job (List.mem_append_left _ hjob)⟩

/-- A run in one style writes component headers of peripherals. -/
theorem exists_of_mem_written {file : String × List Line} (h : file ∈ written s jobs files) :
    ∃ p ∈ externals jobs, p.headerPath s.style = file.1 ∧
      ComponentHeader.lines p s.style s.license = .ok file.2 := by
  obtain ⟨style, license, job, hmem, p, hp, hfile⟩ := exists_of_mem_components_trace h
  obtain ⟨job', hjob, heq⟩ := List.mem_map.mp hmem
  cases heq
  exact ⟨p, List.mem_flatMap.mpr ⟨job, hjob, hp⟩, componentFile_eq_ok_iff.mp hfile⟩

/-- A run in one style writes at most one component header at a path. -/
theorem written_unique {path : String} {first second : List Line}
    (h₁ : (path, first) ∈ written s jobs files) (h₂ : (path, second) ∈ written s jobs files) :
    first = second := by
  have hnodup := (nodup_trace s.output (clear_notMem_requests s jobs) { files }).1
  exact congrArg Prod.snd (List.inj_on_of_nodup_map hnodup h₁ h₂ rfl)

/-- **After a success, the component header at the path of a peripheral is the first one that was
needed there.** -/
theorem exists_first (hapart : PlacesApart s jobs) {g : Generation}
    (hg : performAll s.output (requests s jobs) { files } = g) {p : Peripheral}
    (hp : p ∈ externals jobs) (hknown : p.headerPath s.style ∈ g.components) :
    ∃ first, (p.headerPath s.style, first) ∈ written s jobs files ∧
      g.files.text? (s.output.child (p.headerPath s.style)).location
        = some (Line.fileText first) := by
  have hcomponents := components_performAll s.output (clear_notMem_requests s jobs)
    { files }
  rw [hg] at hcomponents
  rw [hcomponents] at hknown
  obtain ⟨⟨path, first⟩, hfirst, hpath⟩ := List.mem_map.mp hknown
  change path = _ at hpath
  subst hpath
  refine ⟨first, hfirst, ?_⟩
  have hall := applyAll_trace s.output (requests s jobs) { files }
  rw [hg] at hall
  refine Files.text?_writeAll_of_forall_eq (Deed.exists_applyAll_iff.mp ⟨g, hall, rfl⟩)
    ⟨_, Deed.mem_writes_of_mem_components hfirst, rfl⟩ fun w hw hplace => ?_
  rcases Deed.mem_writes hw with ⟨⟨path, lines⟩, hfile, rfl⟩ | ⟨lines, hwrite⟩
  · -- another component header at the same place has the same path
    obtain ⟨q, hq, hpath, -⟩ := exists_of_mem_written hfile
    change q.headerPath s.style = path at hpath
    subst hpath
    rw [hapart.components q hq p hp hplace] at hfile
    rw [written_unique hfile hfirst]
  · -- the headers of a device alone are somewhere else
    obtain ⟨style, license, job, known, hmem, hplan⟩ :=
      exists_plan_of_mem_trace hwrite (by rintro ⟨⟩)
    obtain ⟨job', hjob, heq⟩ := List.mem_map.mp hmem
    cases heq
    obtain ⟨d, hd, hown⟩ := exists_of_write_mem_plan hplan
    exact absurd hplace (hapart.own p hp job hjob d hd _ hown)

/-- What is at a path first agrees if all headers for the path have the same text. -/
theorem firstAgrees_of_sameTexts (files : Files) (htexts : SameTexts s jobs) :
    FirstAgrees s jobs files := by
  intro before job later path g hjobs _ p hp first hfirst
  obtain ⟨q, hq, hpath, hlines⟩ := exists_of_mem_written hfirst
  have hsub : ∀ r ∈ externals (before ++ [job]), r ∈ externals jobs := by
    intro r hr
    rw [hjobs, List.append_cons, externals, List.flatMap_append]
    exact List.mem_append_left _ hr
  have htext := htexts q (hsub q hq) p
    (hsub p (List.mem_flatMap.mpr ⟨job, List.mem_append_right _ (List.mem_singleton_self _), hp⟩))
    hpath
  rw [hlines] at htext
  exact Steps.map_eq_ok_iff.mp htext.symm

/-- Headers of documents with plain names do not get in each other's way. -/
theorem placesApart_of_plainNames (hstyle : s.style ∈ Style.presets)
    (hplain : ∀ job ∈ jobs, PlainNames job.doc) : PlacesApart s jobs := by
  have hlocation : ∀ p ∈ externals jobs, (s.output.child (p.headerPath s.style)).location
      = s.output.location ++ ["component", Text.lower p.componentName ++ ".h"] := by
    intro p hp
    obtain ⟨job, hjob, hp⟩ := List.mem_flatMap.mp hp
    exact location_child_headerPath hstyle (hplain job hjob) hp
  refine ⟨fun p hp q hq hplace => ?_, fun p hp job hjob d hd path hpath => ?_⟩
  · rw [hlocation p hp, hlocation q hq, List.append_cancel_left_eq] at hplace
    have hname : Text.lower p.componentName ++ ".h" = Text.lower q.componentName ++ ".h" :=
      (List.cons.inj (List.cons.inj hplace).2).1
    rw [Peripheral.headerPath, Peripheral.headerPath, String.append_assoc, hname,
      ← String.append_assoc]
  · have hmem := List.mem_map_of_mem (f := Path.location) hpath
    rw [location_ownPaths hstyle ((hplain job hjob).device d hd)] at hmem
    rw [hlocation p hp]
    intro heq
    rw [heq] at hmem
    simp at hmem

/-! ### Two devices with a timer -/

/-- The job of the headers of a device with a timer. -/
def timerJob (device version : String) : Job := { doc := timerDocument device version }

theorem external_timerDocument (device version : String) :
    (timerDocument device version).external = [timer version] := rfl

theorem headerPath_timer (version : String) :
    (timer version).headerPath timerSetting.style = "component/tc_u2249.h" := by
  change (timer "").headerPath timerSetting.style = _
  decide +kernel

theorem plainNames_timerDocument (version : String) :
    PlainNames (timerDocument "DEVA" version) ∧ PlainNames (timerDocument "DEVB" version) := by
  have hperipheral : ∀ device, ∀ p ∈ (timerDocument device version).external,
      '/' ∉ p.name.toList ∧ '/' ∉ p.moduleId.toList := by
    intro device p hp
    rw [external_timerDocument, List.mem_singleton] at hp
    subst hp
    exact ⟨show '/' ∉ "TC".toList by decide, show '/' ∉ "U2249".toList by decide⟩
  have hdevice : ∀ device d, (timerDocument device version).device = .ok d → d.name = device := by
    rintro device d hd
    rw [← Except.ok.inj (show Except.ok (timerDevice device) = .ok d from hd)]
    rfl
  exact ⟨⟨fun d hd => by rw [hdevice _ d hd]; decide, hperipheral _⟩,
    ⟨fun d hd => by rw [hdevice _ d hd]; decide, hperipheral _⟩⟩

/-- The headers of the devices with a timer can be made. -/
theorem isOk_timer : ∀ device ∈ ["DEVA", "DEVB"], ∀ version ∈ ["1", "2"],
    (MainHeader.opening (timerDevice device) (timerDocument device version).interrupts
      timerSetting.style timerSetting.license).isOk = true ∧
    (ComponentHeader.lines (timer version) timerSetting.style timerSetting.license).isOk = true ∧
    (InstanceHeader.lines (timerDevice device) [timer version] timerSetting.style
      timerSetting.license).isOk = true ∧
    (MainHeader.rest (timerDocument device version) (timerDevice device) []
      timerSetting.style).isOk = true := by
  decide +kernel

/-- What the plan of a device with a timer writes. -/
theorem exists_plan_timer (device version : String) (hdevice : device ∈ ["DEVA", "DEVB"])
    (hversion : version ∈ ["1", "2"]) (known : List String) :
    ∃ component instances main,
      ComponentHeader.lines (timer version) timerSetting.style timerSetting.license
        = .ok component ∧
      (plan timerSetting (timerDocument device version) [] known).result
        = .ok (timerSetting.output.child ((timerDevice device).headerName ++ ".h")) ∧
      Deed.writes timerSetting.output
          (plan timerSetting (timerDocument device version) [] known).deeds
        = (if "component/tc_u2249.h" ∈ known then []
          else [(timerSetting.output.child "component/tc_u2249.h", Line.fileText component)])
        ++ [(timerSetting.output.child ((timerDevice device).headerPathIn "instances"), instances),
          (timerSetting.output.child ((timerDevice device).headerName ++ ".h"), main)] := by
  obtain ⟨hopening, hcomponent, hinstances, hrest⟩ := isOk_timer device hdevice version hversion
  obtain ⟨opening, hopening⟩ := exists_of_isOk hopening
  obtain ⟨component, hcomponent⟩ := exists_of_isOk hcomponent
  obtain ⟨instances, hinstances⟩ := exists_of_isOk hinstances
  obtain ⟨rest, hrest⟩ := exists_of_isOk hrest
  have hopened : Opened timerSetting (timerDocument device version) (timerDevice device)
    [timer version] opening := ⟨rfl, rfl, hopening⟩
  have hmain : (mainPlan timerSetting (timerDocument device version) [] (timerDevice device)
      [timer version] opening [(timer version).headerPath timerSetting.style]
      ((timerDevice device).headerPathIn timerSetting.style.instancesDir) []).result
      = .ok (timerSetting.output.child ((timerDevice device).headerName ++ ".h")) := by
    rw [mainPlan, hrest]
    rfl
  obtain ⟨-, back, hdeeds⟩ := exists_deeds_mainPlan hmain
  have hlines : ∀ p ∈ pending timerSetting.style known (timerDocument device version).external,
      ∃ lines, ComponentHeader.lines p timerSetting.style timerSetting.license = .ok lines := by
    intro p hp
    have hp := (pending_sublist _ _).subset hp
    rw [external_timerDocument, List.mem_singleton] at hp
    exact ⟨component, hp ▸ hcomponent⟩
  have hown := ownPlan_of_not_pio (s := timerSetting) rfl (timerDocument device version) []
    hinstances opening [(timer version).headerPath timerSetting.style]
  have hresult : (plan timerSetting (timerDocument device version) [] known).result
      = .ok (timerSetting.output.child ((timerDevice device).headerName ++ ".h")) := by
    refine plan_result_eq_ok.mpr ⟨_, _, _, hopened, hlines, ?_⟩
    rw [external_timerDocument, List.map_singleton, hown]
    exact hmain
  have hdir : timerSetting.style.instancesDir = "instances" := rfl
  refine ⟨component, Line.fileText instances, Line.fileText (opening
    ++ MainHeader.includeLines "Device-specific Peripheral Definitions" ["component/tc_u2249.h"]
    ++ back), hcomponent, hresult, ?_⟩
  rw [hopened.writes_plan [] hlines, components_plan_of_ok hresult, external_timerDocument,
    List.map_singleton, hown]
  dsimp only
  rw [hdeeds, pending, headerPath_timer, pending, hdir, Deed.writes_cons_write,
    Deed.writes_cons_write]
  by_cases hknown : "component/tc_u2249.h" ∈ known
  · rw [if_pos hknown, if_pos hknown]
    rfl
  · rw [if_neg hknown, if_neg hknown, List.filterMap_cons, componentFile, hcomponent,
      headerPath_timer]
    rfl

theorem child_timer :
    timerSetting.output.child "component/tc_u2249.h"
      = ⟨.here, ["out", "component", "tc_u2249.h"]⟩ := by decide +kernel

/-- The name of the headers of a device with a timer. -/
def timerHeader : List (String × String) := [("DEVA", "deva.h"), ("DEVB", "devb.h")]

theorem child_timerDevice : ∀ e ∈ timerHeader,
    timerSetting.output.child ((timerDevice e.1).headerPathIn "instances")
      = ⟨.here, ["out", "instances", e.2]⟩ ∧
    timerSetting.output.child ((timerDevice e.1).headerName ++ ".h") = ⟨.here, ["out", e.2]⟩ := by
  decide +kernel

/-- Timers of different versions have different component headers. -/
theorem text_timer_ne :
    ((ComponentHeader.lines (timer "1") timerSetting.style timerSetting.license).map
      Line.fileText).toOption ≠
    ((ComponentHeader.lines (timer "2") timerSetting.style timerSetting.license).map
      Line.fileText).toOption := by
  decide +kernel

/-- The headers of a device with a timer. -/
def timerFiles (name component instances main : String) : Files :=
  ⟨[(["out", "component", "tc_u2249.h"], component), (["out", "instances", name], instances),
    (["out", name], main)], [["out"], ["out", "component"], ["out", "instances"]]⟩

theorem writeAll_timer {device name : String} (hname : (device, name) ∈ timerHeader)
    (component instances main : String) :
    ({} : Files).writeAll [(⟨.here, ["out", "component", "tc_u2249.h"]⟩, component),
      (⟨.here, ["out", "instances", name]⟩, instances), (⟨.here, ["out", name]⟩, main)]
      = .ok (timerFiles name component instances main) := by
  simp only [timerHeader, List.mem_cons, Prod.mk.injEq, List.not_mem_nil, or_false] at hname
  rcases hname with ⟨-, rfl⟩ | ⟨-, rfl⟩ <;> cbv

/-- The headers of another device leave the component header. -/
theorem exists_writeAll_timer (component instances main instances' main' : String) :
    ∃ files, (timerFiles "deva.h" component instances main).writeAll
      [(⟨.here, ["out", "instances", "devb.h"]⟩, instances'), (⟨.here, ["out", "devb.h"]⟩, main')]
      = .ok files ∧ files.text? ["out", "component", "tc_u2249.h"] = some component := by
  refine ⟨⟨[(["out", "component", "tc_u2249.h"], component),
    (["out", "instances", "deva.h"], instances), (["out", "deva.h"], main),
    (["out", "instances", "devb.h"], instances'), (["out", "devb.h"], main')],
    [["out"], ["out", "component"], ["out", "instances"]]⟩, by cbv, rfl⟩

/-- A device with a timer gets its headers. -/
theorem exists_perform_timer {device name version : String} (hname : (device, name) ∈ timerHeader)
    (hversion : version ∈ ["1", "2"]) :
    ∃ component instances main path g,
      ComponentHeader.lines (timer version) timerSetting.style timerSetting.license
        = .ok component ∧
      (generate timerSetting (timerDocument device version) []).perform {} = (.ok path, g) ∧
      g.files = timerFiles name (Line.fileText component) instances main := by
  obtain ⟨hinstances, hmain⟩ := child_timerDevice _ hname
  obtain ⟨component, instances, main, hcomponent, hresult, hwrites⟩ :=
    exists_plan_timer device version (List.mem_map_of_mem (f := Prod.fst) hname) hversion []
  rw [if_neg List.not_mem_nil, child_timer, hinstances, hmain, List.singleton_append] at hwrites
  have hfiles := writeAll_timer hname (Line.fileText component) instances main
  rw [← hwrites] at hfiles
  obtain ⟨g, hall, hg⟩ := (Deed.exists_applyAll_iff (g := {})).mpr hfiles
  exact ⟨component, instances, main, _, g, hcomponent,
    perform_generate_eq_ok_iff.mpr ⟨hresult, hall⟩, hg⟩

theorem atmel_mem_presets : timerSetting.style ∈ Style.presets :=
  List.mem_cons_of_mem _ List.mem_cons_self

/-! ### When shared component headers are right -/

/-- **Shared component headers are right exactly if the first one at each path has the text of the
others,** for documents whose headers do not get in each other's way. -/
theorem sharedRight_iff_firstAgrees (files : Files) (hapart : PlacesApart s jobs) :
    SharedRight s jobs files ↔ FirstAgrees s jobs files := by
  -- what is at the place after a success in the run
  have hplace : ∀ before job later path g, jobs = before ++ job :: later →
      (generate s job.doc job.dcrs).perform (performAll s.output (requests s before) { files })
        = (.ok path, g) →
      ∀ p ∈ job.doc.external, ∃ first,
        (p.headerPath s.style, first) ∈ written s (before ++ [job]) files ∧
        g.files.text? (s.output.child (p.headerPath s.style)).location
          = some (Line.fileText first) := by
    intro before job later path g hjobs h p hp
    have hg : performAll s.output (requests s (before ++ [job])) { files } = g := by
      rw [performAll, requests, List.map_append, List.foldl_append]
      exact congrArg Prod.snd h
    rw [hjobs, List.append_cons] at hapart
    exact exists_first hapart.of_append hg
      (List.mem_flatMap.mpr ⟨job, List.mem_append_right _ (List.mem_singleton_self _), hp⟩)
      (mem_components_of_ok h hp)
  constructor
  · intro hright before job later path g hjobs h p hp first hfirst
    obtain ⟨lines, hlines, htext⟩ := hright before job later path g hjobs h p hp
    obtain ⟨first', hfirst', htext'⟩ := hplace before job later path g hjobs h p hp
    rw [written_unique hfirst hfirst']
    exact ⟨lines, hlines, Option.some.inj (htext.symm.trans htext')⟩
  · intro hfirst before job later path g hjobs h p hp
    obtain ⟨first, hwritten, htext⟩ := hplace before job later path g hjobs h p hp
    obtain ⟨lines, hlines, heq⟩ := hfirst before job later path g hjobs h p hp first hwritten
    exact ⟨lines, hlines, by rw [htext, heq]⟩

theorem sharedRight_iff_firstAgrees_timers :
    PlacesApart timerSetting [timerJob "DEVA" "1", timerJob "DEVB" "2"] ∧
      (SharedRight timerSetting [timerJob "DEVA" "1", timerJob "DEVB" "2"] {} ↔
        FirstAgrees timerSetting [timerJob "DEVA" "1", timerJob "DEVB" "2"] {}) := by
  have hapart : PlacesApart timerSetting [timerJob "DEVA" "1", timerJob "DEVB" "2"] := by
    refine placesApart_of_plainNames atmel_mem_presets ?_
    rw [List.forall_mem_cons, List.forall_mem_singleton]
    exact ⟨(plainNames_timerDocument "1").1, (plainNames_timerDocument "2").2⟩
  exact ⟨hapart, sharedRight_iff_firstAgrees {} hapart⟩

/-- **A timer of another version gets the header of the first one,** with the wrong version. -/
theorem timers_not_sharedRight :
    ¬ SharedRight timerSetting [timerJob "DEVA" "1", timerJob "DEVB" "2"] {} := by
  intro hright
  obtain ⟨hinstances, hmain⟩ := child_timerDevice ("DEVB", "devb.h") (by simp [timerHeader])
  obtain ⟨component, instances, main, path, g, hcomponent, hfirst, hfiles⟩ :=
    exists_perform_timer (show ("DEVA", "deva.h") ∈ timerHeader from List.mem_cons_self)
      (show "1" ∈ ["1", "2"] from List.mem_cons_self)
  have hknown := mem_components_of_ok hfirst (List.mem_singleton_self (timer "1"))
  rw [headerPath_timer] at hknown
  obtain ⟨_, instances', main', _, hresult, hwrites⟩ :=
    exists_plan_timer "DEVB" "2" (by simp) (by simp) g.components
  rw [if_pos hknown, hinstances, hmain, List.nil_append] at hwrites
  obtain ⟨files', hfiles', htext'⟩ :=
    exists_writeAll_timer (Line.fileText component) instances main instances' main'
  rw [← hfiles, ← hwrites] at hfiles'
  obtain ⟨g', hall, rfl⟩ := Deed.exists_applyAll_iff.mpr hfiles'
  have hsecond := perform_generate_eq_ok_iff.mpr ⟨hresult, hall⟩
  have hg : performAll timerSetting.output (requests timerSetting [timerJob "DEVA" "1"]) {} = g :=
    congrArg Prod.snd hfirst
  rw [← hg] at hsecond
  obtain ⟨lines, hlines, htext⟩ := hright [timerJob "DEVA" "1"] (timerJob "DEVB" "2") [] _ g' rfl
    hsecond (timer "2") (List.mem_singleton_self _)
  -- the file has the text of the first header
  rw [headerPath_timer, child_timer] at htext
  have hsame := Option.some.inj (htext'.symm.trans htext)
  refine text_timer_ne ?_
  rw [hcomponent, hlines]
  exact congrArg some hsame

end ArmHeader

end ChipSupport
