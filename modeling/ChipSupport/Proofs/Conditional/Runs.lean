import ChipSupport.Mips.Generate
import ChipSupport.Proofs.ArmHeader.Shared
import ChipSupport.Proofs.Conditional.Mips
import ChipSupport.Proofs.Generation.Texts

/-!
# Conditional parts of the files of a run

Every file that is written for a device is a header with conditional parts that are nested well.

## Main definitions

* `MipsHeader.plan` — the deeds of writing the header of a MIPS device.
* `Conditional.WroteHeaders` — what a run has done that wrote headers.

## Main results

* `ArmHeader.textsHave_plan`, `MipsHeader.textsHave_plan` — the texts of plans.
* `Conditional.wroteHeaders_generate` — **every file that a run writes is such a header.**
-/

namespace ChipSupport

open Text Conditional

/-! ### Arm devices -/

theorem Style.lacks_directories : ∀ style ∈ Style.presets,
    Lacks '\n' style.componentDir ∧ Lacks '\n' style.instancesDir ∧ Lacks '\n' style.pioDir := by
  decide

theorem Peripheral.lacks_headerPath {p : Peripheral} (hp : p.Unbroken) {style : Style}
    (hstyle : style ∈ Style.presets) : Lacks '\n' (p.headerPath style) := by
  have hdirectory := (Style.lacks_directories style hstyle).1
  simp +decide [Peripheral.headerPath, hdirectory, Peripheral.lacks_componentName hp]

namespace ArmHeader

variable {s : Setting}

theorem path_eq_of_instancesPlan {d : Device} {ps : List Peripheral} {path : String}
    (h : (instancesPlan s d ps).result = .ok path) :
    path = d.headerPathIn s.style.instancesDir := by
  obtain ⟨_, -, h⟩ := Plan.result_bind_eq_ok.mp h
  obtain ⟨_, -, h⟩ := Plan.result_bind_eq_ok.mp h
  exact (Except.ok.inj h).symm

theorem path_eq_of_pinsPlan {doc : Document} {d : Device} {ps : List Peripheral} {path : String}
    (h : (pinsPlan s doc d ps).result = .ok path) :
    path = d.headerPathIn s.style.pioDir := by
  obtain ⟨_, -, h⟩ := Plan.result_bind_eq_ok.mp h
  obtain ⟨_, -, h⟩ := Plan.result_bind_eq_ok.mp h
  obtain ⟨_, -, h⟩ := Plan.result_bind_eq_ok.mp h
  obtain ⟨_, -, h⟩ := Plan.result_bind_eq_ok.mp h
  exact (Except.ok.inj h).symm

section Device

variable {d : Device} (hd : d.Unbroken) {ps : List Peripheral} (hps : ∀ p ∈ ps, p.Unbroken)
include hd hps

theorem textsHave_instancesPlan :
    (instancesPlan s d ps).TextsHave s.output (IsHeader s.license) := by
  refine (Plan.textsHave_ofExcept _).bind fun lines hlines => ?_
  have hheader := InstanceHeader.isHeader_lines hd hps hlines
  exact (Plan.textsHave_write _ hheader).bind fun _ _ => Plan.textsHave_ofExcept _

variable {doc : Document} (hdoc : doc.Unbroken)
include hdoc

theorem textsHave_pinsPlan : (pinsPlan s doc d ps).TextsHave s.output (IsHeader s.license) := by
  refine (Plan.textsHave_ofExcept _).bind fun pads hpads => ?_
  refine (Plan.textsHave_ofExcept _).bind fun lines hlines => ?_
  have hpads := Document.lacks_portPinNames hdoc hpads
  have hheader := PinHeader.isHeader_lines hd hps hpads hlines
  exact (Plan.textsHave_of_none rfl).bind fun _ _ =>
    (Plan.textsHave_write _ hheader).bind fun _ _ => Plan.textsHave_ofExcept _

variable (hstyle : s.style ∈ Style.presets) {dcrs : List ConfigRegister}
  (hdcrs : ∀ r ∈ dcrs, r.Unbroken) {opening : List Line}
  (hopening : MainHeader.opening d doc.interrupts s.style s.license = .ok opening)
  {components : List String} (hcomponents : ∀ path ∈ components, Lacks '\n' path)
include hstyle hdcrs hopening hcomponents

theorem textsHave_mainPlan {instances : String} (hinstances : Lacks '\n' instances)
    {pins : List Line} (hpins : Nested pins) :
    (mainPlan s doc dcrs d ps opening components instances pins).TextsHave s.output
      (IsHeader s.license) := by
  refine (Plan.textsHave_ofExcept _).bind fun rest hrest => ?_
  refine (Plan.textsHave_write _ ?_).bind fun _ _ => Plan.textsHave_ofExcept _
  have hincludes := (MainHeader.nested_includeLines
    (by decide : Lacks '\n' "Device-specific Peripheral Definitions") hcomponents).append
      (MainHeader.nested_includeLines
        (by decide : Lacks '\n' "Device-specific Peripheral Instance Definitions")
        (List.forall_mem_singleton.mpr hinstances))
  have hmiddle := ((hincludes.append (Instances.nested_idLines hps s.style)).append
    (Instances.nested_baseLines hps s.style)).append hpins
  have hheader := MainHeader.isHeader_lines hd hdoc hdcrs hstyle hopening hmiddle hrest
  simpa only [List.append_assoc] using hheader

/-- The headers of a device alone. -/
theorem textsHave_ownPlan :
    (ownPlan s doc dcrs d ps opening components).TextsHave s.output (IsHeader s.license) := by
  obtain ⟨-, hinstancesDir, hpioDir⟩ := Style.lacks_directories _ hstyle
  have hmain {pins : List Line} (hpins : Nested pins) :=
    textsHave_mainPlan hd hps hdoc hstyle hdcrs hopening hcomponents
      (Device.lacks_headerPathIn hd hinstancesDir) hpins
  refine (textsHave_instancesPlan hd hps).bind fun instances hinstances => ?_
  rw [path_eq_of_instancesPlan hinstances]
  split
  · refine (textsHave_pinsPlan hd hps hdoc).bind fun path hpath => ?_
    rw [path_eq_of_pinsPlan hpath]
    exact hmain (MainHeader.nested_includeLines (by decide)
      (List.forall_mem_singleton.mpr (Device.lacks_headerPathIn hd hpioDir)))
  · exact hmain .nil

end Device

section Style

variable (hstyle : s.style ∈ Style.presets)
include hstyle

theorem textsHave_componentsPlan {ps : List Peripheral} (hps : ∀ p ∈ ps, p.Unbroken)
    (known : List String) :
    (componentsPlan s known ps).TextsHave s.output (IsHeader s.license) := by
  -- for any known components, since those that are written become known for the next peripherals
  induction ps generalizing known with
  | nil => exact Plan.textsHave_ofExcept _
  | cons p ps ih =>
    rw [List.forall_mem_cons] at hps
    have hcomponent : (componentPlan s known p).TextsHave s.output (IsHeader s.license) := by
      unfold componentPlan
      split
      · exact Plan.textsHave_of_none rfl
      · refine (Plan.textsHave_ofExcept _).bind fun lines hlines => ?_
        have hheader := ComponentHeader.isHeader_lines hstyle hps.1 hlines
        exact (Plan.textsHave_writeComponent _ hheader).bind fun _ _ => Plan.textsHave_of_none rfl
    exact hcomponent.bind fun _ _ => (ih hps.2 _).bind fun _ _ => Plan.textsHave_ofExcept _

theorem textsHave_plan {doc : Document} (hdoc : doc.Unbroken) {dcrs : List ConfigRegister}
    (hdcrs : ∀ r ∈ dcrs, r.Unbroken) (known : List String) :
    (plan s doc dcrs known).TextsHave s.output (IsHeader s.license) := by
  refine (Plan.textsHave_ofExcept _).bind fun d hd => ?_
  have hd := Document.unbroken_device hdoc hd
  have hread : (readPlan doc).TextsHave s.output (IsHeader s.license) :=
    (Plan.textsHave_of_none rfl).bind fun _ _ => Plan.textsHave_ofExcept _
  refine hread.bind fun ps hps => ?_
  have hps := Document.unbroken_peripherals hdoc hps
  refine (Plan.textsHave_of_none rfl).bind fun _ _ => ?_
  refine (Plan.textsHave_ofExcept _).bind fun opening hopening => ?_
  have hexternal : ∀ p ∈ Instances.external ps, p.Unbroken := fun p hp =>
    hps p (List.mem_filter.mp hp).1
  refine (textsHave_componentsPlan hstyle hexternal known).bind fun components hcomponents => ?_
  obtain ⟨-, rfl⟩ := componentsPlan_result_eq_ok.mp hcomponents
  refine textsHave_ownPlan hd hps hdoc hstyle hdcrs hopening ?_
  exact List.forall_mem_map.mpr fun p hp => Peripheral.lacks_headerPath (hexternal p hp) hstyle

end Style

/-- The main header is written if a plan has a result. -/
theorem mem_writes_plan {doc : Document} {dcrs : List ConfigRegister} {known : List String}
    {path : Path} (h : (plan s doc dcrs known).result = .ok path) :
    path ∈ (Deed.writes s.output (plan s doc dcrs known).deeds).map Prod.fst := by
  obtain ⟨d, ps, opening, hopened, hlines, hown⟩ := plan_result_eq_ok.mp h
  obtain ⟨-, ds, back, hdeeds⟩ := exists_deeds_ownPlan hown
  rw [hopened.deeds_plan dcrs hlines, hdeeds, ← List.append_assoc, ← List.append_assoc]
  exact Deed.mem_writes_of_write_mem (List.mem_append_right _ List.mem_cons_self)

end ArmHeader

/-! ### MIPS devices -/

namespace MipsHeader

/-- The plan of the header of a device. -/
def plan (output : Path) (d : MipsDevice) (license : License) : Plan Path := do
  .act (.leave (note d :: d.planNotes))
  let lines ← .ofExcept (lines d license)
  .act (.write (output.child (fileName d)) lines)
  return output.child (fileName d)

theorem generate_follows (output : Path) (known : List String) (d : MipsDevice)
    (license : License) :
    Run.Follows output known (generate output d license) (plan output d license) := by
  refine (Run.follows_leave _).bind fun _ _ => (Run.follows_ofExcept _).bind fun lines _ => ?_
  exact (Run.follows_write _ lines).bind fun _ _ => Run.follows_pure _

theorem textsHave_plan (output : Path) {d : MipsDevice} (hd : d.Unbroken) (license : License) :
    (plan output d license).TextsHave output (IsHeader license) := by
  refine (Plan.textsHave_of_none rfl).bind fun _ _ => ?_
  refine (Plan.textsHave_ofExcept _).bind fun lines hlines => ?_
  exact (Plan.textsHave_write _ (isHeader_lines hd hlines)).bind fun _ _ =>
    Plan.textsHave_ofExcept _

theorem plan_of_ok (output : Path) {d : MipsDevice} {license : License} {ls : List Line}
    (h : lines d license = .ok ls) : plan output d license
      = ⟨[.leave (note d :: d.planNotes), .write (output.child (fileName d)) ls],
        .ok (output.child (fileName d))⟩ := by
  rw [plan, h]
  rfl

/-- The header is written if a plan has a result. -/
theorem mem_writes_plan {output : Path} {d : MipsDevice} {license : License} {path : Path}
    (h : (plan output d license).result = .ok path) :
    path ∈ (Deed.writes output (plan output d license).deeds).map Prod.fst := by
  cases hlines : lines d license with
  | ok ls =>
    have hplan := plan_of_ok output hlines
    rw [hplan] at h ⊢
    rw [← Except.ok.inj h]
    exact Deed.mem_writes_of_write_mem (List.mem_cons_of_mem _ List.mem_cons_self)
  | error f =>
    rw [plan, hlines] at h
    cases h

end MipsHeader

/-! ### Runs -/

/-- What a run has done that wrote headers, among them the one at the path that it returns. -/
def Conditional.WroteHeaders (license : License) (g : Generation)
    (outcome : Except Fault Path × Generation) : Prop :=
  ∃ ws, g.Wrote (IsHeader license) outcome.2 ws ∧
    ∀ path, outcome.1 = .ok path → path ∈ ws.map Prod.fst

theorem Conditional.wroteHeaders_carryOut {output : Path} {license : License} {p : Plan Path}
    (h : p.TextsHave output (IsHeader license))
    (hpath : ∀ path, p.result = .ok path → path ∈ (Deed.writes output p.deeds).map Prod.fst)
    (g : Generation) : WroteHeaders license g (p.carryOut output g) := by
  obtain ⟨ws, hws, hall⟩ := Plan.exists_wrote h g
  refine ⟨ws, hws, fun path hresult => ?_⟩
  rw [hall path hresult]
  exact hpath path (Plan.carryOut_eq_ok_iff.mp (Prod.ext hresult rfl)).1

/-- **Every header of a run has conditional parts that are nested well,** and one of them, which the
last line closes, holds everything behind the licence block.  This goes for the headers of an Arm
device in a preset style and for the header of a MIPS device, if their texts have no line feeds and
their names no `#`, also for what is written before a fault. -/
theorem Conditional.wroteHeaders_generate :
    (∀ (s : ArmHeader.Setting) (doc : Document) (dcrs : List ConfigRegister) (g : Generation),
      s.style ∈ Style.presets → doc.Unbroken → (∀ r ∈ dcrs, r.Unbroken) →
      WroteHeaders s.license g ((ArmHeader.generate s doc dcrs).perform g)) ∧
    ∀ (output : Path) (d : MipsDevice) (license : License) (g : Generation), d.Unbroken →
      WroteHeaders license g ((MipsHeader.generate output d license).perform g) := by
  refine ⟨fun s doc dcrs g hstyle hdoc hdcrs => ?_, fun output d license g hd => ?_⟩
  · rw [ArmHeader.perform_generate]
    exact wroteHeaders_carryOut (ArmHeader.textsHave_plan hstyle hdoc hdcrs _)
      (fun _ => ArmHeader.mem_writes_plan) g
  · rw [MipsHeader.generate_follows output g.components d license g rfl]
    exact wroteHeaders_carryOut (MipsHeader.textsHave_plan output hd license)
      (fun _ => MipsHeader.mem_writes_plan) g

/-! ### A timer and a watchdog -/

theorem ArmHeader.unbroken_timerDocument : (timerDocument "DEVA" "1").Unbroken := by
  constructor
  · simp +decide [timerDocument, Data.Unbroken, Data.UnbrokenEntries]
  · simp +decide [timerDocument, Data.Unbroken, Data.UnbrokenEntries]

/-- A device with a watchdog. -/
def MipsHeader.watchdogDevice : MipsDevice :=
  { name := "PIC32MX110F016B"
    regions := [{ name := "code", kind := .code, first := 0x1D000000, stop := 0x1D004000 }]
    interrupts := { vectors := [{ number := 0, name := "CORE_TIMER" }] }
    sfrs :=
      [{ name := "WDTCON"
         address := 0x1F800000
         baseOf := ["WDT"]
         modes := [{ name := "", fields := [{ name := "ON", position := 15, width := 1 }] }] }] }

theorem MipsHeader.unbroken_watchdogDevice : watchdogDevice.Unbroken := by
  refine ⟨by decide, by decide, ⟨?_, List.forall_mem_nil _⟩, ?_, List.forall_mem_nil _⟩
  · exact List.forall_mem_singleton.mpr ⟨⟨by decide, by decide⟩, by decide, by decide⟩
  · refine List.forall_mem_singleton.mpr ⟨by decide, List.forall_mem_nil _, ?_, by decide⟩
    refine List.forall_mem_singleton.mpr (List.forall_mem_singleton.mpr ?_)
    exact ⟨by decide, by decide, List.forall_mem_nil _⟩

/-- The header of the device with a watchdog can be written. -/
theorem MipsHeader.exists_perform_watchdog : ∃ path g,
    (generate (.ofString "out") watchdogDevice ArmHeader.timerLicense).perform {}
      = (.ok path, g) := by
  have hlines : (lines watchdogDevice ArmHeader.timerLicense).isOk = true := by decide +kernel
  have hpath : (Path.ofString "out").child (fileName watchdogDevice)
      = ⟨.here, ["out", "p32mx110f016b.h"]⟩ := by decide +kernel
  have hwrite (text : String) : ({} : Files).write ⟨.here, ["out", "p32mx110f016b.h"]⟩ text
      = .ok ⟨[(["out", "p32mx110f016b.h"], text)], [["out"]]⟩ :=
    Files.write_eq_ok_iff.mpr ⟨by cbv, by cbv, by cbv, ⟨[], [["out"]]⟩, by cbv, by cbv, rfl⟩
  obtain ⟨ls, hls⟩ := ArmHeader.exists_of_isOk hlines
  have hplan := plan_of_ok (.ofString "out") hls
  rw [hpath] at hplan
  have hfiles : ({} : Generation).files.writeAll (Deed.writes (.ofString "out")
      (plan (.ofString "out") watchdogDevice ArmHeader.timerLicense).deeds)
      = .ok ⟨[(["out", "p32mx110f016b.h"], Line.fileText ls)], [["out"]]⟩ := by
    rw [hplan]
    exact Files.writeAll_cons_eq_ok.mpr ⟨_, hwrite (Line.fileText ls), rfl⟩
  obtain ⟨g, hall, -⟩ := Deed.exists_applyAll_iff.mpr hfiles
  refine ⟨⟨.here, ["out", "p32mx110f016b.h"]⟩, g, ?_⟩
  rw [generate_follows _ [] _ _ _ rfl]
  exact Plan.carryOut_eq_ok_iff.mpr ⟨by rw [hplan], hall⟩

open ArmHeader (timerSetting timerDocument timerLicense) in
theorem Conditional.wroteHeaders_timer_watchdog :
    (∃ path g ws, (ArmHeader.generate timerSetting (timerDocument "DEVA" "1") []).perform {}
      = (.ok path, g) ∧ ({} : Generation).Wrote (IsHeader timerLicense) g ws ∧
      path ∈ ws.map Prod.fst) ∧
    ∃ path g ws, (MipsHeader.generate (.ofString "out") MipsHeader.watchdogDevice
      timerLicense).perform {} = (.ok path, g) ∧
      ({} : Generation).Wrote (IsHeader timerLicense) g ws ∧ path ∈ ws.map Prod.fst := by
  constructor
  · obtain ⟨_, _, _, path, g, -, hrun, -⟩ := ArmHeader.exists_perform_timer
      (show ("DEVA", "deva.h") ∈ ArmHeader.timerHeader from List.mem_cons_self)
      (show "1" ∈ ["1", "2"] from List.mem_cons_self)
    obtain ⟨ws, hws, hpath⟩ := wroteHeaders_generate.1 timerSetting (timerDocument "DEVA" "1") [] {}
      ArmHeader.atmel_mem_presets ArmHeader.unbroken_timerDocument (List.forall_mem_nil _)
    rw [hrun] at hws hpath
    exact ⟨path, g, ws, hrun, hws, hpath path rfl⟩
  · obtain ⟨path, g, hrun⟩ := MipsHeader.exists_perform_watchdog
    obtain ⟨ws, hws, hpath⟩ := wroteHeaders_generate.2 (.ofString "out") MipsHeader.watchdogDevice
      timerLicense {} MipsHeader.unbroken_watchdogDevice
    rw [hrun] at hws hpath
    exact ⟨path, g, ws, hrun, hws, hpath path rfl⟩

end ChipSupport
