import ChipSupport.Arm.Generate
import ChipSupport.Proofs.Generation.Plan

/-!
# Plans of the headers of a device

Which component headers are known when a run begins decides on the component headers that it writes.
The headers that belong to the device alone do not depend on it.

## Main definitions

* `ArmHeader.plan` — the deeds of writing the headers of a device.
* `ArmHeader.pending` — the peripherals whose component headers are not known yet.
* `ArmHeader.ownPaths` — the paths of the headers that belong to a device alone.

## Main results

* `ArmHeader.generate_follows` — **writing headers follows the plan.**
* `ArmHeader.components_plan` — the component headers of a plan.
-/

namespace ChipSupport

/-- The peripherals of a document that have component headers. -/
def Document.external (doc : Document) : List Peripheral :=
  match (Cache.peripherals doc []).1 with
  | .ok ps => Instances.external ps
  | .error _ => []

namespace ArmHeader

variable (s : Setting)

/-! ### Plans -/

/-- The component header of a peripheral, with its path. -/
def componentFile (p : Peripheral) : Except Fault (String × List Line) :=
  (ComponentHeader.lines p s.style s.license).map fun lines => (p.headerPath s.style, lines)

/-- The plan of reading the peripherals of a document. -/
def readPlan (doc : Document) : Plan (List Peripheral) := do
  .act (.leave (Document.Cache.peripherals doc []).2.2)
  .ofExcept (Document.Cache.peripherals doc []).1

/-- The plan of the component header of a peripheral. -/
def componentPlan (known : List String) (p : Peripheral) : Plan Unit :=
  if known.contains (p.headerPath s.style) then .act (.leave [knownNote (p.headerPath s.style)])
  else do
    let lines ← .ofExcept (ComponentHeader.lines p s.style s.license)
    .act (.writeComponent (p.headerPath s.style) lines)
    .act (.remember (p.headerPath s.style))

/-- The plan of the component headers of peripherals. -/
def componentsPlan (known : List String) : List Peripheral → Plan (List String)
  | [] => return []
  | p :: ps => do
    componentPlan s known p
    let paths ← componentsPlan ((componentPlan s known p).deeds.foldl Deed.known known) ps
    return p.headerPath s.style :: paths

/-- The plan of the header of instances. -/
def instancesPlan (d : Device) (ps : List Peripheral) : Plan String := do
  let lines ← .ofExcept (InstanceHeader.lines d ps s.style s.license)
  .act (.write (s.output.child (d.headerPathIn s.style.instancesDir)) lines)
  return d.headerPathIn s.style.instancesDir

/-- The plan of the header of port pins. -/
def pinsPlan (doc : Document) (d : Device) (ps : List Peripheral) : Plan String := do
  let pads ← .ofExcept doc.portPinNames
  let lines ← .ofExcept (PinHeader.lines d pads ps s.license)
  .act (.leave (Pins.notes ps))
  .act (.write (s.output.child (d.headerPathIn s.style.pioDir)) lines)
  return d.headerPathIn s.style.pioDir

/-- The plan of the main header. -/
def mainPlan (doc : Document) (dcrs : List ConfigRegister) (d : Device) (ps : List Peripheral)
    (opening : List Line) (components : List String) (instances : String) (pins : List Line) :
    Plan Path := do
  let rest ← .ofExcept (MainHeader.rest doc d dcrs s.style)
  .act (.write (s.output.child (d.headerName ++ ".h")) (opening
    ++ MainHeader.includeLines "Device-specific Peripheral Definitions" components
    ++ MainHeader.includeLines "Device-specific Peripheral Instance Definitions" [instances]
    ++ Instances.idLines ps s.style ++ Instances.baseLines ps s.style ++ pins ++ rest))
  return s.output.child (d.headerName ++ ".h")

/-- The plan of the headers that belong to a device alone. -/
def ownPlan (doc : Document) (dcrs : List ConfigRegister) (d : Device) (ps : List Peripheral)
    (opening : List Line) (components : List String) : Plan Path := do
  let instances ← instancesPlan s d ps
  if s.style.pio then
    let path ← pinsPlan s doc d ps
    mainPlan s doc dcrs d ps opening components instances
      (MainHeader.includeLines "Device-specific Port IO Definitions" [path])
  else mainPlan s doc dcrs d ps opening components instances []

/-- The plan of the headers of the device of a document, for a run that knows of some component
headers. -/
def plan (doc : Document) (dcrs : List ConfigRegister) (known : List String) : Plan Path := do
  let d ← .ofExcept doc.device
  let ps ← readPlan doc
  .act (.leave [note d s.style])
  let opening ← .ofExcept (MainHeader.opening d doc.interrupts s.style s.license)
  let components ← componentsPlan s known (Instances.external ps)
  ownPlan s doc dcrs d ps opening components

/-! ### Runs that follow them -/

variable {s}
variable {known : List String}

open Run

theorem writeComponent_follows (p : Peripheral) :
    Follows s.output known (writeComponent s p) (componentPlan s known p) := by
  intro g hg
  subst hg
  change (if g.components.contains (p.headerPath s.style) then _ else _ : Run Unit).perform g = _
  rw [componentPlan]
  split
  · exact follows_leave _ g rfl
  · exact (follows_ofExcept _).bind (fun lines _ =>
      (follows_writeComponent _ lines).bind fun _ _ => follows_remember _) g rfl

theorem writeComponents_follows (ps : List Peripheral) :
    Follows s.output known (writeComponents s ps) (componentsPlan s known ps) := by
  induction ps generalizing known with
  | nil => exact follows_pure _
  | cons p ps ih =>
    exact (writeComponent_follows p).bind fun _ _ => ih.bind fun paths _ => follows_pure _

theorem writeInstances_follows (d : Device) (ps : List Peripheral) :
    Follows s.output known (writeInstances s d ps) (instancesPlan s d ps) :=
  (follows_ofExcept _).bind fun lines _ => (follows_write _ lines).bind fun _ _ => follows_pure _

theorem writePins_follows (doc : Document) (d : Device) (ps : List Peripheral) :
    Follows s.output known (writePins s doc d ps) (pinsPlan s doc d ps) :=
  (follows_ofExcept _).bind fun _ _ => (follows_ofExcept _).bind fun lines _ =>
    (follows_leave _).bind fun _ _ => (follows_write _ lines).bind fun _ _ => follows_pure _

theorem readPeripherals_follows (output : Path) (doc : Document) :
    Follows output known doc.readPeripherals (readPlan doc) :=
  (follows_leave _).bind fun _ _ => follows_ofExcept _

/-- **Writing the headers of a device follows the plan.** -/
theorem generate_follows (doc : Document) (dcrs : List ConfigRegister) :
    Follows s.output known (generate s doc dcrs) (plan s doc dcrs known) := by
  refine (follows_ofExcept _).bind fun d _ => (readPeripherals_follows _ _).bind fun ps _ => ?_
  refine (follows_leave _).bind fun _ _ => (follows_ofExcept _).bind fun opening _ => ?_
  refine (writeComponents_follows _).bind fun components _ => ?_
  refine (writeInstances_follows _ _).bind fun instances _ => ?_
  split
  · refine (writePins_follows _ _ _).bind fun path _ => ?_
    rw [pure_bind]
    exact (follows_ofExcept _).bind fun rest _ => (follows_write _ _).bind fun _ _ => follows_pure _
  · rw [pure_bind]
    exact (follows_ofExcept _).bind fun rest _ => (follows_write _ _).bind fun _ _ => follows_pure _

/-! ### Pending component headers -/

/-- The peripherals whose component headers are not known yet, the first one of each path. -/
def pending (style : Style) (known : List String) : List Peripheral → List Peripheral
  | [] => []
  | p :: ps =>
    if p.headerPath style ∈ known then pending style known ps
    else p :: pending style (known ++ [p.headerPath style]) ps

section Pending

variable {style : Style}

theorem pending_sublist (known : List String) (ps : List Peripheral) :
    (pending style known ps).Sublist ps := by
  induction ps generalizing known with
  | nil => exact List.Sublist.refl _
  | cons p ps ih =>
    rw [pending]
    split
    · exact (ih _).cons p
    · exact (ih _).cons_cons p

theorem notMem_of_mem_pending {ps : List Peripheral} {p : Peripheral}
    (hp : p ∈ pending style known ps) : p.headerPath style ∉ known := by
  induction ps generalizing known with
  | nil => cases hp
  | cons q ps ih =>
    rw [pending] at hp
    split at hp
    · exact ih hp
    · next hq =>
      rcases List.mem_cons.mp hp with rfl | hp
      · exact hq
      · exact fun h => ih hp (List.mem_append_left _ h)

/-- No path is pending twice. -/
theorem nodup_pending (known : List String) (ps : List Peripheral) :
    ((pending style known ps).map fun p => p.headerPath style).Nodup := by
  induction ps generalizing known with
  | nil => exact List.nodup_nil
  | cons p ps ih =>
    rw [pending]
    split
    · exact ih _
    · refine List.nodup_cons.mpr ⟨fun h => ?_, ih _⟩
      obtain ⟨q, hq, hpath⟩ := List.mem_map.mp h
      refine notMem_of_mem_pending hq ?_
      rw [hpath]
      exact List.mem_append_right _ (List.mem_singleton_self _)

/-- The path of every peripheral is known or pending. -/
theorem mem_known_or_pending {ps : List Peripheral} {p : Peripheral} (hp : p ∈ ps) :
    p.headerPath style ∈ known ∨ ∃ q ∈ pending style known ps,
      q.headerPath style = p.headerPath style := by
  induction ps generalizing known with
  | nil => cases hp
  | cons q ps ih =>
    rw [pending]
    split
    · next hq =>
      rcases List.mem_cons.mp hp with rfl | hp
      · exact .inl hq
      · exact ih hp
    · rcases List.mem_cons.mp hp with rfl | hp
      · exact .inr ⟨p, List.mem_cons_self, rfl⟩
      · rcases @ih (known ++ [q.headerPath style]) hp with h | ⟨r, hr, hpath⟩
        · rcases List.mem_append.mp h with h | h
          · exact .inl h
          · exact .inr ⟨q, List.mem_cons_self, (List.mem_singleton.mp h).symm⟩
        · exact .inr ⟨r, List.mem_cons_of_mem _ hr, hpath⟩

/-- If more paths are known, the others stay pending. -/
theorem pending_eq_filter {all known seen : List String}
    (hall : ∀ path, path ∈ all ↔ path ∈ known ∨ path ∈ seen) (ps : List Peripheral) :
    pending style all ps = (pending style seen ps).filter fun p => p.headerPath style ∉ known := by
  induction ps generalizing all seen with
  | nil => rfl
  | cons p ps ih =>
    have hmore : ∀ path, path ∈ all ++ [p.headerPath style] ↔
        path ∈ known ∨ path ∈ seen ++ [p.headerPath style] := by
      intro path
      rw [List.mem_append, List.mem_append, hall, or_assoc]
    rw [pending, pending]
    by_cases hseen : p.headerPath style ∈ seen
    · rw [if_pos ((hall _).mpr (.inr hseen)), if_pos hseen]
      exact ih hall
    · rw [if_neg hseen]
      by_cases hknown : p.headerPath style ∈ known
      · rw [if_pos ((hall _).mpr (.inl hknown)), List.filter_cons_of_neg (by simpa using hknown)]
        refine ih fun path => ?_
        rw [hall, List.mem_append, List.mem_singleton]
        constructor
        · exact fun h => h.imp_right .inl
        · rintro (h | h | rfl)
          · exact .inl h
          · exact .inr h
          · exact .inl hknown
      · have hneither : p.headerPath style ∉ all := by
          rw [hall, not_or]
          exact ⟨hknown, hseen⟩
        rw [if_neg hneither, List.filter_cons_of_pos (by simpa using hknown), ih hmore]

end Pending

/-! ### Component headers of plans -/

theorem componentFile_eq_ok_iff {p : Peripheral} {file : String × List Line} :
    componentFile s p = .ok file ↔
      p.headerPath s.style = file.1 ∧ ComponentHeader.lines p s.style s.license = .ok file.2 := by
  rw [componentFile, Steps.map_eq_ok_iff]
  constructor
  · rintro ⟨lines, hlines, rfl⟩
    exact ⟨rfl, hlines⟩
  · rintro ⟨hpath, hlines⟩
    exact ⟨file.2, hlines, by rw [hpath]⟩

theorem ok_mem_of_mem_untilFault {α : Type} {xs : List (Except Fault α)} {a : α}
    (h : a ∈ untilFault xs) : .ok a ∈ xs := by
  induction xs with
  | nil => cases h
  | cons x xs ih =>
    cases x with
    | error f => cases h
    | ok b =>
      rcases List.mem_cons.mp h with rfl | h
      · exact List.mem_cons_self
      · exact List.mem_cons_of_mem _ (ih h)

theorem untilFault_map_of_ok {α β : Type} {f : α → Except Fault β} {xs : List α}
    (h : ∀ x ∈ xs, ∃ y, f x = .ok y) :
    untilFault (xs.map f) = xs.filterMap fun x => (f x).toOption := by
  induction xs with
  | nil => rfl
  | cons x xs ih =>
    rw [List.forall_mem_cons] at h
    obtain ⟨y, hy⟩ := h.1
    rw [List.map_cons, List.filterMap_cons, hy]
    exact congrArg (y :: ·) (ih h.2)

theorem componentPlan_of_mem {p : Peripheral} (hp : p.headerPath s.style ∈ known) :
    componentPlan s known p = ⟨[.leave [knownNote (p.headerPath s.style)]], .ok ()⟩ :=
  if_pos (List.contains_iff_mem.mpr hp)

theorem componentPlan_of_notMem {p : Peripheral} (hp : p.headerPath s.style ∉ known) :
    componentPlan s known p =
      match ComponentHeader.lines p s.style s.license with
      | .ok lines => ⟨[.writeComponent (p.headerPath s.style) lines,
          .remember (p.headerPath s.style)], .ok ()⟩
      | .error f => ⟨[], .error f⟩ := by
  rw [componentPlan, if_neg (mt List.contains_iff_mem.mp hp)]
  cases ComponentHeader.lines p s.style s.license <;> rfl

theorem componentsPlan_cons_of_mem {p : Peripheral} (hp : p.headerPath s.style ∈ known)
    (ps : List Peripheral) :
    componentsPlan s known (p :: ps) =
      ⟨.leave [knownNote (p.headerPath s.style)] :: (componentsPlan s known ps).deeds,
        (componentsPlan s known ps).result.map (p.headerPath s.style :: ·)⟩ := by
  rw [componentsPlan, componentPlan_of_mem hp, Plan.mk_bind, Plan.bind_pure_eq]
  rfl

theorem componentsPlan_cons_of_notMem {p : Peripheral} (hp : p.headerPath s.style ∉ known)
    (ps : List Peripheral) :
    componentsPlan s known (p :: ps) =
      match ComponentHeader.lines p s.style s.license with
      | .ok lines =>
        ⟨.writeComponent (p.headerPath s.style) lines :: .remember (p.headerPath s.style) ::
            (componentsPlan s (known ++ [p.headerPath s.style]) ps).deeds,
          (componentsPlan s (known ++ [p.headerPath s.style]) ps).result.map
            (p.headerPath s.style :: ·)⟩
      | .error f => ⟨[], .error f⟩ := by
  rw [componentsPlan, componentPlan_of_notMem hp]
  cases ComponentHeader.lines p s.style s.license with
  | ok lines =>
    dsimp only
    rw [Plan.mk_bind, Plan.bind_pure_eq]
    rfl
  | error f => rfl

/-- **The component headers of a plan are the pending ones,** up to the first one with a fault. -/
theorem components_componentsPlan (known : List String) (ps : List Peripheral) :
    (componentsPlan s known ps).deeds.filterMap Deed.component? =
      untilFault ((pending s.style known ps).map (componentFile s)) := by
  induction ps generalizing known with
  | nil => rfl
  | cons p ps ih =>
    rw [pending]
    split
    · next hp =>
      rw [componentsPlan_cons_of_mem hp]
      exact ih known
    · next hp =>
      rw [componentsPlan_cons_of_notMem hp, List.map_cons, componentFile]
      cases ComponentHeader.lines p s.style s.license with
      | ok lines => exact congrArg _ (ih _)
      | error f => rfl

/-- The component headers of peripherals can be written if the pending ones can be made. -/
theorem componentsPlan_result_eq_ok {ps : List Peripheral} {paths : List String} :
    (componentsPlan s known ps).result = .ok paths ↔
      (∀ p ∈ pending s.style known ps, ∃ lines,
        ComponentHeader.lines p s.style s.license = .ok lines) ∧
      ps.map (fun p => p.headerPath s.style) = paths := by
  induction ps generalizing known paths with
  | nil =>
    change Except.ok [] = _ ↔ _
    simp [pending]
  | cons p ps ih =>
    -- the first path stands in front of those of the other peripherals
    have hmap : ∀ known',
        (componentsPlan s known' ps).result.map (p.headerPath s.style :: ·) = .ok paths ↔
        (∀ q ∈ pending s.style known' ps, ∃ lines,
          ComponentHeader.lines q s.style s.license = .ok lines) ∧
        (p :: ps).map (fun q => q.headerPath s.style) = paths := by
      intro known'
      rw [Steps.map_eq_ok_iff]
      constructor
      · rintro ⟨rest, hrest, rfl⟩
        obtain ⟨hlines, rfl⟩ := ih.mp hrest
        exact ⟨hlines, rfl⟩
      · rintro ⟨hlines, rfl⟩
        exact ⟨_, ih.mpr ⟨hlines, rfl⟩, rfl⟩
    rw [pending]
    split
    · next hp =>
      rw [componentsPlan_cons_of_mem hp, hmap]
    · next hp =>
      rw [componentsPlan_cons_of_notMem hp, List.forall_mem_cons]
      cases ComponentHeader.lines p s.style s.license with
      | ok lines => simp [hmap]
      | error f => simp

theorem orderly_componentsPlan (known : List String) (ps : List Peripheral) :
    Deed.Orderly (componentsPlan s known ps).deeds := by
  induction ps generalizing known with
  | nil => exact .nil
  | cons p ps ih =>
    by_cases hp : p.headerPath s.style ∈ known
    · rw [componentsPlan_cons_of_mem hp]
      exact (ih known).leave _
    · rw [componentsPlan_cons_of_notMem hp]
      split
      · exact (ih _).component _ _
      · exact .nil

theorem isShared_componentsPlan (known : List String) (ps : List Peripheral) :
    ∀ d ∈ (componentsPlan s known ps).deeds, d.isShared = true := by
  induction ps generalizing known with
  | nil => exact fun _ h => absurd h List.not_mem_nil
  | cons p ps ih =>
    by_cases hp : p.headerPath s.style ∈ known
    · rw [componentsPlan_cons_of_mem hp, List.forall_mem_cons]
      exact ⟨rfl, ih known⟩
    · rw [componentsPlan_cons_of_notMem hp]
      split
      · rw [List.forall_mem_cons, List.forall_mem_cons]
        exact ⟨rfl, rfl, ih _⟩
      · exact fun _ h => absurd h List.not_mem_nil

/-! ### Headers of the device alone -/

/-- The paths of the headers that belong to a device alone. -/
def ownPaths (s : Setting) (d : Device) : List Path :=
  [s.output.child (d.headerPathIn s.style.instancesDir),
    s.output.child (d.headerPathIn s.style.pioDir), s.output.child (d.headerName ++ ".h")]

theorem instancesPlan_writesOnly (d : Device) (ps : List Peripheral) :
    (instancesPlan s d ps).WritesOnly s.output
      [s.output.child (d.headerPathIn s.style.instancesDir)] :=
  (Plan.writesOnly_ofExcept _ _).bind fun lines =>
    (Plan.writesOnly_write _ _ lines).bind fun _ => Plan.writesOnly_ofExcept _ _

theorem pinsPlan_writesOnly (doc : Document) (d : Device) (ps : List Peripheral) :
    (pinsPlan s doc d ps).WritesOnly s.output [s.output.child (d.headerPathIn s.style.pioDir)] :=
  (Plan.writesOnly_ofExcept _ _).bind fun _ => (Plan.writesOnly_ofExcept _ _).bind fun lines =>
    (Plan.writesOnly_leave _ _).bind fun _ =>
      (Plan.writesOnly_write _ _ lines).bind fun _ => Plan.writesOnly_ofExcept _ _

theorem mainPlan_writesOnly (doc : Document) (dcrs : List ConfigRegister) (d : Device)
    (ps : List Peripheral) (opening : List Line) (components : List String) (instances : String)
    (pins : List Line) :
    (mainPlan s doc dcrs d ps opening components instances pins).WritesOnly s.output
      [s.output.child (d.headerName ++ ".h")] :=
  (Plan.writesOnly_ofExcept _ _).bind fun _ =>
    (Plan.writesOnly_write _ _ _).bind fun _ => Plan.writesOnly_ofExcept _ _

/-- A device has at most three headers of its own, and its plan writes each of them once. -/
theorem ownPlan_writesOnly (doc : Document) (dcrs : List ConfigRegister) (d : Device)
    (ps : List Peripheral) (opening : List Line) (components : List String) :
    (ownPlan s doc dcrs d ps opening components).WritesOnly s.output (ownPaths s d) := by
  refine (instancesPlan_writesOnly d ps).bind fun instances => ?_
  split
  · exact (pinsPlan_writesOnly doc d ps).bind fun path => mainPlan_writesOnly ..
  · exact (mainPlan_writesOnly ..).mono (List.sublist_cons_self _ _)

theorem exists_deeds_mainPlan {doc : Document} {dcrs : List ConfigRegister} {d : Device}
    {ps : List Peripheral} {opening : List Line} {components : List String} {instances : String}
    {pins : List Line} {path : Path}
    (h : (mainPlan s doc dcrs d ps opening components instances pins).result = .ok path) :
    path = s.output.child (d.headerName ++ ".h") ∧ ∃ back,
      (mainPlan s doc dcrs d ps opening components instances pins).deeds = [.write path (opening
        ++ MainHeader.includeLines "Device-specific Peripheral Definitions" components
        ++ back)] := by
  rw [mainPlan] at h ⊢
  obtain ⟨rest, hrest, h⟩ := Plan.result_bind_eq_ok.mp h
  refine ⟨(Except.ok.inj h).symm,
    MainHeader.includeLines "Device-specific Peripheral Instance Definitions" [instances]
    ++ Instances.idLines ps s.style ++ Instances.baseLines ps s.style ++ pins ++ rest, ?_⟩
  rw [Plan.bind_of_ok hrest, ← Except.ok.inj h]
  simp only [List.append_assoc]
  rfl

/-- A device has its main header when all of its own headers can be made: it is the last one to be
written and includes the component headers. -/
theorem exists_deeds_ownPlan {doc : Document} {dcrs : List ConfigRegister} {d : Device}
    {ps : List Peripheral} {opening : List Line} {components : List String} {path : Path}
    (h : (ownPlan s doc dcrs d ps opening components).result = .ok path) :
    path = s.output.child (d.headerName ++ ".h") ∧ ∃ ds back,
      (ownPlan s doc dcrs d ps opening components).deeds = ds ++ [.write path (opening
        ++ MainHeader.includeLines "Device-specific Peripheral Definitions" components
        ++ back)] := by
  rw [ownPlan] at h ⊢
  obtain ⟨instances, hinstances, h⟩ := Plan.result_bind_eq_ok.mp h
  rw [Plan.bind_of_ok hinstances]
  split at h
  · next hpio =>
    obtain ⟨pins, hpins, h⟩ := Plan.result_bind_eq_ok.mp h
    obtain ⟨hpath, back, hmain⟩ := exists_deeds_mainPlan h
    refine ⟨hpath, (instancesPlan s d ps).deeds ++ (pinsPlan s doc d ps).deeds, back, ?_⟩
    rw [if_pos hpio, Plan.bind_of_ok hpins, hmain]
    exact (List.append_assoc ..).symm
  · next hpio =>
    obtain ⟨hpath, back, hmain⟩ := exists_deeds_mainPlan h
    refine ⟨hpath, (instancesPlan s d ps).deeds, back, ?_⟩
    rw [if_neg hpio, hmain]

/-! ### The whole plan -/

/-- A document of which the device, the peripherals and the first part of the main header can be
read. -/
structure Opened (s : Setting) (doc : Document) (d : Device) (ps : List Peripheral)
    (opening : List Line) : Prop where
  device : doc.device = .ok d
  peripherals : (Document.Cache.peripherals doc []).1 = .ok ps
  opening : MainHeader.opening d doc.interrupts s.style s.license = .ok opening

/-- The notes that a plan begins with. -/
def openingDeeds (s : Setting) (doc : Document) (d : Device) : List Deed :=
  [.leave (Document.Cache.peripherals doc []).2.2, .leave [note d s.style]]

theorem Opened.external {doc : Document} {d : Device} {ps : List Peripheral} {opening : List Line}
    (h : Opened s doc d ps opening) : doc.external = Instances.external ps := by
  rw [Document.external, h.peripherals]

/-- The parts of the plan of a document that can be opened. -/
theorem Opened.plan_eq {doc : Document} {d : Device} {ps : List Peripheral} {opening : List Line}
    (h : Opened s doc d ps opening) (dcrs : List ConfigRegister) (known : List String) :
    plan s doc dcrs known = (⟨openingDeeds s doc d, .ok ()⟩ : Plan Unit) >>= fun _ =>
      componentsPlan s known doc.external >>= ownPlan s doc dcrs d ps opening := by
  rw [plan, h.device, Plan.ofExcept_ok_bind, h.opening, readPlan, h.peripherals, h.external]
  rfl

/-- A document that cannot be opened has no headers. -/
theorem plan_of_not_opened {doc : Document}
    (h : ∀ d ps opening, ¬ Opened s doc d ps opening) (dcrs : List ConfigRegister)
    (known : List String) :
    (plan s doc dcrs known).WritesOnly s.output [] ∧
      ∃ f, (plan s doc dcrs known).result = .error f := by
  rw [plan]
  cases hd : doc.device with
  | error f => exact ⟨Plan.writesOnly_ofExcept _ _, f, rfl⟩
  | ok d =>
    rw [Plan.ofExcept_ok_bind, readPlan]
    cases hps : (Document.Cache.peripherals doc []).1 with
    | error f =>
      have hnotes := Plan.writesOnly_leave s.output (Document.Cache.peripherals doc []).2.2
      exact ⟨⟨hnotes.own, hnotes.sublist⟩, f, rfl⟩
    | ok ps =>
      cases hopening : MainHeader.opening d doc.interrupts s.style s.license with
      | error f =>
        exact ⟨(Plan.writesOnly_leave _ _).bind fun _ => (Plan.writesOnly_leave _ _).bind fun _ =>
          Plan.writesOnly_ofExcept _ _, f, rfl⟩
      | ok opening => exact absurd ⟨hd, hps, hopening⟩ (h d ps opening)

/-- **A plan begins with notes, goes on with component headers and ends with headers of the device
alone.** -/
theorem exists_deeds_plan (s : Setting) (doc : Document) (dcrs : List ConfigRegister)
    (known : List String) :
    (plan s doc dcrs known).WritesOnly s.output [] ∨
      ∃ (d : Device) (own : Plan Path), doc.device = .ok d ∧
        own.WritesOnly s.output (ownPaths s d) ∧
        (plan s doc dcrs known).deeds = openingDeeds s doc d
          ++ ((componentsPlan s known doc.external).deeds ++ own.deeds) := by
  by_cases h : ∃ d ps opening, Opened s doc d ps opening
  · obtain ⟨d, ps, opening, h⟩ := h
    rw [h.plan_eq, Plan.mk_bind]
    cases hcomponents : (componentsPlan s known doc.external).result with
    | ok components =>
      refine .inr ⟨d, ownPlan s doc dcrs d ps opening components, h.device,
        ownPlan_writesOnly .., ?_⟩
      rw [Plan.bind_of_ok hcomponents]
    | error f =>
      refine .inr ⟨d, .ofExcept (.error f), h.device,
        (Plan.writesOnly_ofExcept _ _).mono (List.nil_sublist _), ?_⟩
      rw [Plan.bind_of_error hcomponents]
      exact congrArg _ (List.append_nil _).symm
  · push Not at h
    exact .inl (plan_of_not_opened h dcrs known).1

theorem orderly_plan (s : Setting) (doc : Document) (dcrs : List ConfigRegister)
    (known : List String) : Deed.Orderly (plan s doc dcrs known).deeds := by
  rcases exists_deeds_plan s doc dcrs known with h | ⟨d, own, -, h, hdeeds⟩
  · exact .of_isOwn h.own
  · rw [hdeeds]
    exact ((Deed.Orderly.nil.leave _).leave _).append
      ((orderly_componentsPlan _ _).append (.of_isOwn h.own))

theorem forget_notMem_plan (s : Setting) (doc : Document) (dcrs : List ConfigRegister)
    (known : List String) : Deed.forget ∉ (plan s doc dcrs known).deeds := by
  rcases exists_deeds_plan s doc dcrs known with h | ⟨d, own, -, h, hdeeds⟩
  · exact Deed.forget_notMem_of_isOwn h.own
  · rw [hdeeds, List.mem_append, List.mem_append, not_or, not_or]
    exact ⟨by simp [openingDeeds], Deed.forget_notMem_of_isShared (isShared_componentsPlan _ _),
      Deed.forget_notMem_of_isOwn h.own⟩

/-- **The component headers of a plan are the pending ones,** if it comes to them, up to the first
one with a fault. -/
theorem components_plan (s : Setting) (doc : Document) (dcrs : List ConfigRegister)
    (known : List String) :
    (plan s doc dcrs known).deeds.filterMap Deed.component? <+:
      untilFault ((pending s.style known doc.external).map (componentFile s)) := by
  rcases exists_deeds_plan s doc dcrs known with h | ⟨d, own, -, h, hdeeds⟩
  · rw [Deed.components_of_isOwn h.own]
    exact List.nil_prefix
  · rw [hdeeds, List.filterMap_append, List.filterMap_append, components_componentsPlan,
      Deed.components_of_isOwn h.own, List.append_nil]
    exact List.prefix_refl _

theorem Opened.deeds_plan {doc : Document} {d : Device} {ps : List Peripheral}
    {opening : List Line} (h : Opened s doc d ps opening) (dcrs : List ConfigRegister)
    (hlines : ∀ p ∈ pending s.style known doc.external, ∃ lines,
      ComponentHeader.lines p s.style s.license = .ok lines) :
    (plan s doc dcrs known).deeds = openingDeeds s doc d
      ++ ((componentsPlan s known doc.external).deeds ++ (ownPlan s doc dcrs d ps opening
        (doc.external.map fun p => p.headerPath s.style)).deeds) := by
  rw [h.plan_eq, Plan.mk_bind,
    Plan.bind_of_ok (componentsPlan_result_eq_ok.mpr ⟨hlines, rfl⟩)]

/-- **A plan has a result** if the document can be opened, and the pending component headers and the
headers of the device alone can be made. -/
theorem plan_result_eq_ok {doc : Document} {dcrs : List ConfigRegister} {path : Path} :
    (plan s doc dcrs known).result = .ok path ↔
      ∃ d ps opening, Opened s doc d ps opening ∧
        (∀ p ∈ pending s.style known doc.external, ∃ lines,
          ComponentHeader.lines p s.style s.license = .ok lines) ∧
        (ownPlan s doc dcrs d ps opening
          (doc.external.map fun p => p.headerPath s.style)).result = .ok path := by
  constructor
  · intro hresult
    by_cases h : ∃ d ps opening, Opened s doc d ps opening
    · obtain ⟨d, ps, opening, h⟩ := h
      rw [h.plan_eq, Plan.mk_bind] at hresult
      obtain ⟨components, hcomponents, hown⟩ := Plan.result_bind_eq_ok.mp hresult
      obtain ⟨hlines, rfl⟩ := componentsPlan_result_eq_ok.mp hcomponents
      exact ⟨d, ps, opening, h, hlines, hown⟩
    · push Not at h
      obtain ⟨-, f, hf⟩ := plan_of_not_opened h dcrs known
      rw [hf] at hresult
      cases hresult
  · rintro ⟨d, ps, opening, h, hlines, hown⟩
    rw [h.plan_eq, Plan.mk_bind,
      Plan.bind_of_ok (componentsPlan_result_eq_ok.mpr ⟨hlines, rfl⟩)]
    exact hown

/-- The component headers of a plan are those of its peripherals. -/
theorem exists_of_mem_components_plan {doc : Document} {dcrs : List ConfigRegister}
    {file : String × List Line}
    (h : file ∈ (plan s doc dcrs known).deeds.filterMap Deed.component?) :
    ∃ p ∈ doc.external, componentFile s p = .ok file := by
  obtain ⟨p, hp, hfile⟩ := List.mem_map.mp
    (ok_mem_of_mem_untilFault ((components_plan s doc dcrs known).subset h))
  exact ⟨p, (pending_sublist _ _).subset hp, hfile⟩

/-- The other headers of a plan belong to the device alone. -/
theorem exists_of_write_mem_plan {doc : Document} {dcrs : List ConfigRegister} {path : Path}
    {lines : List Line} (h : Deed.write path lines ∈ (plan s doc dcrs known).deeds) :
    ∃ d, doc.device = .ok d ∧ path ∈ ownPaths s d := by
  rcases exists_deeds_plan s doc dcrs known with hnone | ⟨d, own, hd, hown, hdeeds⟩
  · exact absurd (hnone.mem_paths h) List.not_mem_nil
  · rw [hdeeds, List.mem_append, List.mem_append] at h
    rcases h with h | h | h
    · simp [openingDeeds] at h
    · exact absurd (isShared_componentsPlan _ _ _ h) Bool.false_ne_true
    · exact ⟨d, hd, hown.mem_paths h⟩

/-- The component headers of a plan with a result are all pending ones. -/
theorem components_plan_of_ok {doc : Document} {dcrs : List ConfigRegister} {path : Path}
    (h : (plan s doc dcrs known).result = .ok path) :
    (plan s doc dcrs known).deeds.filterMap Deed.component? =
      (pending s.style known doc.external).filterMap fun p => (componentFile s p).toOption := by
  obtain ⟨d, ps, opening, hopened, hlines, -⟩ := plan_result_eq_ok.mp h
  rw [hopened.deeds_plan dcrs hlines, List.filterMap_append, List.filterMap_append,
    components_componentsPlan,
    Deed.components_of_isOwn (ownPlan_writesOnly ..).own, List.append_nil]
  refine untilFault_map_of_ok fun p hp => ?_
  obtain ⟨lines, hlines⟩ := hlines p hp
  exact ⟨_, by rw [componentFile, hlines]; rfl⟩

/-- A plan with a result writes its component headers, and then the headers of the device alone. -/
theorem Opened.writes_plan {doc : Document} {d : Device} {ps : List Peripheral}
    {opening : List Line} (h : Opened s doc d ps opening) (dcrs : List ConfigRegister)
    (hlines : ∀ p ∈ pending s.style known doc.external, ∃ lines,
      ComponentHeader.lines p s.style s.license = .ok lines) :
    Deed.writes s.output (plan s doc dcrs known).deeds
      = ((plan s doc dcrs known).deeds.filterMap Deed.component?).map
          (fun file => (s.output.child file.1, Line.fileText file.2))
        ++ Deed.writes s.output (ownPlan s doc dcrs d ps opening
          (doc.external.map fun p => p.headerPath s.style)).deeds := by
  rw [h.deeds_plan dcrs hlines, Deed.writes_append, Deed.writes_append,
    Deed.writes_of_isShared (isShared_componentsPlan _ _), List.filterMap_append,
    List.filterMap_append, Deed.components_of_isOwn (ownPlan_writesOnly ..).own, List.append_nil]
  rfl

/-- The plan of the headers that belong to a device alone, in a style without port pins. -/
theorem ownPlan_of_not_pio (hpio : s.style.pio = false) (doc : Document)
    (dcrs : List ConfigRegister) {d : Device} {ps : List Peripheral} {instances : List Line}
    (hinstances : InstanceHeader.lines d ps s.style s.license = .ok instances)
    (opening : List Line) (components : List String) :
    ownPlan s doc dcrs d ps opening components =
      let main := mainPlan s doc dcrs d ps opening components
        (d.headerPathIn s.style.instancesDir) []
      ⟨.write (s.output.child (d.headerPathIn s.style.instancesDir)) instances :: main.deeds,
        main.result⟩ := by
  rw [ownPlan, instancesPlan, hinstances, hpio]
  rfl

end ArmHeader

end ChipSupport
