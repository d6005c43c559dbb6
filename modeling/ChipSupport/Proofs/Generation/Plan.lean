import ChipSupport.Generation
import ChipSupport.Proofs.Files.Write

/-!
# Plans of runs

A run that writes headers decides by what it knows at its start which deeds to do, and does them one
after the other until one fails.  A plan lists these deeds, with the result that the run has if all
of them succeed.  A run that follows a plan can be looked at after every single deed, and what it
leaves behind can be read off the deeds that it has done.

## Main definitions

* `Deed`, `Deed.apply` — the things that a run does one at a time.
* `Deed.applyAll`, `Deed.completed` — deeds one after the other, and those that are done.
* `Plan`, `Plan.carryOut` — deeds with a result.
* `Run.Follows` — runs that do what a plan says.

## Main results

* `Run.perform_bind`, `Plan.carryOut_bind` — two runs or plans one after the other.
* `Run.Follows.bind` — plans are made along the steps of their runs.
* `Deed.applyAll_completed` — what a run leaves behind is what its completed deeds do.
-/

namespace ChipSupport

/-! ### Steps of runs -/

namespace Run

variable {α β : Type}

theorem perform_bind (t : Run α) (f : α → Run β) (g : Generation) :
    (t >>= f).perform g = match t.perform g with
      | (.ok a, g') => (f a).perform g'
      | (.error e, g') => (.error e, g') := by
  rw [perform, perform, ExceptT.run_bind, StateT.run_bind]
  rcases t.run.run g with ⟨e | a, g'⟩ <;> rfl

@[simp] theorem perform_ofExcept (x : Except Fault α) (g : Generation) :
    (ofExcept x).perform g = (x, g) := rfl

end Run

/-- What has been done after the lines of a file are written. -/
def Generation.write (g : Generation) (p : Path) (lines : List Line) : Except Fault Generation := do
  let files ← g.files.write p (Line.fileText lines)
  return { g with
    files, written := g.written ++ [p],
    notes := g.notes ++ [⟨.detail, .files, "wrote " ++ p.render⟩] }

theorem Run.perform_write (p : Path) (lines : List Line) (g : Generation) :
    (write p lines).perform g = match g.write p lines with
      | .ok g' => (.ok (), g')
      | .error f => (.error f, g) := by
  rw [Generation.write, write, perform_bind]
  change (ofExcept (g.files.write p (Line.fileText lines)) >>= _).perform g = _
  rw [perform_bind, perform_ofExcept]
  cases g.files.write p (Line.fileText lines) <;> rfl

/-- Writing changes the files and the log only. -/
theorem Generation.write_eq_ok {g g' : Generation} {p : Path} {lines : List Line}
    (h : g.write p lines = .ok g') :
    g'.components = g.components ∧ g.files.write p (Line.fileText lines) = .ok g'.files := by
  rw [write] at h
  obtain ⟨files, hfiles, h⟩ := Steps.bind_eq_ok_iff.mp h
  cases h
  exact ⟨rfl, hfiles⟩

theorem Generation.exists_write {g : Generation} {p : Path} {lines : List Line} {files : Files}
    (h : g.files.write p (Line.fileText lines) = .ok files) :
    ∃ g', g.write p lines = .ok g' ∧ g'.files = files :=
  ⟨_, Steps.bind_eq_ok_iff.mpr ⟨files, h, rfl⟩, rfl⟩

/-- Whether the component headers that are known to be written are files. -/
def Generation.Present (output : Path) (g : Generation) : Prop :=
  ∀ path ∈ g.components, g.files.isFile (output.child path).location = true

/-! ### Deeds -/

/-- One thing that a run does. -/
inductive Deed where
  /-- Leaving notes. -/
  | leave (notes : List Note)
  /-- Writing a header of the device itself. -/
  | write (path : Path) (lines : List Line)
  /-- Writing a component header, whose path begins in the output directory. -/
  | writeComponent (path : String) (lines : List Line)
  /-- Remembering that a component header is written. -/
  | remember (path : String)
  /-- Forgetting which component headers are written. -/
  | forget

namespace Deed

variable (output : Path)

/-- What has been done after a deed. -/
def apply (g : Generation) : Deed → Except Fault Generation
  | leave notes => .ok { g with notes := g.notes ++ notes }
  | write path lines => g.write path lines
  | writeComponent path lines => g.write (output.child path) lines
  | remember path => .ok { g with components := g.components ++ [path] }
  | forget => .ok { g with components := [] }

/-- What has been done after several deeds, all of which succeed. -/
def applyAll (ds : List Deed) (g : Generation) : Except Fault Generation :=
  ds.foldlM (apply output) g

/-- The deeds that are done one after the other, up to the first one that fails. -/
def completed : List Deed → Generation → List Deed
  | [], _ => []
  | d :: ds, g =>
    match d.apply output g with
    | .ok g' => d :: completed ds g'
    | .error _ => []

/-- The fault of the first deed that fails, and what has been done until then. -/
def perform : List Deed → Generation → Except Fault Unit × Generation
  | [], g => (.ok (), g)
  | d :: ds, g =>
    match d.apply output g with
    | .ok g' => perform ds g'
    | .error f => (.error f, g)

/-- The component headers that are known to be written after a deed. -/
def known (paths : List String) : Deed → List String
  | remember path => paths ++ [path]
  | forget => []
  | _ => paths

/-- The path and the lines of the file that a deed writes. -/
def file? : Deed → Option (Path × List Line)
  | write path lines => some (path, lines)
  | writeComponent path lines => some (output.child path, lines)
  | _ => none

/-- The path and the lines of the component header that a deed writes. -/
def component? : Deed → Option (String × List Line)
  | writeComponent path lines => some (path, lines)
  | _ => none

/-- The paths and the texts of the files that deeds write. -/
def writes (ds : List Deed) : List (Path × String) :=
  (ds.filterMap (file? output)).map fun file => (file.1, Line.fileText file.2)

/-- Whether a deed has nothing to do with component headers. -/
def isOwn : Deed → Bool
  | leave _ | write _ _ => true
  | _ => false

/-- Whether a deed has to do with a component header. -/
def isShared : Deed → Bool
  | leave _ | writeComponent _ _ | remember _ => true
  | _ => false

variable {output}

/-! ### Deeds one after the other -/

@[simp] theorem applyAll_nil (g : Generation) : applyAll output [] g = .ok g := rfl

theorem applyAll_cons_eq_ok {d : Deed} {ds : List Deed} {g h : Generation} :
    applyAll output (d :: ds) g = .ok h ↔
      ∃ g', d.apply output g = .ok g' ∧ applyAll output ds g' = .ok h := by
  rw [applyAll, List.foldlM_cons, Steps.bind_eq_ok_iff]
  rfl

theorem applyAll_append_eq_ok {ds es : List Deed} {g h : Generation} :
    applyAll output (ds ++ es) g = .ok h ↔
      ∃ g', applyAll output ds g = .ok g' ∧ applyAll output es g' = .ok h := by
  rw [applyAll, List.foldlM_append, Steps.bind_eq_ok_iff]
  rfl

theorem perform_append (ds es : List Deed) (g : Generation) :
    perform output (ds ++ es) g = match perform output ds g with
      | (.ok _, g') => perform output es g'
      | (.error f, g') => (.error f, g') := by
  induction ds generalizing g with
  | nil => rfl
  | cons d ds ih =>
    rw [List.cons_append, perform, perform]
    cases d.apply output g with
    | ok g' => exact ih g'
    | error f => rfl

/-- **What a run of deeds leaves behind is what its completed deeds do.** -/
theorem applyAll_completed (ds : List Deed) (g : Generation) :
    applyAll output (completed output ds g) g = .ok (perform output ds g).2 := by
  induction ds generalizing g with
  | nil => rfl
  | cons d ds ih =>
    rw [completed, perform]
    cases hd : d.apply output g with
    | ok g' => exact applyAll_cons_eq_ok.mpr ⟨g', hd, ih g'⟩
    | error f => rfl

theorem completed_prefix (ds : List Deed) (g : Generation) : completed output ds g <+: ds := by
  induction ds generalizing g with
  | nil => exact List.prefix_refl _
  | cons d ds ih =>
    rw [completed]
    cases d.apply output g with
    | ok g' => exact (List.prefix_cons_inj d).mpr (ih g')
    | error f => exact List.nil_prefix

/-- A run of deeds succeeds if all of them can be done. -/
theorem perform_eq_ok_iff {ds : List Deed} {g h : Generation} :
    perform output ds g = (.ok (), h) ↔ applyAll output ds g = .ok h := by
  induction ds generalizing g with
  | nil => rw [perform, applyAll_nil, Prod.mk.injEq, eq_self, true_and, Except.ok.injEq]
  | cons d ds ih =>
    rw [perform, applyAll_cons_eq_ok]
    cases d.apply output g with
    | ok g' => simp [ih]
    | error f => simp

/-! ### What deeds change -/

theorem components_apply {d : Deed} {g g' : Generation} (h : d.apply output g = .ok g') :
    g'.components = d.known g.components := by
  cases d with
  | write path lines => exact (Generation.write_eq_ok h).1
  | writeComponent path lines => exact (Generation.write_eq_ok h).1
  | _ =>
    cases h
    rfl

theorem components_applyAll {ds : List Deed} {g h : Generation}
    (hall : applyAll output ds g = .ok h) : h.components = ds.foldl known g.components := by
  induction ds generalizing g with
  | nil =>
    cases hall
    rfl
  | cons d ds ih =>
    obtain ⟨g', hd, hds⟩ := applyAll_cons_eq_ok.mp hall
    rw [List.foldl_cons, ← components_apply hd]
    exact ih hds

/-- A component header that is known was known before or is remembered by a deed. -/
theorem mem_components_applyAll {ds : List Deed} {g h : Generation}
    (hall : applyAll output ds g = .ok h) {path : String} (hpath : path ∈ h.components) :
    path ∈ g.components ∨ remember path ∈ ds := by
  induction ds generalizing g with
  | nil =>
    cases hall
    exact .inl hpath
  | cons d ds ih =>
    obtain ⟨g', hd, hds⟩ := applyAll_cons_eq_ok.mp hall
    rcases ih hds with hold | hmem
    · rw [components_apply hd] at hold
      cases d with
      | remember other =>
        rcases List.mem_append.mp hold with hold | hself
        · exact .inl hold
        · rw [List.mem_singleton.mp hself]
          exact .inr List.mem_cons_self
      | forget => cases hold
      | _ => exact .inl hold
    · exact .inr (List.mem_cons_of_mem _ hmem)

/-- A deed that writes a file writes its text, and no other deed changes the files. -/
theorem files_apply {d : Deed} {g g' : Generation} (h : d.apply output g = .ok g') :
    match d.file? output with
    | some file => g.files.write file.1 (Line.fileText file.2) = .ok g'.files
    | none => g'.files = g.files := by
  cases d with
  | write path lines => exact (Generation.write_eq_ok h).2
  | writeComponent path lines => exact (Generation.write_eq_ok h).2
  | _ =>
    cases h
    rfl

/-- A deed succeeds if it writes no file or can write it. -/
theorem exists_apply {d : Deed} {g : Generation} {files : Files}
    (h : match d.file? output with
      | some file => g.files.write file.1 (Line.fileText file.2) = .ok files
      | none => files = g.files) :
    ∃ g', d.apply output g = .ok g' ∧ g'.files = files := by
  cases d with
  | write path lines => exact Generation.exists_write h
  | writeComponent path lines => exact Generation.exists_write h
  | _ => exact ⟨_, rfl, h.symm⟩

theorem isFile_apply {d : Deed} {g g' : Generation} (h : d.apply output g = .ok g')
    {place : List String} (hplace : g.files.isFile place = true) :
    g'.files.isFile place = true := by
  have hfiles := files_apply h
  split at hfiles
  · exact (Files.written_of_write hfiles).isFile_mono hplace
  · rwa [hfiles]

theorem writes_append (ds es : List Deed) :
    writes output (ds ++ es) = writes output ds ++ writes output es := by
  rw [writes, List.filterMap_append, List.map_append]
  rfl

theorem writes_cons_write (path : Path) (lines : List Line) (ds : List Deed) :
    writes output (write path lines :: ds) = (path, Line.fileText lines) :: writes output ds := rfl

theorem mem_writes {ds : List Deed} {w : Path × String} (hw : w ∈ writes output ds) :
    (∃ component ∈ ds.filterMap component?,
      w = (output.child component.1, Line.fileText component.2)) ∨
      ∃ lines, write w.1 lines ∈ ds := by
  obtain ⟨file, hfile, rfl⟩ := List.mem_map.mp hw
  obtain ⟨d, hd, hfile⟩ := List.mem_filterMap.mp hfile
  cases d with
  | write path lines =>
    cases hfile
    exact .inr ⟨lines, hd⟩
  | writeComponent path lines =>
    cases hfile
    exact .inl ⟨(path, lines), List.mem_filterMap.mpr ⟨_, hd, rfl⟩, rfl⟩
  | _ => cases hfile

theorem mem_writes_of_write_mem {ds : List Deed} {path : Path} {lines : List Line}
    (h : write path lines ∈ ds) : path ∈ (writes output ds).map Prod.fst := by
  refine List.mem_map.mpr ⟨(path, Line.fileText lines), ?_, rfl⟩
  exact List.mem_map.mpr ⟨(path, lines), List.mem_filterMap.mpr ⟨_, h, rfl⟩, rfl⟩

theorem mem_writes_of_mem_components {ds : List Deed} {path : String} {lines : List Line}
    (h : (path, lines) ∈ ds.filterMap component?) :
    (output.child path, Line.fileText lines) ∈ writes output ds := by
  obtain ⟨d, hd, hfile⟩ := List.mem_filterMap.mp h
  refine List.mem_map.mpr ⟨(output.child path, lines), List.mem_filterMap.mpr ⟨d, hd, ?_⟩, rfl⟩
  cases d with
  | writeComponent =>
    cases hfile
    rfl
  | _ => cases hfile

theorem exists_apply_iff {d : Deed} {g : Generation} {files : Files} :
    (∃ g', d.apply output g = .ok g' ∧ g'.files = files) ↔
      g.files.writeAll (writes output [d]) = .ok files := by
  rw [writes, List.filterMap_cons, List.filterMap_nil]
  cases hd : d.file? output with
  | none =>
    constructor
    · rintro ⟨g', h, rfl⟩
      have hfiles := files_apply h
      rw [hd] at hfiles
      exact congrArg Except.ok hfiles.symm
    · intro h
      refine exists_apply ?_
      rw [hd]
      exact (Except.ok.inj h).symm
  | some file =>
    rw [List.map_singleton, Files.writeAll_cons_eq_ok]
    constructor
    · rintro ⟨g', h, rfl⟩
      have hfiles := files_apply h
      rw [hd] at hfiles
      exact ⟨g'.files, hfiles, rfl⟩
    · rintro ⟨_, hfiles, hrest⟩
      cases hrest
      refine exists_apply ?_
      rw [hd]
      exact hfiles

/-- **Whether deeds succeed, and which files they leave, depends on the files that they write.** -/
theorem exists_applyAll_iff {ds : List Deed} {g : Generation} {files : Files} :
    (∃ h, applyAll output ds g = .ok h ∧ h.files = files) ↔
      g.files.writeAll (writes output ds) = .ok files := by
  induction ds generalizing g with
  | nil =>
    constructor
    · rintro ⟨h, hall, rfl⟩
      cases hall
      rfl
    · intro h
      exact ⟨g, rfl, Except.ok.inj h⟩
  | cons d ds ih =>
    rw [← List.singleton_append, writes_append, Files.writeAll_append_eq_ok]
    constructor
    · rintro ⟨h, hall, rfl⟩
      obtain ⟨g', hd, hds⟩ := applyAll_cons_eq_ok.mp hall
      exact ⟨g'.files, exists_apply_iff.mp ⟨g', hd, rfl⟩, ih.mp ⟨h, hds, rfl⟩⟩
    · rintro ⟨_, hfirst, hrest⟩
      obtain ⟨g', hd, rfl⟩ := exists_apply_iff.mpr hfirst
      obtain ⟨h, hds, rfl⟩ := ih.mpr hrest
      exact ⟨h, applyAll_cons_eq_ok.mpr ⟨g', hd, hds⟩, rfl⟩

/-! ### Remembering component headers -/

theorem components_of_isOwn {ds : List Deed} (hds : ∀ d ∈ ds, d.isOwn = true) :
    ds.filterMap component? = [] := by
  rw [List.filterMap_eq_nil_iff]
  intro d hd
  have hown := hds d hd
  cases d with
  | leave | write => rfl
  | _ => cases hown

theorem forget_notMem_of_isOwn {ds : List Deed} (hds : ∀ d ∈ ds, d.isOwn = true) : forget ∉ ds :=
  fun h => Bool.false_ne_true (hds _ h)

theorem forget_notMem_of_isShared {ds : List Deed} (hds : ∀ d ∈ ds, d.isShared = true) :
    forget ∉ ds :=
  fun h => Bool.false_ne_true (hds _ h)

/-- The files of deeds that have to do with component headers are these headers. -/
theorem writes_of_isShared {ds : List Deed} (hds : ∀ d ∈ ds, d.isShared = true) :
    writes output ds = (ds.filterMap component?).map fun component =>
      (output.child component.1, Line.fileText component.2) := by
  induction ds with
  | nil => rfl
  | cons d ds ih =>
    rw [List.forall_mem_cons] at hds
    rw [← List.singleton_append, writes_append, ih hds.2, List.singleton_append,
      List.filterMap_cons]
    cases d with
    | leave | writeComponent | remember => rfl
    | _ => cases hds.1

/-- A deed that makes no other component headers known keeps those that are known as files. -/
theorem present_apply {d : Deed} {g g' : Generation} (hg : g.Present output)
    (h : d.apply output g = .ok g') (hknown : d.known g.components ⊆ g.components) :
    g'.Present output := by
  intro path hpath
  rw [components_apply h] at hpath
  exact isFile_apply h (hg path (hknown hpath))

/-- Deeds of which those that write a component header are the ones in front of those that remember
it. -/
inductive Orderly : List Deed → Prop
  | nil : Orderly []
  | leave (notes : List Note) {ds : List Deed} : Orderly ds → Orderly (leave notes :: ds)
  | write (path : Path) (lines : List Line) {ds : List Deed} :
      Orderly ds → Orderly (write path lines :: ds)
  | forget {ds : List Deed} : Orderly ds → Orderly (forget :: ds)
  | component (path : String) (lines : List Line) {ds : List Deed} :
      Orderly ds → Orderly (writeComponent path lines :: remember path :: ds)

namespace Orderly

variable {ds es : List Deed}

theorem append (hds : Orderly ds) (hes : Orderly es) : Orderly (ds ++ es) := by
  induction hds with
  | nil => exact hes
  | leave notes _ ih => exact ih.leave notes
  | write path lines _ ih => exact ih.write path lines
  | forget _ ih => exact ih.forget
  | component path lines _ ih => exact ih.component path lines

theorem of_isOwn (hds : ∀ d ∈ ds, d.isOwn = true) : Orderly ds := by
  induction ds with
  | nil => exact nil
  | cons d ds ih =>
    obtain ⟨hd, hrest⟩ := List.forall_mem_cons.mp hds
    cases d with
    | leave notes => exact (ih hrest).leave notes
    | write path lines => exact (ih hrest).write path lines
    | _ => cases hd

/-- A fault strikes while a component header is written, and not before it is remembered. -/
theorem completed (hds : Orderly ds) (g : Generation) : Orderly (completed output ds g) := by
  induction hds generalizing g with
  | nil => exact nil
  | leave notes _ ih => exact (ih _).leave notes
  | write path lines _ ih =>
    rw [Deed.completed]
    split
    · exact (ih _).write path lines
    · exact nil
  | forget _ ih => exact (ih _).forget
  | component path lines _ ih =>
    rw [Deed.completed]
    split
    · exact (ih _).component path lines
    · exact nil

/-- The component headers that are known afterwards are those that were known before and those that
are written. -/
theorem components_applyAll (hds : Orderly ds) (hforget : Deed.forget ∉ ds) {g h : Generation}
    (hall : applyAll output ds g = .ok h) :
    h.components = g.components ++ (ds.filterMap component?).map Prod.fst := by
  rw [Deed.components_applyAll hall]
  clear hall
  generalize g.components = known
  induction hds generalizing known with
  | nil => exact (List.append_nil known).symm
  | leave notes _ ih => exact ih (List.not_mem_of_not_mem_cons hforget) known
  | write path lines _ ih => exact ih (List.not_mem_of_not_mem_cons hforget) known
  | forget _ ih => exact absurd List.mem_cons_self hforget
  | component path lines _ ih =>
    have hrest := ih (fun h => hforget (List.mem_cons_of_mem _ (List.mem_cons_of_mem _ h)))
      (known ++ [path])
    rw [List.append_assoc] at hrest
    exact hrest

/-- Only component headers that are written are remembered. -/
theorem mem_components_of_remember (hds : Orderly ds) {path : String}
    (hpath : remember path ∈ ds) : path ∈ (ds.filterMap component?).map Prod.fst := by
  induction hds with
  | nil => cases hpath
  | leave _ _ ih | write _ _ _ ih | forget _ ih => exact ih (by simpa using hpath)
  | component other lines _ ih =>
    rw [List.mem_cons, List.mem_cons] at hpath
    rcases hpath with hpath | hpath | hpath
    · cases hpath
    · cases hpath
      exact List.mem_cons_self
    · exact List.mem_cons_of_mem _ (ih hpath)

/-- **After each deed, the component headers that are known are files.** -/
theorem present_of_isPrefix (hds : Orderly ds) {done : List Deed} (hdone : done <+: ds)
    {g h : Generation} (hg : g.Present output) (hall : applyAll output done g = .ok h) :
    h.Present output := by
  induction hds generalizing done g with
  | nil =>
    rw [List.prefix_nil.mp hdone] at hall
    cases hall
    exact hg
  | leave _ _ ih | write _ _ _ ih | forget _ ih =>
    obtain rfl | ⟨rest, rfl, hrest⟩ := List.prefix_cons_iff.mp hdone
    · cases hall
      exact hg
    · obtain ⟨g', hd, hrest'⟩ := applyAll_cons_eq_ok.mp hall
      exact ih hrest (present_apply hg hd (by simp [known])) hrest'
  | component path lines _ ih =>
    obtain rfl | ⟨front, rfl, hfront⟩ := List.prefix_cons_iff.mp hdone
    · cases hall
      exact hg
    obtain ⟨g₁, hwrite, hall⟩ := applyAll_cons_eq_ok.mp hall
    have hg₁ : g₁.Present output := present_apply hg hwrite (by simp [known])
    obtain rfl | ⟨rest, rfl, hrest⟩ := List.prefix_cons_iff.mp hfront
    · cases hall
      exact hg₁
    -- what is remembered has just been written
    obtain ⟨g₂, hremember, hall⟩ := applyAll_cons_eq_ok.mp hall
    refine ih hrest ?_ hall
    cases hremember
    intro q hq
    rcases List.mem_append.mp hq with hq | hq
    · exact hg₁ q hq
    · rw [List.mem_singleton.mp hq]
      exact (Files.written_of_write (files_apply hwrite)).isFile_self

end Orderly

end Deed

/-! ### Plans -/

/-- Deeds, and the result that a run has after all of them. -/
structure Plan (α : Type) where
  /-- The deeds. -/
  deeds : List Deed
  /-- The result. -/
  result : Except Fault α

namespace Plan

variable {α β : Type}

/-- The plan to do nothing. -/
def ofExcept (x : Except Fault α) : Plan α := ⟨[], x⟩

/-- The plan of one deed. -/
def act (d : Deed) : Plan Unit := ⟨[d], .ok ()⟩

/-- A plan and another one that begins with its result. -/
def andThen (p : Plan α) (f : α → Plan β) : Plan β :=
  match p.result with
  | .ok a => ⟨p.deeds ++ (f a).deeds, (f a).result⟩
  | .error e => ⟨p.deeds, .error e⟩

instance : Monad Plan where
  pure a := ofExcept (.ok a)
  bind := andThen

theorem bind_of_ok {p : Plan α} {a : α} (h : p.result = .ok a) (f : α → Plan β) :
    p >>= f = ⟨p.deeds ++ (f a).deeds, (f a).result⟩ := by
  change andThen p f = _
  rw [andThen, h]

theorem bind_of_error {p : Plan α} {e : Fault} (h : p.result = .error e) (f : α → Plan β) :
    p >>= f = ⟨p.deeds, .error e⟩ := by
  change andThen p f = _
  rw [andThen, h]

theorem ofExcept_ok_bind (a : α) (f : α → Plan β) : ofExcept (.ok a) >>= f = f a := rfl

theorem mk_bind (ds : List Deed) (a : α) (f : α → Plan β) :
    (⟨ds, .ok a⟩ : Plan α) >>= f = ⟨ds ++ (f a).deeds, (f a).result⟩ := rfl

/-- A plan that goes on with another one begins with its own deeds. -/
theorem exists_deeds_bind (p : Plan α) (f : α → Plan β) :
    ∃ later, (p >>= f).deeds = p.deeds ++ later := by
  cases h : p.result with
  | ok a => exact ⟨(f a).deeds, by rw [bind_of_ok h]⟩
  | error e => exact ⟨[], by rw [bind_of_error h, List.append_nil]⟩

theorem bind_pure_eq (p : Plan α) (f : α → β) :
    (p >>= fun a => pure (f a)) = ⟨p.deeds, p.result.map f⟩ := by
  cases h : p.result with
  | ok a => rw [bind_of_ok h]; exact congrArg (Plan.mk · _) (List.append_nil _)
  | error e => rw [bind_of_error h]; rfl

theorem result_bind_eq_ok {p : Plan α} {f : α → Plan β} {b : β} :
    (p >>= f).result = .ok b ↔ ∃ a, p.result = .ok a ∧ (f a).result = .ok b := by
  cases h : p.result with
  | ok a => simp [bind_of_ok h]
  | error e => simp [bind_of_error h]

/-- Plans that have nothing to do with component headers, and write to some paths at most, in their
order. -/
structure WritesOnly (output : Path) (p : Plan α) (paths : List Path) : Prop where
  own : ∀ d ∈ p.deeds, d.isOwn = true
  sublist : ((Deed.writes output p.deeds).map Prod.fst).Sublist paths

namespace WritesOnly

variable {output : Path} {paths others : List Path}

theorem mono {p : Plan α} (h : p.WritesOnly output paths) (hpaths : paths.Sublist others) :
    p.WritesOnly output others :=
  ⟨h.own, h.sublist.trans hpaths⟩

theorem bind {p : Plan α} (h : p.WritesOnly output paths) {f : α → Plan β}
    (hf : ∀ a, (f a).WritesOnly output others) : (p >>= f).WritesOnly output (paths ++ others) := by
  cases hp : p.result with
  | ok a =>
    rw [bind_of_ok hp]
    refine ⟨fun d hd => (List.mem_append.mp hd).elim (h.own d) ((hf a).own d), ?_⟩
    rw [Deed.writes_append, List.map_append]
    exact h.sublist.append (hf a).sublist
  | error e =>
    rw [bind_of_error hp]
    exact ⟨h.own, h.sublist.trans (List.sublist_append_left paths others)⟩

theorem mem_paths {p : Plan α} (h : p.WritesOnly output paths) {path : Path} {lines : List Line}
    (hwrite : Deed.write path lines ∈ p.deeds) : path ∈ paths :=
  h.sublist.subset (Deed.mem_writes_of_write_mem hwrite)

end WritesOnly

theorem writesOnly_ofExcept (output : Path) (x : Except Fault α) :
    (ofExcept x).WritesOnly output [] :=
  ⟨fun _ h => absurd h List.not_mem_nil, List.Sublist.refl _⟩

theorem writesOnly_leave (output : Path) (notes : List Note) :
    (act (.leave notes)).WritesOnly output [] :=
  ⟨fun _ h => List.mem_singleton.mp h ▸ rfl, List.Sublist.refl _⟩

theorem writesOnly_write (output path : Path) (lines : List Line) :
    (act (.write path lines)).WritesOnly output [path] :=
  ⟨fun _ h => List.mem_singleton.mp h ▸ rfl, List.Sublist.refl _⟩

/-- Carries out a plan. -/
def carryOut (output : Path) (p : Plan α) (g : Generation) : Except Fault α × Generation :=
  match Deed.perform output p.deeds g with
  | (.ok _, g') => (p.result, g')
  | (.error f, g') => (.error f, g')

theorem carryOut_bind (output : Path) (p : Plan α) (f : α → Plan β) (g : Generation) :
    (p >>= f).carryOut output g = match p.carryOut output g with
      | (.ok a, g') => (f a).carryOut output g'
      | (.error e, g') => (.error e, g') := by
  cases h : p.result with
  | error e =>
    rw [bind_of_error h, carryOut, carryOut, h]
    rcases Deed.perform output p.deeds g with ⟨f | ⟨⟩, g'⟩ <;> rfl
  | ok a =>
    rw [bind_of_ok h, carryOut, carryOut, Deed.perform_append, h]
    rcases Deed.perform output p.deeds g with ⟨f | ⟨⟩, g'⟩ <;> rfl

theorem snd_carryOut (output : Path) (p : Plan α) (g : Generation) :
    (p.carryOut output g).2 = (Deed.perform output p.deeds g).2 := by
  rw [carryOut]
  split <;> next h => rw [h]

/-- A plan is carried out with success if all of its deeds can be done and it has a result. -/
theorem carryOut_eq_ok_iff {output : Path} {p : Plan α} {g h : Generation} {a : α} :
    p.carryOut output g = (.ok a, h) ↔
      p.result = .ok a ∧ Deed.applyAll output p.deeds g = .ok h := by
  rw [← Deed.perform_eq_ok_iff, carryOut]
  rcases Deed.perform output p.deeds g with ⟨f | ⟨⟩, g'⟩ <;> simp

end Plan

/-! ### Runs that follow plans -/

namespace Run

variable {α β : Type} {output : Path} {known : List String}

/-- A run that does what a plan says, whenever it knows of certain component headers. -/
def Follows (output : Path) (known : List String) (t : Run α) (p : Plan α) : Prop :=
  ∀ g, g.components = known → t.perform g = p.carryOut output g

/-- Plans are made along the steps of their runs.  The second one may use what the first one has got
to know. -/
theorem Follows.bind {t : Run α} {p : Plan α} (h : Follows output known t p) {f : α → Run β}
    {q : α → Plan β}
    (hf : ∀ a, p.result = .ok a → Follows output (p.deeds.foldl Deed.known known) (f a) (q a)) :
    Follows output known (t >>= f) (p >>= q) := by
  intro g hg
  rw [perform_bind, Plan.carryOut_bind, h g hg]
  rcases hp : p.carryOut output g with ⟨e | a, g'⟩
  · rfl
  · obtain ⟨hresult, hall⟩ := Plan.carryOut_eq_ok_iff.mp hp
    exact hf a hresult g' (by rw [Deed.components_applyAll hall, hg])

theorem follows_pure (a : α) : Follows output known (pure a) (pure a) := fun _ _ => rfl

theorem follows_ofExcept (x : Except Fault α) :
    Follows output known (ofExcept x) (Plan.ofExcept x) := fun _ _ => rfl

theorem follows_leave (notes : List Note) :
    Follows output known (leave notes) (Plan.act (.leave notes)) := fun _ _ => rfl

theorem follows_write (path : Path) (lines : List Line) :
    Follows output known (write path lines) (Plan.act (.write path lines)) := by
  intro g _
  rw [perform_write, Plan.carryOut, Plan.act, Deed.perform, Deed.apply]
  cases g.write path lines <;> rfl

theorem follows_writeComponent (path : String) (lines : List Line) :
    Follows output known (write (output.child path) lines)
      (Plan.act (.writeComponent path lines)) := by
  intro g _
  rw [perform_write, Plan.carryOut, Plan.act, Deed.perform, Deed.apply]
  cases g.write (output.child path) lines <;> rfl

theorem follows_remember (path : String) :
    Follows output known (modify fun g => { g with components := g.components ++ [path] })
      (Plan.act (.remember path)) := fun _ _ => rfl

end Run

end ChipSupport
