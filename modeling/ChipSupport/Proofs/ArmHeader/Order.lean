import ChipSupport.Proofs.ArmHeader.Shared

/-!
# The order of devices

Headers of two devices are written for one output directory, in either order.  The second run leaves
out the component headers that the first one has written.  If these have the texts that the second
device needs, both orders leave the same files and know of the same component headers.

## Main results

* `ArmHeader.writes_plan_of_ok` — what a plan writes that knows of some component headers.
* `ArmHeader.exists_perform_after` — a run that succeeds alone also succeeds after another one.
* `ArmHeader.order_irrelevant` — **the order of two devices does not matter.**
-/

namespace ChipSupport

namespace ArmHeader

variable {s : Setting} {doc : Document} {dcrs : List ConfigRegister} {path : Path}

/-! ### Plans that know of component headers -/

/-- The component headers of a device of which none is known. -/
def components (s : Setting) (doc : Document) (dcrs : List ConfigRegister) :
    List (String × List Line) :=
  (plan s doc dcrs []).deeds.filterMap Deed.component?

/-- The path and the text of the file of a component header. -/
def componentWrite (output : Path) (file : String × List Line) : Path × String :=
  (output.child file.1, Line.fileText file.2)

/-- **A plan that knows of component headers writes the other ones,** and the headers that belong to
the device alone. -/
theorem writes_plan_of_ok (h : (plan s doc dcrs []).result = .ok path) :
    ∃ d own, doc.device = .ok d ∧ (own.map Prod.fst).Sublist (ownPaths s d) ∧
      ∀ known, (plan s doc dcrs known).result = .ok path ∧
        (plan s doc dcrs known).deeds.filterMap Deed.component?
          = (components s doc dcrs).filter (fun file => file.1 ∉ known) ∧
        Deed.writes s.output (plan s doc dcrs known).deeds
          = ((components s doc dcrs).filter fun file => file.1 ∉ known).map
              (componentWrite s.output) ++ own := by
  obtain ⟨d, ps, opening, hopened, hlines, hown⟩ := plan_result_eq_ok.mp h
  have hwritesOnly := ownPlan_writesOnly (s := s) doc dcrs d ps opening
    (doc.external.map fun p => p.headerPath s.style)
  have hpending : ∀ known, pending s.style known doc.external
      = (pending s.style [] doc.external).filter fun p => p.headerPath s.style ∉ known :=
    fun known => pending_eq_filter (by simp) _
  refine ⟨d, _, hopened.device, hwritesOnly.sublist, fun known => ?_⟩
  have hlines' : ∀ p ∈ pending s.style known doc.external, ∃ lines,
      ComponentHeader.lines p s.style s.license = .ok lines := by
    intro p hp
    rw [hpending] at hp
    exact hlines p (List.mem_of_mem_filter hp)
  have hresult : (plan s doc dcrs known).result = .ok path :=
    plan_result_eq_ok.mpr ⟨d, ps, opening, hopened, hlines', hown⟩
  have hcomponents : (plan s doc dcrs known).deeds.filterMap Deed.component?
      = (components s doc dcrs).filter fun file => file.1 ∉ known := by
    rw [components_plan_of_ok hresult, hpending, components, components_plan_of_ok h,
      List.filterMap_filter, List.filter_filterMap]
    refine List.filterMap_congr fun p _ => ?_
    rw [componentFile]
    cases ComponentHeader.lines p s.style s.license with
    | ok lines =>
      by_cases hknown : p.headerPath s.style ∈ known <;>
        simp [Except.map, Except.toOption, Option.filter, hknown]
    | error f => simp [Except.map, Except.toOption]
  refine ⟨hresult, hcomponents, ?_⟩
  rw [← hcomponents]
  exact hopened.writes_plan dcrs hlines'

/-! ### Directories of headers -/

/-- The directories in the output directory. -/
def headerDirectories : List String := ["component", "instances", "pio"]

/-- Paths of headers, in the output directory or in a directory in it. -/
inductive IsHeaderPath (output : Path) : Path → Prop
  | main (name : String) : IsHeaderPath output (below output [name ++ ".h"])
  | inside {dir : String} (hdir : dir ∈ headerDirectories) (name : String) :
      IsHeaderPath output (below output [dir, name ++ ".h"])

/-- Places of directories: those that are there, those on the way to the output directory, and those
in it. -/
def DirectoryPlace (output : Path) (files : Files) (place : List String) : Prop :=
  files.isDirectory place = true ∨ (∃ q ∈ output.way, q.location = place) ∨
    ∃ dir ∈ headerDirectories, place = output.location ++ [dir]

theorem ne_of_mem_headerDirectories {dir : String} (hdir : dir ∈ headerDirectories) :
    dir ≠ ".." ∧ ∀ name, name ++ ".h" ≠ dir := by
  rw [headerDirectories, List.mem_cons, List.mem_cons, List.mem_singleton] at hdir
  rcases hdir with rfl | rfl | rfl <;> exact ⟨by decide, fun name => header_ne name (by decide)⟩

theorem way_below_single (output : Path) (name : String) :
    (below output [name]).parent.way = output.way := by
  have hparent : (below output [name]).parent = below output [] := output.parent_append [] name
  rw [hparent, below, List.append_nil]

theorem way_below_pair (output : Path) (dir name : String) :
    (below output [dir, name]).parent.way = output.way ++ [below output [dir]] := by
  have hparent : (below output [dir, name]).parent = below output [dir] :=
    output.parent_append [dir] name
  rw [hparent]
  exact output.way_append dir

/-- A header that can be written is not at the place of a directory. -/
theorem IsHeaderPath.fits {output p : Path} (h : IsHeaderPath output p) {files : Files}
    (hfree : files.isDirectory p.location = false)
    (hway : ∀ q ∈ p.parent.way, q.location ≠ p.location) :
    p.Fits (DirectoryPlace output files) := by
  have houter : (∀ q ∈ output.way, q ∈ p.parent.way) →
      (∀ dir ∈ headerDirectories, p.location ≠ output.location ++ [dir]) →
      ¬ DirectoryPlace output files p.location := by
    rintro hsub hinside (hthere | ⟨q, hq, hplace⟩ | ⟨dir, hdir, hplace⟩)
    · exact Bool.false_ne_true (hfree.symm.trans hthere)
    · exact hway q (hsub q hq) hplace
    · exact hinside dir hdir hplace
  cases h with
  | main name =>
    rw [way_below_single] at houter
    refine ⟨fun q hq => ?_, houter (fun _ hq => hq) fun dir hdir hplace => ?_⟩
    · rw [way_below_single] at hq
      exact .inr (.inl ⟨q, hq, rfl⟩)
    · rw [location_below (dots_notMem_single _), List.append_cancel_left_eq, List.singleton_inj]
        at hplace
      exact (ne_of_mem_headerDirectories hdir).2 name hplace
  | @inside dir hdir name =>
    have hdots := (ne_of_mem_headerDirectories hdir).1
    rw [way_below_pair] at houter
    refine ⟨fun q hq => ?_, houter (fun _ hq => List.mem_append_left _ hq) fun _ _ hplace => ?_⟩
    · rw [way_below_pair] at hq
      rcases List.mem_append.mp hq with hq | hq
      · exact .inr (.inl ⟨q, hq, rfl⟩)
      · rw [List.mem_singleton.mp hq, location_below (by simpa using Ne.symm hdots)]
        exact .inr (.inr ⟨dir, hdir, rfl⟩)
    · rw [location_below (dots_notMem_pair hdots _), List.append_cancel_left_eq] at hplace
      cases hplace

/-- The headers of a document with plain names. -/
theorem isHeaderPath_of_mem_writes (hstyle : s.style ∈ Style.presets) (hplain : PlainNames doc)
    {known : List String} {w : Path × String}
    (hw : w ∈ Deed.writes s.output (plan s doc dcrs known).deeds) : IsHeaderPath s.output w.1 := by
  rcases Deed.mem_writes hw with ⟨file, hfile, rfl⟩ | ⟨lines, hwrite⟩
  · obtain ⟨p, hp, hfile⟩ := exists_of_mem_components_plan hfile
    obtain ⟨hname, hid⟩ := hplain.peripheral p hp
    rw [← (componentFile_eq_ok_iff.mp hfile).1, child_headerPath_of_plain hstyle hname hid]
    exact .inside (by decide) _
  · obtain ⟨d, hd, hpath⟩ := exists_of_write_mem_plan hwrite
    rw [ownPaths_eq hstyle (hplain.device d hd), List.mem_cons, List.mem_cons,
      List.mem_singleton] at hpath
    rcases hpath with hpath | hpath | hpath
    · exact hpath ▸ .inside (by decide) _
    · exact hpath ▸ .inside (by decide) _
    · exact hpath ▸ .main _

/-! ### One device after another -/

section TwoDevices

variable {files : Files} {first second : Job} {path₁ path₂ : Path} {g₁ g₂ : Generation}

/-- The paths and the texts of the headers that are written for a device, if some component headers
are known. -/
def headerWrites (s : Setting) (known : List String) (job : Job) : List (Path × String) :=
  Deed.writes s.output (plan s job.doc job.dcrs known).deeds

/-- The headers of a device, if no component header is known. -/
def aloneWrites (s : Setting) (job : Job) : List (Path × String) := headerWrites s [] job

theorem aloneWrites_eq {job : Job} {own : List (Path × String)}
    (h : ∀ known, headerWrites s known job
      = ((components s job.doc job.dcrs).filter fun file => file.1 ∉ known).map
          (componentWrite s.output) ++ own) :
    aloneWrites s job = (components s job.doc job.dcrs).map (componentWrite s.output) ++ own := by
  rw [aloneWrites, h]
  simp

/-- A run that succeeds alone writes the headers of its device. -/
theorem writeAll_aloneWrites
    (h : (generate s first.doc first.dcrs).perform { files } = (.ok path₁, g₁)) :
    files.writeAll (aloneWrites s first) = .ok g₁.files :=
  Deed.exists_applyAll_iff.mp ⟨g₁, (perform_generate_eq_ok_iff.mp h).2, rfl⟩

/-- Headers that can be written are not at places of directories. -/
theorem fits_aloneWrites (hstyle : s.style ∈ Style.presets) (hplain : PlainNames first.doc)
    (h : (generate s first.doc first.dcrs).perform { files } = (.ok path₁, g₁)) :
    ∀ w ∈ aloneWrites s first, w.1.Fits (DirectoryPlace s.output files) := by
  intro w hw
  obtain ⟨hfree, hway⟩ := Files.target_writeAll (writeAll_aloneWrites h) hw
  exact (isHeaderPath_of_mem_writes hstyle hplain hw).fits hfree hway

theorem components_of_ok
    (h : (generate s first.doc first.dcrs).perform { files } = (.ok path₁, g₁)) :
    g₁.components = (components s first.doc first.dcrs).map Prod.fst :=
  (orderly_plan _ _ _ _).components_applyAll (forget_notMem_plan _ _ _ _)
    (perform_generate_eq_ok_iff.mp h).2

/-- A component header that is known after a run has been written by it. -/
theorem mem_aloneWrites_of_known
    (h : (generate s first.doc first.dcrs).perform { files } = (.ok path₁, g₁)) {path : String}
    (hpath : path ∈ g₁.components) : ∃ w ∈ aloneWrites s first, w.1 = s.output.child path := by
  rw [components_of_ok h] at hpath
  obtain ⟨⟨_, lines⟩, hfile, rfl⟩ := List.mem_map.mp hpath
  exact ⟨_, Deed.mem_writes_of_mem_components hfile, rfl⟩

/-- The headers of another device that are left can be written after those of the first one. -/
theorem exists_writeAll_after (hstyle : s.style ∈ Style.presets) (hempty : files.texts = [])
    (hplain₁ : PlainNames first.doc) (hplain₂ : PlainNames second.doc)
    (h₁ : (generate s first.doc first.dcrs).perform { files } = (.ok path₁, g₁))
    (h₂ : (generate s second.doc second.dcrs).perform { files } = (.ok path₂, g₂)) :
    ∃ fs, g₁.files.writeAll (headerWrites s g₁.components second) = .ok fs := by
  obtain ⟨_, own, -, -, hplan⟩ := writes_plan_of_ok (perform_generate_eq_ok_iff.mp h₂).1
  have hwrites : ∀ known, headerWrites s known second = _ := fun known => (hplan known).2.2
  have hall₁ := writeAll_aloneWrites h₁
  have hall₂ := writeAll_aloneWrites h₂
  have hfit₂ := fits_aloneWrites hstyle hplain₂ h₂
  rw [aloneWrites_eq hwrites] at hall₂ hfit₂
  obtain ⟨fs, hshared, hown⟩ := Files.writeAll_append_eq_ok.mp hall₂
  have hstart : files.Apart (DirectoryPlace s.output files) := by
    refine ⟨fun _ hplace => .inl hplace, fun place hplace => ?_⟩
    rw [Files.isFile, Files.text?, hempty] at hplace
    cases hplace
  -- the component headers that are not known, and then the headers of the device alone
  obtain ⟨gs, hgs, hapart, hmore⟩ := Files.exists_writeAll_filter (componentWrite s.output)
    (fun file => file.1 ∉ g₁.components) hshared
    (fun file hfile => hfit₂ _ (List.mem_append_left _ (List.mem_map_of_mem hfile)))
    (Files.apart_writeAll hall₁ (fits_aloneWrites hstyle hplain₁ h₁) hstart)
    (fun place hplace => (Files.isDirectory_writeAll hall₁ place).mpr (.inl hplace))
    (fun file _ hknown q hq => by
      rw [decide_eq_false_iff_not, not_not] at hknown
      obtain ⟨w, hw, hpath⟩ := mem_aloneWrites_of_known h₁ hknown
      exact (Files.isDirectory_writeAll hall₁ _).mpr (.inr ⟨w, hw, q, hpath ▸ hq, rfl⟩))
  rw [← List.map_id own] at hown
  obtain ⟨gs', hgs', -, -⟩ := Files.exists_writeAll_filter id (fun _ => true) hown
    (fun w hw => hfit₂ w (List.mem_append_right _ hw)) hapart hmore
    (fun _ _ h => absurd h.symm Bool.false_ne_true)
  rw [List.filter_true, List.map_id] at hgs'
  rw [hwrites]
  exact ⟨gs', Files.writeAll_append_eq_ok.mpr ⟨gs, hgs, hgs'⟩⟩

/-- The headers that are left are headers of the device. -/
theorem headerWrites_subset (h : (plan s second.doc second.dcrs []).result = .ok path₂)
    (known : List String) : headerWrites s known second ⊆ aloneWrites s second := by
  obtain ⟨_, own, -, -, hplan⟩ := writes_plan_of_ok h
  rw [aloneWrites_eq fun known => (hplan known).2.2]
  intro w hw
  rw [headerWrites, (hplan known).2.2] at hw
  exact ((List.filter_sublist.map _).append (List.Sublist.refl _)).subset hw

/-- The headers that are not left have been written for the first device. -/
theorem headerWrites_covers
    (h₁ : (generate s first.doc first.dcrs).perform { files } = (.ok path₁, g₁))
    (h₂ : (plan s second.doc second.dcrs []).result = .ok path₂) {w : Path × String}
    (hw : w ∈ aloneWrites s second) :
    ∃ v ∈ aloneWrites s first ++ headerWrites s g₁.components second, v.1 = w.1 := by
  obtain ⟨_, own, -, -, hplan⟩ := writes_plan_of_ok h₂
  rw [aloneWrites_eq fun known => (hplan known).2.2] at hw
  rw [headerWrites, (hplan _).2.2]
  rcases List.mem_append.mp hw with hw | hw
  · obtain ⟨file, hfile, rfl⟩ := List.mem_map.mp hw
    by_cases hknown : file.1 ∈ g₁.components
    · obtain ⟨v, hv, hpath⟩ := mem_aloneWrites_of_known h₁ hknown
      exact ⟨v, List.mem_append_left _ hv, hpath⟩
    · have hleft : file ∈ (components s second.doc second.dcrs).filter
          fun file => file.1 ∉ g₁.components := List.mem_filter.mpr ⟨hfile, decide_eq_true hknown⟩
      exact ⟨_, List.mem_append_right _ (List.mem_append_left _ (List.mem_map_of_mem hleft)), rfl⟩
  · exact ⟨w, List.mem_append_right _ (List.mem_append_right _ hw), rfl⟩

/-- A component header is known after two runs if it is after one of them alone. -/
theorem mem_components_after {g : Generation}
    (h₂ : (generate s second.doc second.dcrs).perform { files } = (.ok path₂, g₂))
    (h : (generate s second.doc second.dcrs).perform g₁ = (.ok path₂, g)) (path : String) :
    path ∈ g.components ↔ path ∈ g₁.components ∨ path ∈ g₂.components := by
  obtain ⟨_, own, -, -, hplan⟩ := writes_plan_of_ok (perform_generate_eq_ok_iff.mp h₂).1
  rw [(orderly_plan _ _ _ _).components_applyAll (forget_notMem_plan _ _ _ _)
    (perform_generate_eq_ok_iff.mp h).2, (hplan _).2.1, components_of_ok h₂, List.mem_append]
  by_cases hpath : path ∈ g₁.components
  · exact iff_of_true (.inl hpath) (.inl hpath)
  · refine or_congr_right ⟨fun hmem => (List.filter_sublist.map Prod.fst).subset hmem, ?_⟩
    intro hmem
    obtain ⟨file, hfile, rfl⟩ := List.mem_map.mp hmem
    exact List.mem_map_of_mem (List.mem_filter.mpr ⟨hfile, decide_eq_true hpath⟩)

/-- **A run that succeeds alone also succeeds after another one,** and leaves out the component
headers that are known then. -/
theorem exists_perform_after (hstyle : s.style ∈ Style.presets) (hempty : files.texts = [])
    (hplain₁ : PlainNames first.doc) (hplain₂ : PlainNames second.doc)
    (h₁ : (generate s first.doc first.dcrs).perform { files } = (.ok path₁, g₁))
    (h₂ : (generate s second.doc second.dcrs).perform { files } = (.ok path₂, g₂)) :
    ∃ g, (generate s second.doc second.dcrs).perform g₁ = (.ok path₂, g) ∧
      files.writeAll (aloneWrites s first ++ headerWrites s g₁.components second)
        = .ok g.files := by
  obtain ⟨_, own, -, -, hplan⟩ := writes_plan_of_ok (perform_generate_eq_ok_iff.mp h₂).1
  obtain ⟨fs, hfs⟩ := exists_writeAll_after hstyle hempty hplain₁ hplain₂ h₁ h₂
  obtain ⟨g, hg, rfl⟩ := Deed.exists_applyAll_iff.mpr hfs
  exact ⟨g, perform_generate_eq_ok_iff.mpr ⟨(hplan _).1, hg⟩,
    Files.writeAll_append_eq_ok.mpr ⟨g₁.files, writeAll_aloneWrites h₁, hfs⟩⟩

/-- Two devices have headers at the places of those of each, with the same texts. -/
theorem text?_after (hagree : ∀ v ∈ aloneWrites s first ++ aloneWrites s second,
      ∀ w ∈ aloneWrites s first ++ aloneWrites s second,
        v.1.location = w.1.location → v.2 = w.2)
    (h₁ : (generate s first.doc first.dcrs).perform { files } = (.ok path₁, g₁))
    (h₂ : (plan s second.doc second.dcrs []).result = .ok path₂) {fs : Files}
    (hfs : files.writeAll (aloneWrites s first ++ headerWrites s g₁.components second)
      = .ok fs) :
    (∀ w ∈ aloneWrites s first ++ aloneWrites s second, fs.text? w.1.location = some w.2) ∧
      ∀ place, (∀ w ∈ aloneWrites s first ++ aloneWrites s second, w.1.location ≠ place) →
        fs.text? place = files.text? place := by
  refine Files.text?_writeAll_of_covers hfs hagree
    (List.append_subset.mpr ⟨List.subset_append_left _ _, fun w hw =>
      List.mem_append_right _ (headerWrites_subset h₂ _ hw)⟩) fun w hw => ?_
  rcases List.mem_append.mp hw with hw | hw
  · exact ⟨w, List.mem_append_left _ hw, rfl⟩
  · obtain ⟨v, hv, hpath⟩ := headerWrites_covers h₁ h₂ hw
    exact ⟨v, hv, congrArg Path.location hpath⟩

/-- The headers of a device are component headers, or belong to it alone and have paths of its
own. -/
theorem exists_own_aloneWrites {path : Path} {job : Job}
    (h : (plan s job.doc job.dcrs []).result = .ok path) :
    ∃ (d : Device) (own : List (Path × String)), job.doc.device = .ok d ∧
      (own.map Prod.fst).Sublist (ownPaths s d) ∧
      ∀ w ∈ aloneWrites s job, (∃ p ∈ job.doc.external,
        w.1 = s.output.child (p.headerPath s.style) ∧
        (ComponentHeader.lines p s.style s.license).map Line.fileText = .ok w.2) ∨ w ∈ own := by
  obtain ⟨d, own, hd, hsublist, hplan⟩ := writes_plan_of_ok h
  refine ⟨d, own, hd, hsublist, fun w hw => ?_⟩
  rw [aloneWrites_eq fun known => (hplan known).2.2] at hw
  refine (List.mem_append.mp hw).imp_left fun hw => ?_
  obtain ⟨file, hfile, rfl⟩ := List.mem_map.mp hw
  obtain ⟨p, hp, hfile⟩ := exists_of_mem_components_plan hfile
  obtain ⟨hpath, hlines⟩ := componentFile_eq_ok_iff.mp hfile
  exact ⟨p, hp, by rw [hpath]; rfl, by rw [hlines]; rfl⟩

/-- The headers that belong to one of two devices alone have different places. -/
theorem nodup_ownPaths (hstyle : s.style ∈ Style.presets) {d e : Device} (hd : '/' ∉ d.name.toList)
    (he : '/' ∉ e.name.toList) (hne : d.headerName ≠ e.headerName) :
    ((ownPaths s d ++ ownPaths s e).map Path.location).Nodup := by
  rw [List.map_append, location_ownPaths hstyle hd, location_ownPaths hstyle he]
  have hname : d.headerName ++ ".h" ≠ e.headerName ++ ".h" := by
    simpa using hne
  simp [hname]

/-- The headers of two devices that are written to the same place have the same text. -/
theorem aloneWrites_agree (hstyle : s.style ∈ Style.presets)
    (hplain₁ : PlainNames first.doc) (hplain₂ : PlainNames second.doc)
    (hnames : ∀ d e, first.doc.device = .ok d → second.doc.device = .ok e →
      d.headerName ≠ e.headerName)
    (htexts : SameTexts s [first, second])
    (h₁ : (plan s first.doc first.dcrs []).result = .ok path₁)
    (h₂ : (plan s second.doc second.dcrs []).result = .ok path₂) :
    ∀ v ∈ aloneWrites s first ++ aloneWrites s second,
      ∀ w ∈ aloneWrites s first ++ aloneWrites s second,
        v.1.location = w.1.location → v.2 = w.2 := by
  obtain ⟨d, own₁, hd, hsublist₁, hcases₁⟩ := exists_own_aloneWrites h₁
  obtain ⟨e, own₂, he, hsublist₂, hcases₂⟩ := exists_own_aloneWrites h₂
  have hapart : PlacesApart s [first, second] :=
    placesApart_of_plainNames hstyle (by simp [hplain₁, hplain₂])
  have hexternal : ∀ job ∈ [first, second], ∀ p ∈ job.doc.external,
      p ∈ externals [first, second] :=
    fun job hjob p hp => List.mem_flatMap.mpr ⟨job, hjob, hp⟩
  -- every header is a component header, or belongs to one of the devices alone
  have hcases : ∀ w ∈ aloneWrites s first ++ aloneWrites s second,
      (∃ p ∈ externals [first, second], w.1 = s.output.child (p.headerPath s.style) ∧
        (ComponentHeader.lines p s.style s.license).map Line.fileText = .ok w.2) ∨
      w ∈ own₁ ++ own₂ := by
    intro w hw
    rcases List.mem_append.mp hw with hw | hw
    · rcases hcases₁ w hw with ⟨p, hp, hfile⟩ | hw
      · exact .inl ⟨p, hexternal first (by simp) p hp, hfile⟩
      · exact .inr (List.mem_append_left _ hw)
    · rcases hcases₂ w hw with ⟨p, hp, hfile⟩ | hw
      · exact .inl ⟨p, hexternal second (by simp) p hp, hfile⟩
      · exact .inr (List.mem_append_right _ hw)
  have hnodup : ((own₁ ++ own₂).map fun w => w.1.location).Nodup := by
    have hsublist := (hsublist₁.append hsublist₂).map Path.location
    rw [← List.map_append, List.map_map] at hsublist
    exact (nodup_ownPaths hstyle (hplain₁.device d hd) (hplain₂.device e he)
      (hnames d e hd he)).sublist hsublist
  have hown : ∀ p ∈ externals [first, second], ∀ w ∈ own₁ ++ own₂,
      w.1.location ≠ (s.output.child (p.headerPath s.style)).location := by
    intro p hp w hw
    rcases List.mem_append.mp hw with hw | hw
    · exact hapart.own p hp first (by simp) d hd _ (hsublist₁.subset (List.mem_map_of_mem hw))
    · exact hapart.own p hp second (by simp) e he _ (hsublist₂.subset (List.mem_map_of_mem hw))
  intro v hv w hw hplace
  rcases hcases v hv with ⟨p, hp, hvpath, hvtext⟩ | hvown
  · rcases hcases w hw with ⟨q, hq, hwpath, hwtext⟩ | hwown
    · rw [hvpath, hwpath] at hplace
      have hpath := hapart.components p hp q hq hplace
      exact Except.ok.inj (hvtext.symm.trans ((htexts p hp q hq hpath).trans hwtext))
    · exact absurd (hplace.symm.trans (congrArg Path.location hvpath)) (hown p hp w hwown)
  · rcases hcases w hw with ⟨q, hq, hwpath, -⟩ | hwown
    · exact absurd (hplace.trans (congrArg Path.location hwpath)) (hown q hq v hvown)
    · rw [List.inj_on_of_nodup_map hnodup hvown hwown hplace]

end TwoDevices

/-- **The order of two devices does not matter.**  In a preset style, for documents with plain names
of different devices, of which the headers can be written alone where there are no files yet: if
their component headers at the same path have the same text, the headers of both can be written in
either order, and both orders leave the same files and know of the same component headers. -/
theorem order_irrelevant {s : Setting} (hstyle : s.style ∈ Style.presets) {files : Files}
    (hempty : files.texts = []) {first second : Job}
    (hplain₁ : PlainNames first.doc) (hplain₂ : PlainNames second.doc)
    (hnames : ∀ d e, first.doc.device = .ok d → second.doc.device = .ok e →
      Text.lower d.name ≠ Text.lower e.name)
    (htexts : SameTexts s [first, second]) {path₁ path₂ : Path} {g₁ g₂ : Generation}
    (h₁ : (generate s first.doc first.dcrs).perform { files } = (.ok path₁, g₁))
    (h₂ : (generate s second.doc second.dcrs).perform { files } = (.ok path₂, g₂)) :
    ∃ g₁₂ g₂₁, (generate s second.doc second.dcrs).perform g₁ = (.ok path₂, g₁₂) ∧
      (generate s first.doc first.dcrs).perform g₂ = (.ok path₁, g₂₁) ∧
      (∀ place, g₁₂.files.text? place = g₂₁.files.text? place) ∧
      ∀ path, path ∈ g₁₂.components ↔ path ∈ g₂₁.components := by
  have hplan₁ := (perform_generate_eq_ok_iff.mp h₁).1
  have hplan₂ := (perform_generate_eq_ok_iff.mp h₂).1
  obtain ⟨g₁₂, h₁₂, hfiles₁₂⟩ := exists_perform_after hstyle hempty hplain₁ hplain₂ h₁ h₂
  obtain ⟨g₂₁, h₂₁, hfiles₂₁⟩ := exists_perform_after hstyle hempty hplain₂ hplain₁ h₂ h₁
  have hagree := aloneWrites_agree hstyle hplain₁ hplain₂ hnames htexts hplan₁ hplan₂
  have hswap : ∀ w, w ∈ aloneWrites s second ++ aloneWrites s first ↔
      w ∈ aloneWrites s first ++ aloneWrites s second := by
    intro w
    rw [List.mem_append, List.mem_append, or_comm]
  obtain ⟨hall, hrest⟩ := text?_after hagree h₁ hplan₂ hfiles₁₂
  obtain ⟨hall', hrest'⟩ := text?_after
    (fun v hv w hw => hagree v ((hswap v).mp hv) w ((hswap w).mp hw)) h₂ hplan₁ hfiles₂₁
  refine ⟨g₁₂, g₂₁, h₁₂, h₂₁, fun place => ?_, fun path => ?_⟩
  · by_cases hplace : ∃ w ∈ aloneWrites s first ++ aloneWrites s second, w.1.location = place
    · obtain ⟨w, hw, rfl⟩ := hplace
      rw [hall w hw, hall' w ((hswap w).mpr hw)]
    · push Not at hplace
      rw [hrest place hplace, hrest' place fun w hw => hplace w ((hswap w).mp hw)]
  · rw [mem_components_after h₂ h₁₂, mem_components_after h₁ h₂₁, or_comm]

theorem order_irrelevant_timers :
    timerSetting.style ∈ Style.presets ∧ PlainNames (timerDocument "DEVA" "1") ∧
    PlainNames (timerDocument "DEVB" "1") ∧ Text.lower "DEVA" ≠ Text.lower "DEVB" ∧
    SameTexts timerSetting [timerJob "DEVA" "1", timerJob "DEVB" "1"] ∧
    ∃ path₁ path₂ g₁ g₂ g₁₂ g₂₁,
      (generate timerSetting (timerDocument "DEVA" "1") []).perform {} = (.ok path₁, g₁) ∧
      (generate timerSetting (timerDocument "DEVB" "1") []).perform {} = (.ok path₂, g₂) ∧
      (generate timerSetting (timerDocument "DEVB" "1") []).perform g₁ = (.ok path₂, g₁₂) ∧
      (generate timerSetting (timerDocument "DEVA" "1") []).perform g₂ = (.ok path₁, g₂₁) ∧
      (∀ place, g₁₂.files.text? place = g₂₁.files.text? place) ∧
      ∀ path, path ∈ g₁₂.components ↔ path ∈ g₂₁.components := by
  obtain ⟨hplain₁, hplain₂⟩ := plainNames_timerDocument "1"
  have hlower : Text.lower "DEVA" ≠ Text.lower "DEVB" := by decide +kernel
  have htexts : SameTexts timerSetting [timerJob "DEVA" "1", timerJob "DEVB" "1"] := by
    have hexternals : externals [timerJob "DEVA" "1", timerJob "DEVB" "1"]
      = [timer "1", timer "1"] := rfl
    have htimer : ∀ r ∈ [timer "1", timer "1"], r = timer "1" := by simp
    intro p hp q hq _
    rw [hexternals] at hp hq
    rw [htimer p hp, htimer q hq]
  have hnames : ∀ d e, (timerJob "DEVA" "1").doc.device = .ok d →
      (timerJob "DEVB" "1").doc.device = .ok e → Text.lower d.name ≠ Text.lower e.name := by
    intro d e hd he
    rw [← Except.ok.inj (show Except.ok (timerDevice "DEVA") = .ok d from hd),
      ← Except.ok.inj (show Except.ok (timerDevice "DEVB") = .ok e from he)]
    exact hlower
  obtain ⟨-, -, -, path₁, g₁, -, h₁, -⟩ := exists_perform_timer
    (show ("DEVA", "deva.h") ∈ timerHeader by simp [timerHeader]) (show "1" ∈ ["1", "2"] by simp)
  obtain ⟨-, -, -, path₂, g₂, -, h₂, -⟩ := exists_perform_timer
    (show ("DEVB", "devb.h") ∈ timerHeader by simp [timerHeader]) (show "1" ∈ ["1", "2"] by simp)
  obtain ⟨g₁₂, g₂₁, h₁₂, h₂₁, hfiles, hknown⟩ :=
    order_irrelevant atmel_mem_presets rfl hplain₁ hplain₂ hnames htexts h₁ h₂
  exact ⟨atmel_mem_presets, hplain₁, hplain₂, hlower, htexts, path₁, path₂, g₁, g₂, g₁₂, g₂₁, h₁,
    h₂, h₁₂, h₂₁, hfiles, hknown⟩

end ArmHeader

end ChipSupport
