import ChipSupport.Proofs.ArmHeader.Plan
import ChipSupport.Proofs.Text.LetterCase

/-!
# Places of the headers of a device

In the preset styles, headers stand in the output directory and in three directories in it.  Names
without strokes do not lead anywhere else, and headers with different names have different places.
A name with strokes may have steps up, and leads out of the output directory if there are more steps
up than down at some point of the path.

## Main definitions

* `Path.StaysBelow` — steps that never lead above the place where they begin.

## Main results

* `Path.ofString_pair` — the steps of a path to a name in a directory.
* `Path.exists_foldl_step_eq` — where steps lead that stay below their beginning.
* `ArmHeader.child_headerPath_of_plain` — the path of a component header.
* `ArmHeader.location_ownPaths` — the places of the headers that belong to a device alone.
-/

namespace ChipSupport

/-! ### Texts of paths -/

namespace Path

theorem outset_ofString {dir : String} (hdir : '/' ∉ dir.toList) (hne : dir ≠ "") (rest : String) :
    (ofString (dir ++ rest)).outset = .here := by
  have hfirst : (dir ++ rest).toList.takeWhile (· == '/') = [] := by
    rw [String.toList_append]
    cases hlist : dir.toList with
    | nil => exact absurd (String.toList_eq_nil_iff.mp hlist) hne
    | cons c cs =>
      rw [hlist, List.mem_cons, not_or] at hdir
      rw [List.cons_append, List.takeWhile_cons_of_neg]
      rw [beq_iff_eq]
      exact Ne.symm hdir.1
  rw [ofString, hfirst]
  rfl

/-- A name that is one step of a path. -/
structure IsStep (name : String) : Prop where
  stroke : '/' ∉ name.toList
  ne_empty : name ≠ ""
  ne_dot : name ≠ "."

theorem IsStep.keep {name : String} (h : IsStep name) : (name != "" && name != ".") = true := by
  rw [Bool.and_eq_true, bne_iff_ne, bne_iff_ne]
  exact ⟨h.ne_empty, h.ne_dot⟩

theorem ofString_single {name : String} (h : IsStep name) : ofString name = ⟨.here, [name]⟩ := by
  have houtset := outset_ofString h.stroke h.ne_empty ""
  rw [String.append_empty] at houtset
  have hparts : (ofString name).parts = [name] := by
    rw [ofString, Text.split, Text.splitFrom_of_notMem [] h.stroke]
    simp [h.keep]
  rw [← houtset, ← hparts]

/-- The steps of a path to a name in a directory. -/
theorem ofString_pair {dir name : String} (hdir : IsStep dir) (hname : IsStep name) :
    ofString (dir ++ "/" ++ name) = ⟨.here, [dir, name]⟩ := by
  have houtset := outset_ofString hdir.stroke hdir.ne_empty ("/" ++ name)
  rw [← String.append_assoc] at houtset
  have hlist : (dir ++ "/" ++ name).toList = dir.toList ++ '/' :: name.toList := by simp
  have hparts : (ofString (dir ++ "/" ++ name)).parts = [dir, name] := by
    rw [ofString, Text.split, hlist, Text.splitFrom_append [] hdir.stroke,
      Text.splitFrom_of_notMem [] hname.stroke]
    simp [hdir.keep, hname.keep]
  rw [← houtset, ← hparts]

/-! ### Steps up -/

theorem root_notMem_ofString (s : String) : "/" ∉ (ofString s).parts := by
  intro h
  exact Text.mark_not_mem_split '/' s "/" (List.mem_filter.mp h).1 (by decide)

/-- A step up takes back the last step, if that one was a step down. -/
theorem step_up {place : List String} {last : String} (hup : last ≠ "..") (hroot : last ≠ "/") :
    step (place ++ [last]) ".." = place := by
  rw [step, if_pos rfl, List.getLast?_concat]
  dsimp only
  rw [if_neg hup, if_neg hroot, List.dropLast_concat]

/-- Steps of which no beginning has more steps up than down. -/
def StaysBelow (parts : List String) : Prop :=
  ∀ front, front <+: parts → 2 * front.count ".." ≤ front.length

theorem staysBelow_of_notMem {parts : List String} (h : ".." ∉ parts) : StaysBelow parts := by
  intro front hfront
  rw [List.count_eq_zero_of_not_mem fun hup => h (hfront.subset hup)]
  exact Nat.zero_le _

/-- **Steps that stay below the place where they begin lead to a place below it.**  Each step up
takes back a step down. -/
theorem exists_foldl_step_eq (place : List String) {parts : List String} (hroot : "/" ∉ parts)
    (h : StaysBelow parts) :
    ∃ down, parts.foldl step place = place ++ down ∧
      down.length + 2 * parts.count ".." = parts.length ∧
      ∀ name ∈ down, name ≠ ".." ∧ name ≠ "/" := by
  induction parts using List.reverseRecOn with
  | nil => exact ⟨[], (List.append_nil _).symm, rfl, List.forall_mem_nil _⟩
  | append_singleton parts part ih =>
    rw [List.mem_append, List.mem_singleton, not_or] at hroot
    obtain ⟨down, hdown, hlength, hnames⟩ := ih hroot.1 fun front hfront =>
      h front (hfront.trans (List.prefix_append _ _))
    have hcount := h _ (List.prefix_refl _)
    rw [List.count_append, List.length_append, List.length_singleton] at hcount ⊢
    rw [List.foldl_append, hdown, List.foldl_cons, List.foldl_nil]
    by_cases hpart : part = ".."
    · subst hpart
      rw [List.count_singleton_self] at hcount ⊢
      -- a step down is left that the step up takes back
      rcases List.eq_nil_or_concat' down with rfl | ⟨down, last, rfl⟩
      · rw [List.length_nil] at hlength
        omega
      · rw [List.forall_mem_append, List.forall_mem_singleton] at hnames
        rw [List.length_append, List.length_singleton] at hlength
        refine ⟨down, ?_, by omega, hnames.1⟩
        rw [← List.append_assoc, step_up hnames.2.1 hnames.2.2]
    · have hnone : [part].count ".." = 0 :=
        List.count_eq_zero_of_not_mem (mt List.mem_singleton.mp (Ne.symm hpart))
      refine ⟨down ++ [part], ?_, ?_, ?_⟩
      · rw [step_of_ne hpart, List.append_assoc]
      · rw [hnone, List.length_append, List.length_singleton]
        omega
      · rw [List.forall_mem_append, List.forall_mem_singleton]
        exact ⟨hnames, hpart, Ne.symm hroot.2⟩

end Path

/-! ### Paths of headers -/

theorem Style.directories_of_mem_presets {style : Style} (h : style ∈ Style.presets) :
    style.componentDir = "component" ∧ style.instancesDir = "instances" ∧ style.pioDir = "pio" := by
  rw [presets, List.mem_cons, List.mem_cons, List.mem_singleton] at h
  rcases h with rfl | rfl | rfl <;> exact ⟨rfl, rfl, rfl⟩

theorem isStep_component : Path.IsStep "component" := ⟨by decide, by decide, by decide⟩

theorem isStep_instances : Path.IsStep "instances" := ⟨by decide, by decide, by decide⟩

theorem isStep_pio : Path.IsStep "pio" := ⟨by decide, by decide, by decide⟩

/-- The name of a header is no text that ends with another letter. -/
theorem header_ne (name : String) {other : String} (h : other.toList.getLast? ≠ some 'h') :
    name ++ ".h" ≠ other := by
  rintro rfl
  rw [String.toList_append, List.getLast?_append] at h
  exact h rfl

theorem isStep_header {name : String} (h : '/' ∉ name.toList) : Path.IsStep (name ++ ".h") := by
  refine ⟨?_, header_ne name (by decide), header_ne name (by decide)⟩
  rw [String.toList_append, List.mem_append, not_or]
  exact ⟨h, by decide⟩

theorem Peripheral.stroke_notMem_componentName {p : Peripheral} (hname : '/' ∉ p.name.toList)
    (hid : '/' ∉ p.moduleId.toList) : '/' ∉ (Text.lower p.componentName).toList := by
  rw [Text.mem_lower Text.caseless_stroke, componentName, Text.mem_upper Text.caseless_stroke,
    String.toList_append, String.toList_append, List.mem_append, List.mem_append, not_or, not_or]
  exact ⟨⟨hname, by decide⟩, hid⟩

theorem Device.stroke_notMem_headerName {d : Device} (hname : '/' ∉ d.name.toList) :
    '/' ∉ d.headerName.toList := by
  rwa [headerName, Text.mem_lower Text.caseless_stroke]

namespace ArmHeader

/-- A path that goes on below the output directory. -/
def below (output : Path) (parts : List String) : Path :=
  { output with parts := output.parts ++ parts }

/-- Component headers are in the output directory or below, whatever the names are. -/
theorem child_headerPath {style : Style} (hstyle : style ∈ Style.presets) (output : Path)
    (p : Peripheral) : output.child (p.headerPath style)
      = below output (Path.ofString (p.headerPath style)).parts := by
  have houtset := Path.outset_ofString isStep_component.stroke isStep_component.ne_empty
    ("/" ++ Text.lower p.componentName ++ ".h")
  rw [← String.append_assoc, ← String.append_assoc] at houtset
  rw [Path.child, Path.join, Peripheral.headerPath, (Style.directories_of_mem_presets hstyle).1,
    if_pos houtset]
  rfl

variable {output : Path} {style : Style}

/-- The path of a component header of a peripheral whose name and identification have no strokes. -/
theorem child_headerPath_of_plain (hstyle : style ∈ Style.presets) {p : Peripheral}
    (hname : '/' ∉ p.name.toList) (hid : '/' ∉ p.moduleId.toList) :
    output.child (p.headerPath style)
      = below output ["component", Text.lower p.componentName ++ ".h"] := by
  have hstep := isStep_header (Peripheral.stroke_notMem_componentName hname hid)
  rw [child_headerPath hstyle, Peripheral.headerPath, (Style.directories_of_mem_presets hstyle).1,
    String.append_assoc, Path.ofString_pair isStep_component hstep]

/-- The path of a header of a device in a directory of such headers. -/
theorem child_headerPathIn {dir : String} (hdir : Path.IsStep dir) {d : Device}
    (hname : '/' ∉ d.name.toList) :
    output.child (d.headerPathIn dir) = below output [dir, d.headerName ++ ".h"] := by
  have hstep := isStep_header (Device.stroke_notMem_headerName hname)
  rw [Path.child, Path.join, Device.headerPathIn, String.append_assoc,
    Path.ofString_pair hdir hstep]
  rfl

/-- The path of the main header of a device. -/
theorem child_mainPath {d : Device} (hname : '/' ∉ d.name.toList) :
    output.child (d.headerName ++ ".h") = below output [d.headerName ++ ".h"] := by
  rw [Path.child, Path.join,
    Path.ofString_single (isStep_header (Device.stroke_notMem_headerName hname))]
  rfl

theorem location_below {parts : List String} (h : ".." ∉ parts) :
    (below output parts).location = output.location ++ parts :=
  output.location_append h

/-- A path that goes on without leading up out of the output directory ends in it. -/
theorem prefix_location_below {parts : List String} (hroot : "/" ∉ parts)
    (h : Path.StaysBelow parts) : output.location <+: (below output parts).location := by
  obtain ⟨down, hdown, -⟩ := Path.exists_foldl_step_eq output.location hroot h
  have hlocation : (below output parts).location = parts.foldl Path.step output.location :=
    List.foldl_append
  rw [hlocation, hdown]
  exact List.prefix_append _ _

/-! ### Places of headers of documents with plain names -/

/-- A document of which the names of the device and of its peripherals have no strokes. -/
structure PlainNames (doc : Document) : Prop where
  device : ∀ d, doc.device = .ok d → '/' ∉ d.name.toList
  peripheral : ∀ p ∈ doc.external, '/' ∉ p.name.toList ∧ '/' ∉ p.moduleId.toList

theorem dots_notMem_pair {dir : String} (hdir : dir ≠ "..") (name : String) :
    ".." ∉ [dir, name ++ ".h"] := by
  rw [List.mem_cons, List.mem_singleton, not_or]
  exact ⟨Ne.symm hdir, Ne.symm (header_ne name (by decide))⟩

theorem dots_notMem_single (name : String) : ".." ∉ [name ++ ".h"] := by
  rw [List.mem_singleton]
  exact Ne.symm (header_ne name (by decide))

theorem location_child_headerPath (hstyle : style ∈ Style.presets) {doc : Document}
    (hplain : PlainNames doc) {p : Peripheral} (hp : p ∈ doc.external) :
    (output.child (p.headerPath style)).location
      = output.location ++ ["component", Text.lower p.componentName ++ ".h"] := by
  obtain ⟨hname, hid⟩ := hplain.peripheral p hp
  rw [child_headerPath_of_plain hstyle hname hid, location_below (dots_notMem_pair (by decide) _)]

theorem ownPaths_eq {s : Setting} (hstyle : s.style ∈ Style.presets) {d : Device}
    (hname : '/' ∉ d.name.toList) :
    ownPaths s d = [below s.output ["instances", d.headerName ++ ".h"],
      below s.output ["pio", d.headerName ++ ".h"], below s.output [d.headerName ++ ".h"]] := by
  obtain ⟨-, hinstances, hpio⟩ := Style.directories_of_mem_presets hstyle
  rw [ownPaths, hinstances, hpio, child_headerPathIn isStep_instances hname,
    child_headerPathIn isStep_pio hname, child_mainPath hname]

/-- The headers that belong to a device alone are in the output directory or in two directories of
it. -/
theorem location_ownPaths {s : Setting} (hstyle : s.style ∈ Style.presets) {d : Device}
    (hname : '/' ∉ d.name.toList) :
    (ownPaths s d).map Path.location = [s.output.location ++ ["instances", d.headerName ++ ".h"],
      s.output.location ++ ["pio", d.headerName ++ ".h"],
      s.output.location ++ [d.headerName ++ ".h"]] := by
  rw [ownPaths_eq hstyle hname, List.map_cons, List.map_cons, List.map_singleton,
    location_below (dots_notMem_pair (by decide) _),
    location_below (dots_notMem_pair (by decide) _),
    location_below (dots_notMem_single _)]

end ArmHeader

end ChipSupport
