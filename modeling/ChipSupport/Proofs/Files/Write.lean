import ChipSupport.Files
import ChipSupport.Proofs.Steps

/-!
# Writing files

Writing a text to a path puts it at the place of the path, makes directories of the places on the
way, and leaves everything else as it was.  Whether it succeeds depends on the directories and files
on the way only: it also succeeds among more directories, unless a file is in the way or a directory
is at the place.

## Main definitions

* `Files.Written` — what writing a text to a path makes of files.
* `Files.writeAll` — several writes.
* `Files.Apart` — files and directories at different places.

## Main results

* `Path.location_append` — the place of a path that goes on without steps up.
* `Files.written_of_write` — what a write that succeeds does.
* `Files.exists_write` — a write that succeeds also succeeds among more directories.
* `Files.exists_writeAll_filter` — so do several ones, of which some may be left out.
-/

namespace ChipSupport

namespace Path

/-! ### Places of paths -/

theorem step_of_ne {place : List String} {part : String} (h : part ≠ "..") :
    step place part = place ++ [part] :=
  if_neg h

theorem foldl_step (place : List String) {parts : List String} (h : ".." ∉ parts) :
    parts.foldl step place = place ++ parts := by
  induction parts generalizing place with
  | nil => rw [List.append_nil]; rfl
  | cons part parts ih =>
    rw [List.mem_cons, not_or] at h
    rw [List.foldl_cons, step_of_ne (Ne.symm h.1), ih _ h.2, List.append_assoc]
    rfl

/-- The place of a path that goes on without steps up. -/
theorem location_append (p : Path) {parts : List String} (h : ".." ∉ parts) :
    ({ p with parts := p.parts ++ parts } : Path).location = p.location ++ parts := by
  rw [location, List.foldl_append, foldl_step _ h]
  rfl

theorem parent_append (p : Path) (parts : List String) (name : String) :
    ({ p with parts := p.parts ++ (parts ++ [name]) } : Path).parent
      = { p with parts := p.parts ++ parts } := by
  rw [parent, ← List.append_assoc, List.dropLast_concat]

/-- The way to a path with one more name leads over the path. -/
theorem way_append (p : Path) (name : String) :
    ({ p with parts := p.parts ++ [name] } : Path).way
      = p.way ++ [{ p with parts := p.parts ++ [name] }] := by
  rw [way, way, List.length_append, List.length_singleton, List.range_succ, List.map_append,
    List.map_singleton]
  congr 1
  · refine List.map_congr_left fun n hn => ?_
    rw [List.take_append_of_le_length (Nat.succ_le_of_lt (List.mem_range.mp hn))]
  · rw [List.take_of_length_le (by rw [List.length_append, List.length_singleton])]

/-- A path that goes through directories to a file, as a property of places says. -/
structure Fits (D : List String → Prop) (p : Path) : Prop where
  way : ∀ q ∈ p.parent.way, D q.location
  target : ¬ D p.location

end Path

namespace Files

/-! ### Texts by place -/

theorem lookup_put (place : List String) (text : String) (texts : List (List String × String))
    (q : List String) :
    (put place text texts).lookup q = if q = place then some text else texts.lookup q := by
  induction texts with
  | nil =>
    rw [put, List.lookup_cons, List.lookup_nil]
    by_cases h : q = place
    · rw [if_pos h, beq_iff_eq.mpr h]
    · rw [if_neg h, beq_eq_false_iff_ne.mpr h]
  | cons entry texts ih =>
    rw [put]
    split
    · next hplace =>
      rw [List.lookup_cons, List.lookup_cons, hplace]
      by_cases h : q = place
      · rw [if_pos h, beq_iff_eq.mpr h]
      · rw [if_neg h, beq_eq_false_iff_ne.mpr h]
    · next hplace =>
      rw [List.lookup_cons, List.lookup_cons, ih]
      by_cases h : q = entry.1
      · have hq : q ≠ place := by rwa [h]
        rw [beq_iff_eq.mpr h, if_neg hq, if_neg hq]
      · rw [beq_eq_false_iff_ne.mpr h]

/-! ### Directories on the way -/

theorem isDirectory_add (fs : Files) (added place : List String) :
    ({ fs with directories := fs.directories ++ [added] } : Files).isDirectory place = true ↔
      fs.isDirectory place = true ∨ place = added := by
  simp only [isDirectory, List.contains_iff_mem, Bool.or_eq_true, List.mem_append,
    List.mem_singleton, or_assoc]

/-- Opening a way makes directories of the places on it, and changes nothing else. -/
theorem openWay_eq_ok {fs fs' : Files} {target : Path} {opened : Bool} {way : List Path}
    (h : fs.openWay target opened way = .ok fs') :
    fs'.texts = fs.texts ∧
      ∀ place, fs'.isDirectory place = true ↔
        fs.isDirectory place = true ∨ ∃ p ∈ way, p.location = place := by
  induction way generalizing fs opened with
  | nil =>
    rw [openWay] at h
    cases h
    exact ⟨rfl, by simp⟩
  | cons p way ih =>
    rw [openWay] at h
    split at h
    · next hp =>
      obtain ⟨htexts, hdirectories⟩ := ih h
      refine ⟨htexts, fun place => ?_⟩
      rw [hdirectories, List.exists_mem_cons_iff]
      constructor
      · exact fun hplace => hplace.imp_right .inr
      · rintro (hplace | rfl | hplace)
        · exact .inl hplace
        · exact .inl hp
        · exact .inr hplace
    · split at h
      · cases h
      · split at h
        · cases h
        · obtain ⟨htexts, hdirectories⟩ := ih h
          refine ⟨htexts, fun place => ?_⟩
          rw [hdirectories, isDirectory_add, List.exists_mem_cons_iff, or_assoc,
            @eq_comm _ place]

/-- A way that can be opened can also be opened among more directories, unless a file is on it. -/
theorem exists_openWay {fs fs' : Files} {target : Path} {opened : Bool} {way : List Path}
    (h : fs.openWay target opened way = .ok fs') {gs : Files} (opened' : Bool)
    (hmore : ∀ place, fs.isDirectory place = true → gs.isDirectory place = true)
    (hfree : ∀ p ∈ way, gs.isFile p.location = false) :
    ∃ gs', gs.openWay target opened' way = .ok gs' := by
  induction way generalizing fs gs opened opened' with
  | nil => exact ⟨gs, rfl⟩
  | cons p way ih =>
    rw [List.forall_mem_cons] at hfree
    rw [openWay] at h ⊢
    split at h
    · next hp =>
      rw [if_pos (hmore _ hp)]
      exact ih h opened' hmore hfree.2
    · split at h
      · cases h
      · next hshort =>
        split at h
        · cases h
        · have hfile : ¬ gs.isFile p.location = true := by rw [hfree.1]; decide
          by_cases hp : gs.isDirectory p.location = true
          · -- the place is a directory among the others already
            rw [if_pos hp]
            refine ih h opened' (fun place hplace => ?_) hfree.2
            rcases (isDirectory_add fs _ _).mp hplace with hplace | rfl
            · exact hmore _ hplace
            · exact hp
          · rw [if_neg hp, if_neg hshort, if_neg hfile]
            refine ih h true (fun place hplace => ?_) hfree.2
            rw [isDirectory_add] at hplace ⊢
            exact hplace.imp_left (hmore _)

theorem follow_eq_ok {fs : Files} (target : Path) {way : List Path}
    (h : ∀ p ∈ way, fs.isDirectory p.location = true) : fs.follow target way = .ok () := by
  induction way with
  | nil => rfl
  | cons p way ih =>
    rw [List.forall_mem_cons] at h
    rw [follow, if_pos h.1]
    exact ih h.2

/-! ### Writing -/

/-- The files that writing a text to a path makes of others. -/
structure Written (fs : Files) (p : Path) (text : String) (fs' : Files) : Prop where
  text?_eq : ∀ place, fs'.text? place = if place = p.location then some text else fs.text? place
  isDirectory_iff : ∀ place, fs'.isDirectory place = true ↔
    fs.isDirectory place = true ∨ ∃ q ∈ p.parent.way, q.location = place
  target : fs'.isDirectory p.location = false

/-- A write succeeds if the way can be opened and followed, and no directory is at its end. -/
theorem write_eq_ok_iff {fs fs' : Files} {p : Path} {text : String} :
    fs.write p text = .ok fs' ↔
      check p.parent = .ok () ∧ check p = .ok () ∧ isLong p = false ∧
      ∃ gs, fs.openWay p.parent false p.parent.way = .ok gs ∧ gs.isDirectory p.location = false ∧
        fs' = { gs with texts := put p.location text gs.texts } := by
  have hfollow : ∀ gs, fs.openWay p.parent false p.parent.way = .ok gs →
      gs.follow p p.parent.way = .ok () := fun gs hgs =>
    follow_eq_ok p fun q hq => ((openWay_eq_ok hgs).2 _).mpr (.inr ⟨q, hq, rfl⟩)
  constructor
  · intro h
    rw [write] at h
    obtain ⟨⟨⟩, hparent, h⟩ := Steps.bind_eq_ok_iff.mp h
    obtain ⟨gs, hgs, h⟩ := Steps.bind_eq_ok_iff.mp h
    obtain ⟨⟨⟩, hreach, h⟩ := Steps.bind_eq_ok_iff.mp h
    rw [reach] at hreach
    obtain ⟨⟨⟩, hcheck, hreach⟩ := Steps.bind_eq_ok_iff.mp hreach
    rw [hfollow gs hgs] at hreach
    refine ⟨hparent, hcheck, ?_, gs, hgs, ?_⟩
    · by_contra hlong
      rw [Bool.not_eq_false] at hlong
      rw [hlong] at hreach
      cases hreach
    · cases hdirectory : gs.isDirectory p.location with
      | false =>
        rw [hdirectory] at h
        exact ⟨rfl, (Except.ok.inj h).symm⟩
      | true =>
        rw [hdirectory] at h
        cases h
  · rintro ⟨hparent, hcheck, hlong, gs, hgs, hdirectory, rfl⟩
    simp only [write, reach, hparent, hcheck, hgs, hfollow gs hgs, hlong, hdirectory, bind,
      Except.bind]
    rfl

theorem written_of_write {fs fs' : Files} {p : Path} {text : String}
    (h : fs.write p text = .ok fs') : fs.Written p text fs' := by
  obtain ⟨-, -, -, gs, hgs, hdirectory, rfl⟩ := write_eq_ok_iff.mp h
  obtain ⟨htexts, hdirectories⟩ := openWay_eq_ok hgs
  refine ⟨fun place => ?_, hdirectories, hdirectory⟩
  rw [text?, lookup_put, htexts]
  rfl

/-- A write that succeeds also succeeds among more directories, unless a file is on the way or a
directory is at its end. -/
theorem exists_write {fs fs' gs : Files} {p : Path} {text : String}
    (h : fs.write p text = .ok fs') (other : String)
    (hmore : ∀ place, fs.isDirectory place = true → gs.isDirectory place = true)
    (hfree : ∀ q ∈ p.parent.way, gs.isFile q.location = false)
    (htarget : gs.isDirectory p.location = false) : ∃ gs', gs.write p other = .ok gs' := by
  obtain ⟨hparent, hcheck, hlong, opened, hopened, hdirectory, -⟩ := write_eq_ok_iff.mp h
  obtain ⟨gs', hgs'⟩ := exists_openWay hopened false hmore hfree
  refine ⟨_, write_eq_ok_iff.mpr ⟨hparent, hcheck, hlong, gs', hgs', ?_, rfl⟩⟩
  -- the way leads over the place in neither case
  rw [← Bool.not_eq_true, (openWay_eq_ok hopened).2, not_or] at hdirectory
  rw [← Bool.not_eq_true, (openWay_eq_ok hgs').2, not_or, htarget]
  exact ⟨Bool.false_ne_true, hdirectory.2⟩

namespace Written

variable {fs fs' : Files} {p : Path} {text : String} (h : fs.Written p text fs')
include h

theorem text?_self : fs'.text? p.location = some text := by rw [h.text?_eq, if_pos rfl]

theorem isFile_self : fs'.isFile p.location = true := by rw [isFile, h.text?_self]; rfl

/-- Files stay files. -/
theorem isFile_mono {place : List String} (hplace : fs.isFile place = true) :
    fs'.isFile place = true := by
  rw [isFile, h.text?_eq]
  split
  · rfl
  · exact hplace

end Written

/-! ### Several writes -/

/-- The files with several texts written to paths, one after the other. -/
def writeAll (fs : Files) (ws : List (Path × String)) : Except Fault Files :=
  ws.foldlM (fun fs w => fs.write w.1 w.2) fs

section WriteAll

variable {fs fs' gs : Files} {ws : List (Path × String)}

theorem writeAll_cons_eq_ok {w : Path × String} :
    fs.writeAll (w :: ws) = .ok fs' ↔
      ∃ gs, fs.write w.1 w.2 = .ok gs ∧ gs.writeAll ws = .ok fs' := by
  rw [writeAll, List.foldlM_cons, Steps.bind_eq_ok_iff]
  rfl

theorem writeAll_append_eq_ok {vs : List (Path × String)} :
    fs.writeAll (ws ++ vs) = .ok fs' ↔
      ∃ gs, fs.writeAll ws = .ok gs ∧ gs.writeAll vs = .ok fs' := by
  rw [writeAll, List.foldlM_append, Steps.bind_eq_ok_iff]
  rfl

/-- Writing leaves the other places as they were. -/
theorem text?_writeAll_of_forall_ne (h : fs.writeAll ws = .ok fs') {place : List String}
    (hplace : ∀ w ∈ ws, w.1.location ≠ place) : fs'.text? place = fs.text? place := by
  induction ws generalizing fs with
  | nil =>
    cases h
    rfl
  | cons w ws ih =>
    rw [List.forall_mem_cons] at hplace
    obtain ⟨gs, hgs, h⟩ := writeAll_cons_eq_ok.mp h
    rw [ih h hplace.2, (written_of_write hgs).text?_eq, if_neg (Ne.symm hplace.1)]

/-- A text is at a place afterwards if it is written there and no other one is. -/
theorem text?_writeAll_of_forall_eq (h : fs.writeAll ws = .ok fs') {place : List String}
    {text : String} (hplace : ∃ w ∈ ws, w.1.location = place)
    (htext : ∀ w ∈ ws, w.1.location = place → w.2 = text) : fs'.text? place = some text := by
  induction ws generalizing fs with
  | nil =>
    obtain ⟨w, hw, -⟩ := hplace
    cases hw
  | cons v ws ih =>
    rw [List.forall_mem_cons] at htext
    rw [List.exists_mem_cons_iff] at hplace
    obtain ⟨gs, hgs, h⟩ := writeAll_cons_eq_ok.mp h
    by_cases hlater : ∃ w ∈ ws, w.1.location = place
    · exact ih h hlater htext.2
    · have hv := hplace.resolve_right hlater
      push Not at hlater
      rw [text?_writeAll_of_forall_ne h hlater, (written_of_write hgs).text?_eq, if_pos hv.symm,
        htext.1 hv]

/-- The directories afterwards are those before and those on the ways. -/
theorem isDirectory_writeAll (h : fs.writeAll ws = .ok fs') (place : List String) :
    fs'.isDirectory place = true ↔
      fs.isDirectory place = true ∨ ∃ w ∈ ws, ∃ q ∈ w.1.parent.way, q.location = place := by
  induction ws generalizing fs with
  | nil =>
    cases h
    simp
  | cons w ws ih =>
    obtain ⟨gs, hgs, h⟩ := writeAll_cons_eq_ok.mp h
    rw [ih h, (written_of_write hgs).isDirectory_iff, List.exists_mem_cons_iff, or_assoc]

/-- No directory is at a place where a text is written, and none is made there by the way. -/
theorem target_writeAll (h : fs.writeAll ws = .ok fs') {w : Path × String} (hw : w ∈ ws) :
    fs.isDirectory w.1.location = false ∧ ∀ q ∈ w.1.parent.way, q.location ≠ w.1.location := by
  induction ws generalizing fs with
  | nil => cases hw
  | cons v ws ih =>
    obtain ⟨gs, hgs, h⟩ := writeAll_cons_eq_ok.mp h
    have hdirectories := (written_of_write hgs).isDirectory_iff
    rcases List.mem_cons.mp hw with rfl | hw
    · have htarget := (written_of_write hgs).target
      rw [← Bool.not_eq_true, hdirectories, not_or, Bool.not_eq_true] at htarget
      exact ⟨htarget.1, fun q hq heq => htarget.2 ⟨q, hq, heq⟩⟩
    · obtain ⟨hfree, hway⟩ := ih h hw
      rw [← Bool.not_eq_true, hdirectories, not_or, Bool.not_eq_true] at hfree
      exact ⟨hfree.1, hway⟩

/-- Writes leave the texts of a list by place, if they are among it and reach all of its places. -/
theorem text?_writeAll_of_covers (h : fs.writeAll ws = .ok fs') {all : List (Path × String)}
    (hsame : ∀ v ∈ all, ∀ w ∈ all, v.1.location = w.1.location → v.2 = w.2) (hws : ws ⊆ all)
    (hcovers : ∀ w ∈ all, ∃ v ∈ ws, v.1.location = w.1.location) :
    (∀ w ∈ all, fs'.text? w.1.location = some w.2) ∧
      ∀ place, (∀ w ∈ all, w.1.location ≠ place) → fs'.text? place = fs.text? place :=
  ⟨fun w hw => text?_writeAll_of_forall_eq h (hcovers w hw) fun v hv => hsame v (hws hv) w hw,
    fun _ hplace => text?_writeAll_of_forall_ne h fun w hw => hplace w (hws hw)⟩

end WriteAll

/-! ### Directories and files apart -/

/-- Files and directories of which a property of places says which is which. -/
structure Apart (D : List String → Prop) (fs : Files) : Prop where
  directory : ∀ place, fs.isDirectory place = true → D place
  file : ∀ place, fs.isFile place = true → ¬ D place

section Apart

variable {D : List String → Prop} {fs fs' gs : Files}

theorem Written.apart {p : Path} {text : String} (h : fs.Written p text fs') (hfs : fs.Apart D)
    (hp : p.Fits D) : fs'.Apart D := by
  refine ⟨fun place hplace => ?_, fun place hplace => ?_⟩
  · rcases (h.isDirectory_iff place).mp hplace with hplace | ⟨q, hq, rfl⟩
    · exact hfs.directory place hplace
    · exact hp.way q hq
  · rw [isFile, h.text?_eq] at hplace
    split at hplace
    · next heq => exact heq ▸ hp.target
    · exact hfs.file place hplace

theorem apart_writeAll {ws : List (Path × String)} (h : fs.writeAll ws = .ok fs')
    (hfit : ∀ w ∈ ws, w.1.Fits D) (hfs : fs.Apart D) : fs'.Apart D := by
  induction ws generalizing fs with
  | nil =>
    cases h
    exact hfs
  | cons w ws ih =>
    rw [List.forall_mem_cons] at hfit
    obtain ⟨gs, hgs, h⟩ := writeAll_cons_eq_ok.mp h
    exact ih h hfit.2 ((written_of_write hgs).apart hfs hfit.1)

/-- Writes that succeed also succeed among more directories, and without those whose ways are there
already. -/
theorem exists_writeAll_filter {ι : Type} (f : ι → Path × String) (keep : ι → Bool) {xs : List ι}
    (h : fs.writeAll (xs.map f) = .ok fs') (hfit : ∀ x ∈ xs, (f x).1.Fits D) (hgs : gs.Apart D)
    (hmore : ∀ place, fs.isDirectory place = true → gs.isDirectory place = true)
    (hkeep : ∀ x ∈ xs, keep x = false →
      ∀ q ∈ (f x).1.parent.way, gs.isDirectory q.location = true) :
    ∃ gs', gs.writeAll ((xs.filter keep).map f) = .ok gs' ∧ gs'.Apart D ∧
      ∀ place, fs'.isDirectory place = true → gs'.isDirectory place = true := by
  induction xs generalizing fs gs with
  | nil =>
    cases h
    exact ⟨gs, rfl, hgs, hmore⟩
  | cons x xs ih =>
    rw [List.forall_mem_cons] at hfit hkeep
    obtain ⟨fs₁, hfs₁, h⟩ := writeAll_cons_eq_ok.mp h
    have hdirectories := (written_of_write hfs₁).isDirectory_iff
    cases hx : keep x with
    | false =>
      rw [List.filter_cons_of_neg (by simp [hx])]
      refine ih h hfit.2 hgs (fun place hplace => ?_) hkeep.2
      rcases (hdirectories place).mp hplace with hplace | ⟨q, hq, rfl⟩
      · exact hmore place hplace
      · exact hkeep.1 hx q hq
    | true =>
      rw [List.filter_cons_of_pos hx, List.map_cons]
      obtain ⟨gs₁, hgs₁⟩ : ∃ gs₁, gs.write (f x).1 (f x).2 = .ok gs₁ := by
        refine exists_write hfs₁ _ hmore (fun q hq => ?_) ?_
        · rw [← Bool.not_eq_true]
          exact fun hfile => hgs.file _ hfile (hfit.1.way q hq)
        · rw [← Bool.not_eq_true]
          exact fun hdirectory => hfit.1.target (hgs.directory _ hdirectory)
      have hwritten := written_of_write hgs₁
      obtain ⟨gs', hgs', hapart, hmore'⟩ := ih h hfit.2 (hwritten.apart hgs hfit.1)
        (fun place hplace => by
          rw [hwritten.isDirectory_iff]
          exact ((hdirectories place).mp hplace).imp_left (hmore place))
        (fun y hy hkeepy q hq => (hwritten.isDirectory_iff _).mpr (.inl (hkeep.2 y hy hkeepy q hq)))
      exact ⟨gs', writeAll_cons_eq_ok.mpr ⟨gs₁, hgs₁, hgs'⟩, hapart, hmore'⟩

end Apart

end Files

end ChipSupport
