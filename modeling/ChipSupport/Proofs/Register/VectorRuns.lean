import ChipSupport.Proofs.Bits.Union
import ChipSupport.Proofs.Register.Vector

/-!
# Vector fields and runs of numbered bits

The bitfields of a register, lowest bit first, fall into blocks: runs of numbered bits of one name
that lie one behind the other, and bitfields that are no numbered bits.  Neighbouring blocks cannot
be joined, so that the runs are as long as they can be.  The vector fields are the runs, without
those of which the name was there before.

## Main definitions

* `Bitfield.follows` — a numbered bit that goes on with another one.
* `Bitfield.IsRun`, `Bitfield.blocks`, `Bitfield.runs` — runs, and how bitfields fall into them.
* `Bitfield.ofRun`, `NamedField.firstOfEachName` — the vector field of a run, and the fields whose
  names no earlier field has.

## Main results

* `Bitfield.isRun_or_of_mem_blocksOf` — the two kinds of blocks.
* `Bitfield.vectors_eq_map_ofRun` — the vector fields, equal names included, are those of the runs.
* `Bitfield.vectorFields_eq_runs` — **the vector fields are the maximal runs of numbered bits.**
-/

namespace ChipSupport

/-! ### Names that were there before -/

/-- The fields whose names no earlier field has. -/
def NamedField.firstOfEachName (fs : List NamedField) : List NamedField :=
  (fs.zipIdx.filter fun f => (fs.take f.2).all fun earlier => earlier.name != f.1.name).map Prod.fst

/-- A name was seen if one of the fields before has it. -/
theorem Field.firstOfName_eq_filter {seen : List String} {before fs : List NamedField}
    (hseen : ∀ name, name ∈ seen ↔ name ∈ before.map NamedField.name) :
    Field.firstOfName false seen (fs.map .named)
      = ((fs.zipIdx before.length).filter fun f =>
          ((before ++ fs).take f.2).all fun earlier => earlier.name != f.1.name).map
        fun f => .named f.1 := by
  induction fs generalizing seen before with
  | nil => rfl
  | cons f rest ih =>
    have hfirst : (((before ++ f :: rest).take before.length).all fun earlier =>
        earlier.name != f.name) = !seen.contains f.name := by
      rw [List.take_left, Bool.eq_iff_iff, Bool.not_eq_true', List.all_eq_true]
      simp [hseen, Bool.eq_false_iff]
    have hrest : before ++ f :: rest = (before ++ [f]) ++ rest := by simp
    have hlength : before.length + 1 = (before ++ [f]).length := by simp
    rw [List.map_cons, Field.firstOfName, List.zipIdx_cons, List.filter_cons, hfirst]
    cases hf : seen.contains f.name with
    | true =>
      -- the name stands among those before already
      rw [if_pos (by exact hf), if_neg Bool.false_ne_true, if_neg (by simp), hrest, hlength]
      refine ih fun name => ?_
      have hmem : f.name ∈ before.map NamedField.name := (hseen _).mp (by simpa using hf)
      rw [hseen, List.map_append, List.mem_append, List.map_singleton, List.mem_singleton]
      constructor
      · exact .inl
      · rintro (h | rfl)
        · exact h
        · exact hmem
    | false =>
      have hnew : ¬ seen.contains (Field.named f).name = true := by
        rw [Bool.not_eq_true]
        exact hf
      rw [if_neg hnew, if_pos (by simp), List.map_cons, hrest, hlength]
      refine congrArg (_ :: ·) (ih fun name => ?_)
      rw [List.mem_cons, hseen, List.map_append, List.mem_append, List.map_singleton,
        List.mem_singleton, or_comm]
      rfl

/-- Of the fields of a name only the first one is kept. -/
theorem Field.dropDuplicates_drop (fs : List NamedField) :
    Field.dropDuplicates .drop (fs.map .named) = (NamedField.firstOfEachName fs).map .named := by
  have hnone (name : String) : name ∈ [] ↔ name ∈ ([] : List NamedField).map NamedField.name := by
    rw [List.map_nil]
  rw [NamedField.firstOfEachName, List.map_map]
  exact Field.firstOfName_eq_filter hnone

namespace Bitfield

/-! ### Runs -/

/-- Whether a numbered bit goes on with another one: both have the same name without its number, and
the bits are next to each other. -/
def follows (f g : Bitfield) : Bool :=
  f.isNumberedBit && g.isNumberedBit && baseName f.name == baseName g.name
    && decide (g.lsb = f.lsb + 1)

theorem follows_iff {f g : Bitfield} : follows f g = true ↔
    f.isNumberedBit = true ∧ g.isNumberedBit = true ∧ baseName f.name = baseName g.name ∧
      g.lsb = f.lsb + 1 := by
  simp only [follows, Bool.and_eq_true, beq_iff_eq, decide_eq_true_eq, and_assoc]

/-- Numbered bits of which each one goes on with the one before. -/
structure IsRun (run : List Bitfield) : Prop where
  /-- There is a bit. -/
  ne_nil : run ≠ []
  /-- All of them are numbered bits. -/
  numbered : ∀ f ∈ run, f.isNumberedBit = true
  /-- Each bit goes on with the one before. -/
  chain : run.IsChain fun f g => follows f g = true

/-- The vector field of a run: the name without a number and the caption of its first bit, and all
of its bits. -/
def ofRun : List Bitfield → NamedField
  | [] => default
  | f :: rest => { f.beginVector with mask := maskOf (f :: rest) }

theorem isRun_singleton {f : Bitfield} (hbit : f.isNumberedBit = true) : IsRun [f] :=
  ⟨List.cons_ne_nil f [], List.forall_mem_singleton.mpr hbit, List.isChain_singleton f⟩

theorem IsRun.concat {front : List Bitfield} {last f : Bitfield} (h : IsRun (front ++ [last]))
    (hfollows : follows last f = true) : IsRun (front ++ [last] ++ [f]) := by
  refine ⟨by simp, ?_, ?_⟩
  · rw [List.forall_mem_append, List.forall_mem_singleton]
    exact ⟨h.numbered, (follows_iff.mp hfollows).2.1⟩
  · rw [List.isChain_append]
    refine ⟨h.chain, List.isChain_singleton f, ?_⟩
    intro g hg f' hf'
    obtain rfl : last = g := by simpa using hg
    obtain rfl : f = f' := by simpa using hf'
    exact hfollows

/-- The last bit of a run has the name of the run, but for its number. -/
theorem IsRun.name_ofRun {front : List Bitfield} {last : Bitfield} (h : IsRun (front ++ [last])) :
    (ofRun (front ++ [last])).name = baseName last.name := by
  have hchain := h.chain
  clear h
  induction front with
  | nil => rfl
  | cons f front ih =>
    rw [List.cons_append, List.isChain_cons] at hchain
    rw [← ih hchain.2]
    cases front with
    | nil => exact (follows_iff.mp (hchain.1 last (by simp))).2.2.1
    | cons g front => exact (follows_iff.mp (hchain.1 g (by simp))).2.2.1

/-- A run without its last bit, if there is a bit in front of that. -/
theorem IsRun.of_concat {front : List Bitfield} {last f : Bitfield}
    (h : IsRun (front ++ [last] ++ [f])) : IsRun (front ++ [last]) ∧ follows last f = true := by
  obtain ⟨-, hnumbered, hchain⟩ := h
  rw [List.isChain_append] at hchain
  rw [List.forall_mem_append] at hnumbered
  exact ⟨⟨by simp, hnumbered.1, hchain.1⟩, hchain.2.2 last (by simp) f (by simp)⟩

/-- The bits of the vector field of a run are those of the run. -/
theorem IsRun.mask_ofRun {run : List Bitfield} (h : IsRun run) : (ofRun run).mask = maskOf run := by
  cases run with
  | nil => exact absurd rfl h.ne_nil
  | cons f rest => rfl

/-- A mask has no bits in common with a vector field if it has none with its numbered bits. -/
theorem IsRun.conj_mask_eq_zero {run : List Bitfield} (h : IsRun run)
    (hpos : ∀ f ∈ run, 0 < f.mask) {m : Int} (hm : ∀ f ∈ run, Bits.conj m f.mask = 0) :
    Bits.conj m (ofRun run).mask = 0 := by
  rw [h.mask_ofRun, maskOf]
  refine Bits.conj_union_eq_zero ?_ (List.forall_mem_map.mpr hm)
  intro x hx
  obtain ⟨f, hf, rfl⟩ := List.mem_map.mp hx
  exact (hpos f hf).le

/-- A bit that begins a vector field is a run. -/
theorem ofRun_singleton (f : Bitfield) : ofRun [f] = f.beginVector := by
  have hmask : Bits.disj 0 f.mask = f.mask := by
    cases h : f.mask with
    | ofNat n => simp [Bits.disj]
    | negSucc n => simp [Bits.disj]
  rw [ofRun, maskOf, List.map_singleton, Bits.union, List.foldl_cons, List.foldl_nil, hmask]
  rfl

/-- A run that goes on with one more bit has the vector field that goes on with it. -/
theorem extendVector_ofRun (front : List Bitfield) (last f : Bitfield) :
    extendVector (ofRun (front ++ [last])) f = ofRun (front ++ [last] ++ [f]) := by
  have hmask (run : List Bitfield) : Bits.disj (maskOf run) f.mask = maskOf (run ++ [f]) := by
    simp [maskOf, Bits.union]
  cases front with
  | nil => simp only [List.nil_append, List.cons_append, ofRun, extendVector, hmask]
  | cons g front => simp only [List.cons_append, ofRun, extendVector, hmask]

/-! ### Blocks -/

/-- The blocks that bitfields fall into. -/
def blocksOf (fs : List Bitfield) : List (List Bitfield) := fs.splitBy follows

/-- The blocks that are runs. -/
def runsOf (fs : List Bitfield) : List (List Bitfield) :=
  (blocksOf fs).filter fun block => block.all isNumberedBit

/-- A block is a run, or it is one bitfield that is no numbered bit. -/
theorem isRun_or_of_mem_blocksOf {fs block : List Bitfield} (h : block ∈ blocksOf fs) :
    IsRun block ∨ ∃ f, block = [f] ∧ f.isNumberedBit = false := by
  have hne := List.ne_nil_of_mem_splitBy h
  have hchain := List.isChain_of_mem_splitBy h
  cases block with
  | nil => exact absurd rfl hne
  | cons f rest =>
    cases rest with
    | nil =>
      cases hf : f.isNumberedBit with
      | true => exact .inl (isRun_singleton hf)
      | false => exact .inr ⟨f, rfl, hf⟩
    | cons g rest =>
      -- all bits of a block with two or more go on with another one
      refine .inl ⟨hne, ?_, hchain⟩
      intro x hx
      obtain ⟨i, hi, rfl⟩ := List.mem_iff_getElem.mp hx
      rw [List.isChain_iff_getElem] at hchain
      cases i with
      | zero => exact (follows_iff.mp (hchain 0 (by simp))).1
      | succ i => exact (follows_iff.mp (hchain i hi)).2.1

theorem isRun_of_mem_runsOf {fs run : List Bitfield} (h : run ∈ runsOf fs) : IsRun run := by
  obtain ⟨hmem, hall⟩ := List.mem_filter.mp h
  rcases isRun_or_of_mem_blocksOf hmem with hrun | ⟨f, rfl, hf⟩
  · exact hrun
  · simp [hf] at hall

/-- Every numbered bit stands in one run, and nothing else does. -/
theorem flatten_runsOf (fs : List Bitfield) : (runsOf fs).flatten = fs.filter isNumberedBit := by
  have hkinds : ∀ block ∈ blocksOf fs,
      (if block.all isNumberedBit then block else []) = block.filter isNumberedBit := by
    intro block hblock
    rcases isRun_or_of_mem_blocksOf hblock with hrun | ⟨f, rfl, hf⟩
    · rw [if_pos (List.all_eq_true.mpr hrun.numbered), List.filter_eq_self.mpr hrun.numbered]
    · simp [hf]
  have hflatten : (blocksOf fs).flatten = fs := List.flatten_splitBy follows fs
  conv_rhs => rw [← hflatten, List.filter_flatten, ← List.map_congr_left hkinds]
  rw [runsOf]
  induction blocksOf fs with
  | nil => rfl
  | cons block rest ih =>
    rw [List.filter_cons, List.map_cons, List.flatten_cons, ← ih]
    split <;> simp

theorem mem_of_mem_runsOf {fs run : List Bitfield} (hrun : run ∈ runsOf fs) {f : Bitfield}
    (hf : f ∈ run) : f ∈ fs := by
  have hmem : f ∈ (runsOf fs).flatten := List.mem_flatten.mpr ⟨run, hrun, hf⟩
  rw [flatten_runsOf] at hmem
  exact List.mem_of_mem_filter hmem

/-- The bits of a run are neighbours. -/
theorem exists_append_of_mem_runsOf {fs run : List Bitfield} (h : run ∈ runsOf fs) :
    ∃ front back, fs = front ++ run ++ back := by
  obtain ⟨before, after, hblocks⟩ := List.append_of_mem (List.mem_of_mem_filter h)
  have hflatten : (blocksOf fs).flatten = fs := List.flatten_splitBy follows fs
  refine ⟨before.flatten, after.flatten, ?_⟩
  rw [← hflatten, hblocks, List.flatten_append, List.flatten_cons, List.append_assoc]

theorem runsOf_of_isRun {run : List Bitfield} (h : IsRun run) : runsOf run = [run] := by
  have hblocks : blocksOf run = [run] := List.splitBy_of_isChain h.ne_nil h.chain
  rw [runsOf, hblocks, List.filter_singleton, List.all_eq_true.mpr h.numbered, cond_true]

/-- A run ends where the next bitfield does not go on with it. -/
theorem runsOf_append_cons {front rest : List Bitfield} {last f : Bitfield}
    (h : IsRun (front ++ [last])) (hend : follows last f = false) :
    runsOf (front ++ [last] ++ f :: rest) = (front ++ [last]) :: runsOf (f :: rest) := by
  have hblocks : blocksOf (front ++ [last] ++ f :: rest)
      = blocksOf (front ++ [last]) ++ blocksOf (f :: rest) := by
    refine List.splitBy_append_cons rest ?_
    intro g hg
    obtain rfl : last = g := by simpa using hg
    exact hend
  have hrun := runsOf_of_isRun h
  rw [runsOf] at hrun
  rw [runsOf, hblocks, List.filter_append, hrun, List.singleton_append, runsOf]

/-- A bitfield that is no numbered bit belongs to no run. -/
theorem runsOf_cons_of_not {f : Bitfield} (hf : f.isNumberedBit = false) (rest : List Bitfield) :
    runsOf (f :: rest) = runsOf rest := by
  have hblocks : blocksOf ([f] ++ rest) = blocksOf [f] ++ blocksOf rest := by
    refine List.splitBy_append ?_
    intro g hg h hh
    obtain rfl : f = g := by simpa using hg
    simp [follows, hf]
  have hsingle : blocksOf [f] = [[f]] := rfl
  rw [List.singleton_append, hsingle] at hblocks
  rw [runsOf, hblocks, List.singleton_append, List.filter_cons_of_neg (by simp [hf]), runsOf]

/-! ### The vector fields of runs -/

/-- The vector fields of ascending bitfields are those of their runs.  A vector field that may go on
is that of a run in front of them, whose last bit is the one below the bit where it goes on. -/
theorem vectorsFrom_eq_map_ofRun {fs : List Bitfield} (hpos : ∀ f ∈ fs, 0 < f.mask)
    (hasc : fs.Pairwise fun f g => f.lsb < g.lsb) :
    (∀ next, vectorsFrom none next fs = (runsOf fs).map ofRun) ∧
    ∀ front last, IsRun (front ++ [last]) → (∀ f ∈ fs, last.lsb < f.lsb) →
      vectorsFrom (some (ofRun (front ++ [last]))) (last.lsb + 1) fs
        = (runsOf (front ++ [last] ++ fs)).map ofRun := by
  induction fs with
  | nil =>
    refine ⟨fun next => rfl, ?_⟩
    intro front last hrun _
    rw [List.append_nil, runsOf_of_isRun hrun]
    rfl
  | cons f rest ih =>
    rw [List.forall_mem_cons] at hpos
    rw [List.pairwise_cons] at hasc
    obtain ⟨ihnone, ihsome⟩ := ih hpos.2 hasc.2
    -- what `f` begins, where nothing goes on with it
    have hbegin :
        vectorsFrom (if f.isNumberedBit then some f.beginVector else none) (f.msb + 1) rest
          = (runsOf (f :: rest)).map ofRun := by
      cases hf : f.isNumberedBit with
      | true =>
        rw [if_pos rfl, msb_of_isNumberedBit hpos.1 hf, ← ofRun_singleton]
        exact ihsome [] f (isRun_singleton hf) hasc.1
      | false => rw [if_neg Bool.false_ne_true, ihnone, runsOf_cons_of_not hf]
    refine ⟨fun next => hbegin, ?_⟩
    intro front last hrun hlast
    have hlt := hlast f List.mem_cons_self
    rw [vectorsFrom, hrun.name_ofRun]
    split
    next hextend =>
      rw [Bool.and_eq_true, Bool.and_eq_true, decide_eq_true_eq, beq_iff_eq] at hextend
      obtain ⟨⟨hf, hle⟩, hname⟩ := hextend
      have hfollows : follows last f = true :=
        follows_iff.mpr ⟨hrun.numbered last (by simp), hf, hname, by omega⟩
      rw [extendVector_ofRun, msb_of_isNumberedBit hpos.1 hf, List.append_cons _ f rest]
      exact ihsome _ f (hrun.concat hfollows) hasc.1
    next hextend =>
      have hend : follows last f = false := by
        rw [Bool.eq_false_iff]
        intro hfollows
        obtain ⟨-, hf, hname, hlsb⟩ := follows_iff.mp hfollows
        simp [hf, hname, hlsb] at hextend
      rw [hbegin, runsOf_append_cons hrun hend, List.map_cons]

/-- The blocks of a list of bitfields, lowest bit first. -/
def blocks (fs : List Bitfield) : List (List Bitfield) := blocksOf (sorted fs)

/-- The runs of a list of bitfields, lowest bit first. -/
def runs (fs : List Bitfield) : List (List Bitfield) := runsOf (sorted fs)

/-- **The vector fields of separate bitfields, equal names included, are those of the runs.** -/
theorem vectors_eq_map_ofRun {width : Nat} {fs : List Bitfield} (h : Separate width fs) :
    vectors fs = (runs fs).map ofRun :=
  (vectorsFrom_eq_map_ofRun (fun f hf => h.pos f (mem_sorted.mp hf)) h.ascending).1 0

/-- **The vector fields are the maximal runs of numbered bits.**  Separate bitfields, lowest bit
first, fall into blocks: each is a run, or one bitfield that is no numbered bit, and no block goes
on with the one before.  The runs are blocks, and every numbered bit stands in one of them.  Leaving
out what returns, the vector fields are those of the runs whose names no earlier run has, and they
have no bits of other bitfields. -/
theorem vectorFields_eq_runs {fs : List Bitfield} (hpos : ∀ f ∈ fs, 0 < f.mask)
    (hdisjoint : fs.Pairwise fun f g => Bits.conj f.mask g.mask = 0) :
    (blocks fs).flatten = sorted fs ∧
    (∀ block ∈ blocks fs, IsRun block ∨ ∃ f, block = [f] ∧ f.isNumberedBit = false) ∧
    (blocks fs).IsChain
      (fun a b => ∀ f ∈ a.getLast?, ∀ g ∈ b.head?, follows f g = false) ∧
    (∀ run ∈ runs fs, run ∈ blocks fs ∧ IsRun run) ∧
    (runs fs).flatten = (sorted fs).filter isNumberedBit ∧
    vectorFields fs .drop
      = (NamedField.firstOfEachName ((runs fs).map ofRun)).map Field.named ∧
    ∀ f ∈ fs, f.isNumberedBit = false → ∀ v ∈ Field.namedOnly (vectorFields fs .drop),
      Bits.conj f.mask v.mask = 0 := by
  obtain ⟨width, hseparate⟩ := exists_separate hpos hdisjoint
  refine ⟨List.flatten_splitBy follows (sorted fs), fun block => isRun_or_of_mem_blocksOf, ?_,
    fun run hrun => ⟨List.mem_of_mem_filter hrun, isRun_of_mem_runsOf hrun⟩,
    flatten_runsOf (sorted fs), ?_, ?_⟩
  · refine (List.isChain_getLast_head_splitBy follows (sorted fs)).imp ?_
    rintro a b ⟨ha, hb, hend⟩ f hf g hg
    rw [List.getLast?_eq_some_getLast ha, Option.mem_some_iff] at hf
    rw [List.head?_eq_some_head hb, Option.mem_some_iff] at hg
    rwa [hf, hg] at hend
  · rw [vectorFields, vectors_eq_map_ofRun hseparate, Field.dropDuplicates_drop]
  · intro f hf hbit v hv
    have hmem := mem_vectors hv
    rw [vectors_eq_map_ofRun hseparate] at hmem
    obtain ⟨run, hrun, rfl⟩ := List.mem_map.mp hmem
    have hbits : ∀ g ∈ run, g ∈ fs := fun g hg => mem_sorted.mp (mem_of_mem_runsOf hrun hg)
    have hisRun := isRun_of_mem_runsOf hrun
    refine hisRun.conj_mask_eq_zero (fun g hg => hpos g (hbits g hg)) ?_
    intro g hg
    refine Bits.conj_eq_zero_of_pairwise hdisjoint hf (hbits g hg) ?_
    -- the bits of a run are numbered
    rintro rfl
    rw [hisRun.numbered f hg] at hbit
    cases hbit

/-- Numbered bits of two names around a wide field, behind which a name returns. -/
def portBits : List Bitfield :=
  [{ name := "TX2", mask := 0x20 }, { name := "TX0", mask := 0x1, caption := "Lane 0" },
    { name := "MODE", mask := 0x18 }, { name := "RX0", mask := 0x4 },
    { name := "TX1", mask := 0x2, caption := "Lane 1" }, { name := "TX3", mask := 0x40 }]

/-- The runs of the port: two bits, one bit, and two bits of a name that was there before. -/
theorem vectorFields_eq_runs_port :
    (∀ f ∈ portBits, 0 < f.mask) ∧
    portBits.Pairwise (fun f g => Bits.conj f.mask g.mask = 0) ∧
    (runs portBits).map (List.map Bitfield.name) = [["TX0", "TX1"], ["RX0"], ["TX2", "TX3"]] ∧
    vectorFields portBits .drop = [.named ⟨"TX", 0x3, "Lane x"⟩, .named ⟨"RX", 0x4, ""⟩] := by
  have hpos : ∀ f ∈ portBits, 0 < f.mask := by decide
  have hdisjoint : portBits.Pairwise fun f g => Bits.conj f.mask g.mask = 0 := by decide
  obtain ⟨-, -, -, -, -, hvectors, -⟩ := vectorFields_eq_runs hpos hdisjoint
  refine ⟨hpos, hdisjoint, by cbv, hvectors.trans ?_⟩
  cbv

end Bitfield

end ChipSupport
