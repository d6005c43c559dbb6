import ChipSupport.Proofs.Text.Lacks

/-!
# Text that is wrapped

Wrapping breaks the lines of a text where white space stands, and words that are longer than a line
wherever a line ends.  No line becomes longer than the width, and of all characters only white space
is lost.

## Main definitions

* `Text.ink` — the characters that are not white space.

## Main results

* `Text.ink_trimEndChars` — trimming loses white space only.
* `Text.length_le_of_mem_wrapChunks`, `Text.ink_wrapChunks` — a line that is wrapped.
* `Text.ink_linesFrom` — the lines of a text.
* `Text.length_le_of_mem_wrapText`, `Text.ink_wrapText` — **the lines of a text that is wrapped fit
  into the width and have its characters.**
-/

namespace ChipSupport.Text

/-! ### Characters that are not white space -/

/-- The characters that are not white space. -/
def ink (s : List Char) : List Char := s.filter fun c => !isBlank c

@[simp] theorem ink_nil : ink [] = [] := rfl

@[simp] theorem ink_append (s t : List Char) : ink (s ++ t) = ink s ++ ink t :=
  List.filter_append _ _

theorem ink_cons_of_isBlank {c : Char} (h : isBlank c = true) (s : List Char) :
    ink (c :: s) = ink s := List.filter_cons_of_neg (by simp [h])

theorem ink_of_allBlank {s : List Char} (h : allBlank s = true) : ink s = [] := by
  rw [allBlank, List.all_eq_true] at h
  rw [ink, List.filter_eq_nil_iff]
  intro c hc
  simp [h c hc]

/-! ### Trimming -/

theorem trimEndChars_append {c : Char} (hc : isBlank c = false) (pre rest : List Char) :
    trimEndChars (pre ++ c :: rest) = pre ++ c :: trimEndChars rest := by
  -- trimming goes from the end, and so stops at `c`
  have hkept : (c :: pre.reverse).dropWhile isBlank = c :: pre.reverse :=
    List.dropWhile_cons_of_neg (by simp [hc])
  have hdrop : (rest.reverse ++ c :: pre.reverse).dropWhile isBlank
      = rest.reverse.dropWhile isBlank ++ c :: pre.reverse := by
    rw [List.dropWhile_append, hkept]
    split
    · next hempty => rw [List.isEmpty_iff.mp hempty, List.nil_append]
    · rfl
  have hreverse : (pre ++ c :: rest).reverse = rest.reverse ++ c :: pre.reverse := by simp
  rw [trimEndChars, hreverse, hdrop, trimEndChars, List.reverse_append, List.reverse_cons,
    List.reverse_reverse, List.append_assoc]
  rfl

/-- What is trimmed is white space at the end. -/
theorem exists_eq_trimEndChars_append (s : List Char) :
    ∃ tail, s = trimEndChars s ++ tail ∧ allBlank tail = true := by
  refine ⟨(s.reverse.takeWhile isBlank).reverse, ?_, ?_⟩
  · rw [trimEndChars, ← List.reverse_append, List.takeWhile_append_dropWhile, List.reverse_reverse]
  · rw [allBlank, List.all_reverse, List.all_eq_true]
    exact fun c hc => List.mem_takeWhile_imp hc

theorem ink_trimEndChars (s : List Char) : ink (trimEndChars s) = ink s := by
  obtain ⟨tail, htail, hblank⟩ := exists_eq_trimEndChars_append s
  conv_rhs => rw [htail, ink_append, ink_of_allBlank hblank, List.append_nil]

theorem length_trimEndChars_le (s : List Char) : (trimEndChars s).length ≤ s.length := by
  obtain ⟨tail, htail, -⟩ := exists_eq_trimEndChars_append s
  conv_rhs => rw [htail, List.length_append]
  omega

/-! ### One line -/

theorem ink_dropFirstBlank (cs : List (List Char)) :
    ink (dropFirstBlank cs).flatten = ink cs.flatten := by
  cases cs with
  | nil => rfl
  | cons w rest =>
    rw [dropFirstBlank]
    split
    · next hblank => rw [List.flatten_cons, ink_append, ink_of_allBlank hblank, List.nil_append]
    · rfl

/-- A line loses at most a last chunk that is white space. -/
theorem exists_eq_dropLastBlank_append (line : List (List Char)) :
    ∃ tail, line.flatten = (dropLastBlank line).flatten ++ tail ∧ allBlank tail = true := by
  unfold dropLastBlank
  split
  · next w hlast =>
    split
    · next hblank =>
      refine ⟨w, ?_, hblank⟩
      conv_lhs => rw [← List.dropLast_append_getLast? w hlast, List.flatten_concat]
    · exact ⟨[], (List.append_nil _).symm, rfl⟩
  · next hnone =>
    rw [List.getLast?_eq_none_iff] at hnone
    rw [hnone]
    exact ⟨[], rfl, rfl⟩

theorem length_fillLine_le (room : Nat) (cs : List (List Char)) :
    (fillLine room cs).1.flatten.length ≤ room := by
  induction cs generalizing room with
  | nil => exact Nat.zero_le room
  | cons w rest ih =>
    rw [fillLine]
    split
    · next hfits =>
      rw [List.flatten_cons, List.length_append]
      have hrest := ih (room - w.length)
      omega
    · exact Nat.zero_le room

theorem length_splitLong_le (width room : Nat) (cs : List (List Char)) :
    (splitLong width room cs).1.flatten.length ≤ room := by
  cases cs with
  | nil => exact Nat.zero_le room
  | cons w rest =>
    rw [splitLong]
    split
    · rw [List.flatten_singleton, List.length_take]
      exact Nat.min_le_left _ _
    · exact Nat.zero_le room

/-- A line is as long as the width at most. -/
theorem length_takeLine_le (width : Nat) (cs : List (List Char)) :
    (takeLine width cs).1.flatten.length ≤ width := by
  have hfilled := length_fillLine_le width cs
  have hsplit := length_splitLong_le width (width - (fillLine width cs).1.flatten.length)
    (fillLine width cs).2
  rw [takeLine, List.flatten_append, List.length_append]
  omega

/-! ### Lines that are wrapped -/

variable {width : Nat} {hw : 0 < width}

theorem length_le_of_mem_wrapChunks {started : Bool} {cs : List (List Char)} :
    ∀ line ∈ wrapChunks width hw started cs, line.length ≤ width := by
  fun_induction wrapChunks width hw started cs with
  | case1 started cs hcs => exact List.forall_mem_nil _
  | case2 started cs w rest hcs line hempty ih => exact ih
  | case3 started cs w rest hcs line hne ih =>
    refine List.forall_mem_cons.mpr ⟨?_, ih⟩
    obtain ⟨tail, htail, -⟩ := exists_eq_dropLastBlank_append (takeLine width (w :: rest)).1
    have hlength := length_takeLine_le width (w :: rest)
    rw [htail, List.length_append] at hlength
    exact Nat.le_of_add_right_le hlength

/-- The lines of chunks have the characters of the chunks. -/
theorem ink_wrapChunks {started : Bool} {cs : List (List Char)} :
    ink (wrapChunks width hw started cs).flatten = ink cs.flatten := by
  -- a chunk that is dropped in front of a line is white space
  have hbegin {started : Bool} {cs later : List (List Char)}
      (hcs : (if started then dropFirstBlank cs else cs) = later) :
      ink later.flatten = ink cs.flatten := by
    rw [← hcs]
    split
    · exact ink_dropFirstBlank cs
    · rfl
  -- and so is one at its end
  have hline (cs : List (List Char)) :
      ink (dropLastBlank (takeLine width cs).1).flatten ++ ink (takeLine width cs).2.flatten
        = ink cs.flatten := by
    obtain ⟨tail, htail, hblank⟩ := exists_eq_dropLastBlank_append (takeLine width cs).1
    rw [← flatten_takeLine width cs, ink_append, htail, ink_append, ink_of_allBlank hblank,
      List.append_nil]
  fun_induction wrapChunks width hw started cs with
  | case1 started cs hcs => exact hbegin hcs
  | case2 started cs w rest hcs line hempty ih =>
    have hnothing : dropLastBlank (takeLine width (w :: rest)).1 = [] := List.isEmpty_iff.mp hempty
    rw [ih, ← hbegin hcs, ← hline (w :: rest), hnothing, List.flatten_nil, ink_nil, List.nil_append]
  | case3 started cs w rest hcs line hne ih =>
    rw [List.flatten_cons, ink_append, ih, ← hbegin hcs, ← hline (w :: rest)]

variable (hw)

theorem length_le_of_mem_wrapLine {s : List Char} :
    ∀ line ∈ wrapLine width hw s, line.length ≤ width := by
  rw [wrapLine]
  split
  · exact List.forall_mem_singleton.mpr (Nat.zero_le width)
  · exact length_le_of_mem_wrapChunks

theorem ink_wrapLine (s : List Char) : ink (wrapLine width hw s).flatten = ink s := by
  rw [wrapLine]
  split
  · next hblank => rw [ink_of_allBlank hblank]; rfl
  · rw [ink_wrapChunks, flatten_chunks]

/-! ### A whole text -/

/-- What ends a line is white space. -/
theorem isBlank_of_isLineEnd {c : Char} (h : isLineEnd c = true) : isBlank c = true := by
  have hwithin : ∀ r ∈ [(10, 13), (0x1C, 0x1E), (0x85, 0x85), (0x2028, 0x2029)],
      ∃ r' ∈ blankRanges, r'.1 ≤ r.1 ∧ r.2 ≤ r'.2 := by decide
  rw [isLineEnd, inRanges, List.any_eq_true] at h
  obtain ⟨r, hr, hrange⟩ := h
  obtain ⟨r', hr', hlow, hhigh⟩ := hwithin r hr
  rw [isBlank, inRanges, List.any_eq_true]
  refine ⟨r', hr', ?_⟩
  simp only [Bool.and_eq_true, decide_eq_true_eq] at hrange ⊢
  omega

/-- The lines of a text have its characters. -/
theorem ink_linesFrom (line s : List Char) :
    ink (linesFrom line s).flatten = ink line.reverse ++ ink s := by
  fun_induction linesFrom line s with
  | case1 line hempty => rw [List.isEmpty_iff.mp hempty]; rfl
  | case2 line hne => rw [List.flatten_singleton, ink_nil, List.append_nil]
  | case3 line rest hend ih =>
    rw [List.flatten_cons, ink_append, ih, ink_cons_of_isBlank (isBlank_of_isLineEnd hend),
      ink_cons_of_isBlank (by decide)]
    rfl
  | case4 line c hend rest hnext ih =>
    rw [List.flatten_cons, ink_append, ih, ink_cons_of_isBlank (isBlank_of_isLineEnd hend)]
    rfl
  | case5 line c rest hend ih =>
    rw [ih, List.reverse_cons, ← ink_append, ← ink_append, List.append_assoc]
    rfl

/-- No line of a text that is wrapped is longer than the width. -/
theorem length_le_of_mem_wrapText (s : String) :
    ∀ line ∈ wrapText width hw s, line.length ≤ width := by
  intro line hline
  obtain ⟨l, -, hline⟩ := List.mem_flatMap.mp hline
  obtain ⟨chars, hchars, rfl⟩ := List.mem_map.mp hline
  rw [String.length_ofList]
  exact length_le_of_mem_wrapLine hw chars hchars

/-- The lines of a text that is wrapped have its characters. -/
theorem ink_wrapText (s : String) :
    ink ((wrapText width hw s).flatMap String.toList) = ink s.toList := by
  have hlines (ls : List (List Char)) :
      ink ((ls.flatMap fun l => (wrapLine width hw l).map String.ofList).flatMap String.toList)
        = ink ls.flatten := by
    induction ls with
    | nil => rfl
    | cons l ls ih =>
      rw [List.flatMap_cons, List.flatMap_append, ink_append, ih, List.flatten_cons, ink_append,
        ← ink_wrapLine hw l, List.flatMap_map]
      simp [List.flatMap_def]
  rw [wrapText, hlines, ink_linesFrom, List.reverse_nil, ink_nil, List.nil_append]

end ChipSupport.Text
