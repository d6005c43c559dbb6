import ChipSupport.Decimal.Writing
import ChipSupport.Naming
import ChipSupport.Proofs.Layouts
import ChipSupport.Proofs.Mode
import ChipSupport.Proofs.Text.Column
import ChipSupport.Proofs.Text.LetterCase
import ChipSupport.Text.Wrap

/-!
# Texts without a character

A line feed or a `#` stands in a generated text only if it stood in one of the texts that it is made
of.  Aligning, joining, converting and wrapping texts bring no such character in.

## Main definitions

* `Text.Lacks` — texts without a character.
* `Text.Foreign` — characters that no operation brings in.

## Main results

* `Text.lacks_append`, `lacks_padTo`, `lacks_upper`, … — what an operation makes of such texts.
* `Numeral.lacks_decimal`, `Decimal.lacks_render`, … — written numbers.
* `Text.lacks_of_mem_wrapText` — lines that are wrapped.
-/

namespace ChipSupport

namespace Text

/-- Texts without a character. -/
def Lacks (c : Char) (s : String) : Prop := c ∉ s.toList

instance (c : Char) (s : String) : Decidable (Lacks c s) :=
  inferInstanceAs (Decidable (c ∉ s.toList))

/-- Characters that are neither in numbers or identifiers nor used to align, and that have no
case. -/
class Foreign (c : Char) : Prop extends Caseless c where
  not_word : (c.isAlphanum || c == '_') = false
  ne_space : c ≠ ' '
  notMem_signs : c ∉ "-+.0einfa".toList
  ne_digit : ∀ d < 16, c ≠ Numeral.digitChar d
  ne_smallDigit : ∀ d < 16, c ≠ Numeral.smallDigitChar d

instance foreign_feed : Foreign '\n' := by
  refine ⟨by constructor <;> decide +kernel, ?_, ?_, ?_, ?_, ?_⟩ <;> decide

instance foreign_hash : Foreign '#' := by
  refine ⟨by constructor <;> decide +kernel, ?_, ?_, ?_, ?_, ?_⟩ <;> decide

section Parts

variable {c : Char} {s t : String}

theorem Lacks.of_subset (h : Lacks c t) (hs : ∀ d ∈ s.toList, d ∈ t.toList) : Lacks c s :=
  fun hc => h (hs c hc)

@[simp] theorem lacks_ofList {cs : List Char} : Lacks c (String.ofList cs) ↔ c ∉ cs := by
  rw [Lacks, String.toList_ofList]

@[simp] theorem lacks_append : Lacks c (s ++ t) ↔ Lacks c s ∧ Lacks c t := by
  rw [Lacks, String.toList_append, List.mem_append, not_or]
  rfl

/-- A choice between two texts. -/
theorem lacks_ite {p : Prop} [Decidable p] (hs : Lacks c s) (ht : Lacks c t) :
    Lacks c (if p then s else t) := by
  split
  · exact hs
  · exact ht

theorem lacks_join {ss : List String} (h : ∀ s ∈ ss, Lacks c s) : Lacks c (String.join ss) := by
  rw [Lacks, String.toList_join, List.mem_flatMap]
  rintro ⟨s, hs, hc⟩
  exact h s hs hc

theorem lacks_intercalate (hs : Lacks c s) {ss : List String} (h : ∀ s ∈ ss, Lacks c s) :
    Lacks c (String.intercalate s ss) := by
  induction ss with
  | nil => exact List.not_mem_nil
  | cons t ss ih =>
    rw [List.forall_mem_cons] at h
    cases ss with
    | nil => exact h.1
    | cons u ss =>
      rw [String.intercalate_cons_of_ne_nil (List.cons_ne_nil u ss), lacks_append, lacks_append]
      exact ⟨⟨h.1, hs⟩, ih h.2⟩

theorem lacks_of_mem_splitFrom {mark : Char} {piece s : List Char} (hpiece : c ∉ piece)
    (hs : c ∉ s) : ∀ p ∈ splitFrom mark piece s, c ∉ p := by
  induction s generalizing piece with
  | nil => simpa [splitFrom] using hpiece
  | cons d rest ih =>
    rw [List.mem_cons, not_or] at hs
    rw [splitFrom]
    split
    · rw [List.forall_mem_cons]
      exact ⟨by rwa [List.mem_reverse], ih List.not_mem_nil hs.2⟩
    · refine ih ?_ hs.2
      rw [List.mem_cons, not_or]
      exact ⟨hs.1, hpiece⟩

theorem lacks_of_mem_split {mark : Char} (h : Lacks c s) : ∀ p ∈ split mark s, Lacks c p := by
  intro p hp
  obtain ⟨cs, hcs, rfl⟩ := List.mem_map.mp hp
  rw [lacks_ofList]
  exact lacks_of_mem_splitFrom List.not_mem_nil h cs hcs

theorem lacks_of_mem_wordsFrom {word s : List Char} (hword : c ∉ word) (hs : c ∉ s) :
    ∀ p ∈ wordsFrom word s, c ∉ p := by
  induction s generalizing word with
  | nil =>
    rw [wordsFrom]
    split
    · exact List.forall_mem_nil _
    · exact List.forall_mem_singleton.mpr (by rwa [List.mem_reverse])
  | cons d rest ih =>
    rw [List.mem_cons, not_or] at hs
    have hnext := ih List.not_mem_nil hs.2
    rw [wordsFrom]
    split
    · split
      · exact hnext
      · exact List.forall_mem_cons.mpr ⟨by rwa [List.mem_reverse], hnext⟩
    · refine ih ?_ hs.2
      rw [List.mem_cons, not_or]
      exact ⟨hs.1, hword⟩

theorem lacks_of_mem_words (h : Lacks c s) : ∀ p ∈ words s, Lacks c p := by
  intro p hp
  obtain ⟨cs, hcs, rfl⟩ := List.mem_map.mp hp
  rw [lacks_ofList]
  exact lacks_of_mem_wordsFrom List.not_mem_nil h cs hcs

theorem lacks_trimEnd (h : Lacks c s) : Lacks c (trimEnd s) := by
  rw [trimEnd, lacks_ofList, trimEndChars, List.mem_reverse]
  intro hc
  exact h (List.mem_reverse.mp ((List.dropWhile_sublist _).subset hc))

theorem lacks_dropOwner (h : Lacks c s) (owner : String) : Lacks c (dropOwner s owner) := by
  have hdrop : ∀ d ∈ s.toList.drop owner.length, d ∈ s.toList := fun d hd => List.mem_of_mem_drop hd
  rw [dropOwner]
  split
  · exact h
  · split
    · next rest hrest =>
      rw [lacks_ofList]
      exact fun hmem => h (hdrop c (hrest ▸ List.mem_cons_of_mem _ hmem))
    · next rest hrest =>
      rw [lacks_ofList]
      exact fun hmem => h (hdrop c hmem)

end Parts

/-! ### Characters that no operation brings in -/

section Foreign

variable {c : Char} [hc : Foreign c] {s t : String}

theorem Foreign.ne_of_mem_signs {d : Char} (hd : d ∈ "-+.0einfa".toList) : c ≠ d :=
  fun h => hc.notMem_signs (h ▸ hd)

/-- Parts of identifiers. -/
theorem Foreign.lacks_word (h : s.toList.all (fun d => d.isAlphanum || d == '_') = true) :
    Lacks c s := by
  intro hmem
  have hword := List.all_eq_true.mp h c hmem
  rw [hc.not_word] at hword
  cases hword

/-- The signs of numbers. -/
theorem Foreign.lacks_signs (h : s.toList.all "-+.0einfa".toList.contains = true) : Lacks c s :=
  fun hmem => hc.notMem_signs (List.contains_iff_mem.mp (List.all_eq_true.mp h c hmem))

@[simp] theorem lacks_spacing {k : Nat} : Lacks c (spacing k) :=
  fun h => hc.ne_space (eq_of_mem_spacing h)

@[simp] theorem lacks_fillTo {width : Int} : Lacks c (fillTo s width) ↔ Lacks c s := by
  rw [fillTo_eq, lacks_append, and_iff_left lacks_spacing]

@[simp] theorem lacks_padTo {column : Int} : Lacks c (padTo s column) ↔ Lacks c s := by
  obtain ⟨k, -, hpadded⟩ := exists_padTo_eq s column
  rw [hpadded, lacks_append, and_iff_left lacks_spacing]

@[simp] theorem lacks_upper : Lacks c (upper s) ↔ Lacks c s := not_congr (mem_upper hc.toCaseless)

@[simp] theorem lacks_lower : Lacks c (lower s) ↔ Lacks c s := not_congr (mem_lower hc.toCaseless)

theorem lacks_capitalized (h : Lacks c s) : Lacks c (capitalized s) := by
  rw [Lacks] at h
  rw [capitalized]
  split
  · exact List.not_mem_nil
  · next d rest hs =>
    rw [hs, List.mem_cons, not_or] at h
    rw [lacks_ofList, List.mem_append, not_or, mem_upperChar hc.toCaseless,
      mem_lowerFrom hc.toCaseless]
    exact ⟨Ne.symm h.1, h.2⟩

theorem lacks_joinCapitalized (h : Lacks c s) : Lacks c (joinCapitalized s) := by
  refine lacks_join fun p hp => ?_
  obtain ⟨q, hq, rfl⟩ := List.mem_map.mp hp
  exact lacks_capitalized (lacks_of_mem_split h q hq)

end Foreign

/-! ### Lines that are wrapped -/

section Wrap

variable {c : Char}

@[simp] theorem flatten_pushChunk (c : Char) (cs : List (List Char)) :
    (pushChunk c cs).flatten = c :: cs.flatten := by
  unfold pushChunk
  split
  · split <;> rfl
  · rfl

theorem flatten_chunks (s : List Char) : (chunks s).flatten = s := by
  induction s with
  | nil => rfl
  | cons d s ih =>
    have hchunks : chunks (d :: s) = pushChunk d (chunks s) := rfl
    rw [hchunks, flatten_pushChunk, ih]

/-- A line and what is left after it have the characters that were left before it. -/
theorem flatten_takeLine (width : Nat) (cs : List (List Char)) :
    (takeLine width cs).1.flatten ++ (takeLine width cs).2.flatten = cs.flatten := by
  have hsplit := splitLong_flatten width (width - (fillLine width cs).1.flatten.length)
    (fillLine width cs).2
  rw [takeLine, List.flatten_append, List.append_assoc, hsplit, ← List.flatten_append,
    fillLine_append]

theorem mem_flatten_dropFirstBlank {cs : List (List Char)} (h : c ∈ (dropFirstBlank cs).flatten) :
    c ∈ cs.flatten := by
  cases cs with
  | nil => exact h
  | cons w rest =>
    rw [dropFirstBlank] at h
    split at h
    · exact List.mem_append_right w h
    · exact h

theorem dropLastBlank_subset (line : List (List Char)) : dropLastBlank line ⊆ line := by
  unfold dropLastBlank
  split
  · split
    · exact List.dropLast_subset line
    · exact List.Subset.refl _
  · exact List.nil_subset _

/-- Wrapping writes characters of the chunks that it wraps. -/
theorem mem_flatten_of_mem_wrapChunks {width : Nat} {hw : 0 < width} {started : Bool}
    {cs : List (List Char)} {line : List Char} (h : line ∈ wrapChunks width hw started cs)
    (hc : c ∈ line) : c ∈ cs.flatten := by
  have hbegin {started : Bool} {cs later : List (List Char)}
      (hcs : (if started then dropFirstBlank cs else cs) = later) (h : c ∈ later.flatten) :
      c ∈ cs.flatten := by
    rw [← hcs] at h
    split at h
    · exact mem_flatten_dropFirstBlank h
    · exact h
  fun_induction wrapChunks width hw started cs with
  | case1 started cs hcs => cases h
  | case2 started cs w rest hcs filled hempty ih =>
    refine hbegin hcs ?_
    rw [← flatten_takeLine width (w :: rest)]
    exact List.mem_append_right _ (ih h)
  | case3 started cs w rest hcs filled hne ih =>
    refine hbegin hcs ?_
    rw [← flatten_takeLine width (w :: rest)]
    rcases List.mem_cons.mp h with rfl | h
    · refine List.mem_append_left _ ?_
      obtain ⟨chunk, hchunk, hmem⟩ := List.mem_flatten.mp hc
      exact List.mem_flatten.mpr ⟨chunk, dropLastBlank_subset _ hchunk, hmem⟩
    · exact List.mem_append_right _ (ih h)

/-- No line of a text contains a character that ends lines. -/
theorem isLineEnd_of_mem_linesFrom {line s : List Char} (hline : ∀ d ∈ line, isLineEnd d = false) :
    ∀ l ∈ linesFrom line s, ∀ d ∈ l, isLineEnd d = false := by
  have hreverse {line : List Char} (hline : ∀ d ∈ line, isLineEnd d = false) :
      ∀ d ∈ line.reverse, isLineEnd d = false := fun d hd => hline d (List.mem_reverse.mp hd)
  have hnil : ∀ d ∈ ([] : List Char), isLineEnd d = false := List.forall_mem_nil _
  fun_induction linesFrom line s with
  | case1 line hempty => exact List.forall_mem_nil _
  | case2 line hne => exact List.forall_mem_singleton.mpr (hreverse hline)
  | case3 line rest hend ih => exact List.forall_mem_cons.mpr ⟨hreverse hline, ih hnil⟩
  | case4 line c hend rest hnext ih => exact List.forall_mem_cons.mpr ⟨hreverse hline, ih hnil⟩
  | case5 line c rest hend ih =>
    exact ih (List.forall_mem_cons.mpr ⟨Bool.eq_false_of_not_eq_true hend, hline⟩)

/-- Lines that are wrapped contain no line feed. -/
theorem lacks_of_mem_wrapText {width : Nat} {hw : 0 < width} {s line : String}
    (h : line ∈ wrapText width hw s) : Lacks '\n' line := by
  obtain ⟨l, hl, hline⟩ := List.mem_flatMap.mp h
  obtain ⟨w, hwrapped, rfl⟩ := List.mem_map.mp hline
  rw [lacks_ofList]
  intro hfeed
  have hmem : '\n' ∈ l := by
    rw [wrapLine] at hwrapped
    split at hwrapped
    · rw [List.mem_singleton.mp hwrapped] at hfeed
      cases hfeed
    · rw [← flatten_chunks l]
      exact mem_flatten_of_mem_wrapChunks hwrapped hfeed
  have hend := isLineEnd_of_mem_linesFrom (List.forall_mem_nil _) l hl '\n' hmem
  exact absurd hend (by decide)

end Wrap

end Text

/-! ### Numbers -/

section Numbers

variable {c : Char} [hc : Text.Foreign c]

open Text

namespace Numeral

@[simp] theorem lacks_decimal (n : Int) : Lacks c (decimal n) := by
  intro h
  rcases mem_decimal h with hsign | ⟨d, hd, hdigit⟩
  · exact Foreign.ne_of_mem_signs (by decide) hsign
  · exact hc.ne_digit d (by omega) hdigit

@[simp] theorem lacks_hex (n : Int) (width : Nat) : Lacks c (hex n width) := by
  intro h
  rcases mem_hex h with hsign | ⟨d, hd, hdigit⟩
  · exact Foreign.ne_of_mem_signs (by decide) hsign
  · exact hc.ne_digit d hd hdigit

theorem lacks_sign (n : Int) : Lacks c (sign n) := by
  rw [sign]
  split
  · exact fun h => Foreign.ne_of_mem_signs (by decide) (List.mem_singleton.mp h)
  · exact List.not_mem_nil

@[simp] theorem lacks_natural (n : Nat) : Lacks c (natural n) := by
  rw [natural, lacks_ofList]
  intro h
  obtain ⟨d, hd, hdigit⟩ := List.mem_map.mp h
  have hlt := digits_lt (by decide) n d hd
  exact hc.ne_digit d (by omega) hdigit.symm

@[simp] theorem lacks_hexSmall (n : Int) : Lacks c (hexSmall n) := by
  rw [hexSmall, lacks_append, lacks_ofList]
  refine ⟨lacks_sign n, fun h => ?_⟩
  obtain ⟨d, hd, hdigit⟩ := List.mem_map.mp h
  exact hc.ne_smallDigit d (digits_lt (by decide) _ d hd) hdigit.symm

@[simp] theorem lacks_rightAligned (n : Int) (width : Nat) : Lacks c (rightAligned n width) := by
  rw [rightAligned, lacks_append, fill, lacks_ofList]
  exact ⟨fun h => hc.ne_space (List.eq_of_mem_replicate h), lacks_decimal n⟩

end Numeral

namespace Decimal

theorem lt_of_mem_dropZeros {ds : List Nat} (h : ∀ d ∈ ds, d < 10) :
    ∀ d ∈ dropZeros ds, d < 10 := by
  intro d hd
  rw [dropZeros, List.mem_reverse] at hd
  exact h d (List.mem_reverse.mp ((List.dropWhile_sublist _).subset hd))

theorem lt_of_mem_shortest (m : Nat) (e : Int) : ∀ d ∈ (shortest m e).1, d < 10 := by
  unfold shortest
  dsimp only
  split
  · next ds e' hhit =>
    obtain ⟨n, -, hn⟩ := List.exists_of_findSome?_eq_some hhit
    obtain ⟨k, -, hk⟩ := Option.map_eq_some_iff.mp hn
    obtain ⟨rfl, -⟩ := Prod.mk.inj hk
    exact lt_of_mem_dropZeros (Numeral.digits_lt (by decide) k)
  · exact List.forall_mem_singleton.mpr (by decide)

theorem lacks_digitText {ds : List Nat} (h : ∀ d ∈ ds, d < 10) : Lacks c (digitText ds) := by
  rw [digitText, lacks_ofList]
  intro hmem
  obtain ⟨d, hd, hdigit⟩ := List.mem_map.mp hmem
  have hlt := h d hd
  exact hc.ne_digit d (by omega) hdigit.symm

theorem lt_of_mem_zeroDigits (n : Int) : ∀ d ∈ zeroDigits n, d < 10 := by
  intro d hd
  rw [List.eq_of_mem_replicate hd]
  decide

theorem lacks_place {ds : List Nat} (h : ∀ d ∈ ds, d < 10) (point : Int) :
    Lacks c (place ds point) := by
  have hpoint : Lacks c "." := Foreign.lacks_signs (by decide)
  unfold place
  split
  · split
    · rw [lacks_append]
      exact ⟨Foreign.lacks_signs (by decide),
        lacks_digitText (List.forall_mem_append.mpr ⟨lt_of_mem_zeroDigits _, h⟩)⟩
    · split
      · rw [lacks_append]
        exact ⟨lacks_digitText (List.forall_mem_append.mpr ⟨h, lt_of_mem_zeroDigits _⟩),
          Foreign.lacks_signs (by decide)⟩
      · rw [lacks_append, lacks_append]
        exact ⟨⟨lacks_digitText fun d hd => h d (List.mem_of_mem_take hd), hpoint⟩,
          lacks_digitText fun d hd => h d (List.mem_of_mem_drop hd)⟩
  · -- the mantissa, the exponent and its sign
    have hsign : Lacks c (if point - 1 < 0 then "-" else "+") := by
      split
      · exact Foreign.lacks_signs (by decide)
      · exact Foreign.lacks_signs (by decide)
    have hfill (k n : Nat) : Lacks c (Numeral.fill '0' k n) := by
      rw [Numeral.fill, lacks_ofList]
      exact fun hmem => Foreign.ne_of_mem_signs (by decide) (List.eq_of_mem_replicate hmem)
    simp only [lacks_append, Numeral.lacks_natural, and_true]
    refine ⟨⟨⟨?_, Foreign.lacks_signs (by decide)⟩, hsign⟩, hfill _ _⟩
    split
    · exact Foreign.lacks_signs (by decide)
    · exact lacks_digitText h
    · rw [List.forall_mem_cons] at h
      rw [lacks_append, lacks_append]
      exact ⟨⟨lacks_digitText (List.forall_mem_singleton.mpr h.1), hpoint⟩, lacks_digitText h.2⟩

/-- The text of a double precision number. -/
theorem lacks_render (x : Float) : Lacks c (render x) := by
  have hsign (negative : Bool) : Lacks c (if negative then "-" else "") := by
    split
    · exact Foreign.lacks_signs (by decide)
    · exact List.not_mem_nil
  unfold render
  split
  · exact Foreign.lacks_signs (by decide)
  · split
    · exact Foreign.lacks_signs (by decide)
    · exact Foreign.lacks_signs (by decide)
  · next negative m e _ =>
    rw [lacks_append]
    refine ⟨hsign negative, ?_⟩
    split
    · exact Foreign.lacks_signs (by decide)
    · exact lacks_place (lt_of_mem_shortest m e) _

end Decimal

@[simp] theorem Writing.lacks_text (w : Writing) (n : Int) : Lacks c (w.text n) := by
  rw [Writing.text]
  split
  · exact Decimal.lacks_render _
  · exact Numeral.lacks_decimal n

end Numbers

end ChipSupport
