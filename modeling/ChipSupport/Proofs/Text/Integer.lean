import ChipSupport.Proofs.Text.Numeral
import ChipSupport.Text.Numeral.Parse

/-!
# Texts that are read as integers

An integer in base ten may have white space around it and one sign in front.  Its digits may be
those of any script, and an underscore may stand between two digits.  Nothing else is read.

## Main definitions

* `Numeral.Grouped` — digits with single underscores between them.
* `Numeral.IsInteger` — the texts that are integers in base ten.

## Main results

* `Numeral.isSome_readDigits_iff` — digits are read exactly if they are grouped.
* `Numeral.exists_parse_iff` — **a text is read in base ten exactly if it is an integer.**
* `Numeral.isInteger_append_iff` — digits are an integer, also in front of white space.
* `Numeral.parse_natural` — **a number that was written is read, unless it has too many digits.**
-/

namespace ChipSupport

namespace Text

/-! ### White space, letters and digits -/

/-- What is dropped at both ends of a text leaves what begins and ends with characters that are not
to be dropped. -/
theorem dropEnds_of_ends {p : Char → Bool} {front s back : List Char}
    (hfront : ∀ c ∈ front, p c = true) (hhead : ∀ c ∈ s.head?, p c = false)
    (hlast : ∀ c ∈ s.getLast?, p c = false) (hback : ∀ c ∈ back, p c = true) :
    (((front ++ s ++ back).dropWhile p).reverse.dropWhile p).reverse = s := by
  have hdrop {s : List Char} (hs : ∀ c ∈ s.head?, p c = false) : s.dropWhile p = s := by
    cases s with
    | nil => rfl
    | cons c s =>
      have hc : ¬ p c = true := by rw [hs c rfl]; exact Bool.false_ne_true
      exact List.dropWhile_cons_of_neg hc
  rw [List.append_assoc, List.dropWhile_append_of_pos hfront]
  cases s with
  | nil =>
    have hnil : back.dropWhile p = [] := List.dropWhile_eq_nil_iff.mpr hback
    rw [List.nil_append, hnil]
    rfl
  | cons c s =>
    have hkept : (c :: s ++ back).dropWhile p = c :: s ++ back := hdrop hhead
    have hreverse : ∀ d ∈ (c :: s).reverse.head?, p d = false := by rwa [List.head?_reverse]
    rw [hkept, List.reverse_append,
      List.dropWhile_append_of_pos fun c hc => hback c (List.mem_reverse.mp hc), hdrop hreverse,
      List.reverse_reverse]

/-- What is dropped at both ends of a text leaves the characters that are not to be dropped. -/
theorem dropEnds_append {p : Char → Bool} {front s back : List Char}
    (hfront : ∀ c ∈ front, p c = true) (hs : ∀ c ∈ s, p c = false)
    (hback : ∀ c ∈ back, p c = true) :
    (((front ++ s ++ back).dropWhile p).reverse.dropWhile p).reverse = s :=
  dropEnds_of_ends hfront (fun c hc => hs c (List.mem_of_mem_head? hc))
    (fun c hc => hs c (List.mem_of_mem_getLast? hc)) hback

theorem toNat_lt_of_isAlphanum {c : Char} (h : c.isAlphanum = true) : c.toNat < 128 := by
  have hz : c ≤ 'z' := by
    simp only [Char.isAlphanum, Char.isAlpha, Char.isUpper, Char.isLower, Char.isDigit,
      Bool.or_eq_true, Bool.and_eq_true, decide_eq_true_eq] at h
    rcases h with (⟨-, hle⟩ | ⟨-, hle⟩) | ⟨-, hle⟩
    · exact le_trans hle (by decide)
    · exact hle
    · exact le_trans hle (by decide)
  have hcode : c.toNat ≤ 'z'.toNat := hz
  exact hcode.trans_lt (by decide)

/-- A property of letters and digits of the common script, checked one by one. -/
theorem forall_isAlphanum {P : Char → Prop}
    (hP : ∀ n < 128, (Char.ofNat n).isAlphanum = true → P (Char.ofNat n)) {c : Char}
    (hc : c.isAlphanum = true) : P c := by
  have hcode := hP c.toNat (toNat_lt_of_isAlphanum hc)
  rw [Char.ofNat_toNat] at hcode
  exact hcode hc

theorem isBlank_of_isAlphanum {c : Char} (h : c.isAlphanum = true) : isBlank c = false :=
  forall_isAlphanum (P := fun c => isBlank c = false) (by decide) h

/-! ### Decimal digits -/

theorem isDecimal_iff {c : Char} :
    isDecimal c = true ↔ ∃ z ∈ zeros, z ≤ c.toNat ∧ c.toNat < z + 10 := by
  rw [isDecimal, decimalValue, Option.isSome_map, List.find?_isSome]
  simp

/-- The digits of all scripts but the common one are above the letters of the common one. -/
theorem toNat_of_isDecimal {c : Char} (h : isDecimal c = true) :
    (48 ≤ c.toNat ∧ c.toNat < 58) ∨ 1632 ≤ c.toNat := by
  have hzeros : ∀ z ∈ zeros, z = 48 ∨ 1632 ≤ z := by decide
  obtain ⟨z, hz, hle, hlt⟩ := isDecimal_iff.mp h
  rcases hzeros z hz with rfl | hlarge
  · exact .inl ⟨hle, hlt⟩
  · exact .inr (le_trans hlarge hle)

theorem decimalValue_lt {c : Char} {d : Nat} (h : decimalValue c = some d) : d < 10 := by
  rw [decimalValue, Option.map_eq_some_iff] at h
  obtain ⟨z, hz, rfl⟩ := h
  have hrange := List.find?_some hz
  simp only [Bool.and_eq_true, decide_eq_true_eq] at hrange
  omega

/-- White space is no digit. -/
theorem isBlank_of_isDecimal {c : Char} (h : isDecimal c = true) : isBlank c = false := by
  have hapart : ∀ z ∈ zeros, ∀ r ∈ blankRanges, z + 10 ≤ r.1 ∨ r.2 < z := by decide
  obtain ⟨z, hz, hle, hlt⟩ := isDecimal_iff.mp h
  rw [Bool.eq_false_iff]
  intro hblank
  rw [isBlank, inRanges, List.any_eq_true] at hblank
  obtain ⟨r, hr, hrange⟩ := hblank
  simp only [Bool.and_eq_true, decide_eq_true_eq] at hrange
  rcases hapart z hz r hr with hbelow | habove
  · omega
  · omega

end Text

namespace Numeral

open Text

theorem isMargin_of_isDecimal {c : Char} (h : isDecimal c = true) : isMargin c = false := by
  rw [isMargin]
  split
  next hcommon =>
    have hdigit : c ≠ ' ' ∧ ¬ c.toNat ≤ 13 := by
      rcases toNat_of_isDecimal h with hrange | hlarge
      · refine ⟨?_, by omega⟩
        rintro rfl
        exact absurd hrange.1 (by decide)
      · omega
    simp [hdigit]
  next => exact isBlank_of_isDecimal h

/-- The letters are no digits in base ten. -/
theorem digitBelow_ten (c : Char) : digitBelow 10 c = decimalValue c := by
  have hletter (k : Nat) (hk : 10 ≤ c.toNat - k)
      (hnone : ¬ isDecimal c = true) : (some (c.toNat - k)).filter (· < 10) = decimalValue c := by
    rw [isDecimal, Bool.not_eq_true, Option.isSome_eq_false_iff, Option.isNone_iff_eq_none] at hnone
    rw [hnone, Option.filter_some, if_neg (by simpa using hk)]
  rw [digitBelow, digitValue]
  split
  next hsmall =>
    have hrange : 97 ≤ c.toNat ∧ c.toNat ≤ 122 := hsmall
    refine hletter 87 (by omega) fun hdecimal => ?_
    rcases toNat_of_isDecimal hdecimal with h | h <;> omega
  next =>
    split
    next hcapital =>
      have hrange : 65 ≤ c.toNat ∧ c.toNat ≤ 90 := hcapital
      refine hletter 55 (by omega) fun hdecimal => ?_
      rcases toNat_of_isDecimal hdecimal with h | h <;> omega
    next =>
      cases hvalue : decimalValue c with
      | none => rfl
      | some d => rw [Option.filter_some, if_pos (decide_eq_true (decimalValue_lt hvalue))]

theorem ne_underscore_of_isDecimal {c : Char} (h : isDecimal c = true) : c ≠ '_' := by
  rintro rfl
  exact absurd h (by decide)

/-! ### Digits in groups -/

/-- Digits, with single underscores between some of them. -/
structure Grouped (s : List Char) : Prop where
  /-- There is a digit at the start. -/
  first : ∃ c ∈ s.head?, isDecimal c = true
  /-- There is a digit at the end. -/
  last : ∃ c ∈ s.getLast?, isDecimal c = true
  /-- There are only digits and underscores. -/
  chars : ∀ c ∈ s, c = '_' ∨ isDecimal c = true
  /-- No two underscores are next to each other. -/
  chain : s.IsChain fun c d => c ≠ '_' ∨ d ≠ '_'

theorem grouped_iff {s : List Char} : Grouped s ↔
    (∃ c ∈ s.head?, isDecimal c = true) ∧ (∃ c ∈ s.getLast?, isDecimal c = true) ∧
      (∀ c ∈ s, c = '_' ∨ isDecimal c = true) ∧ s.IsChain fun c d => c ≠ '_' ∨ d ≠ '_' :=
  ⟨fun h => ⟨h.first, h.last, h.chars, h.chain⟩, fun h => ⟨h.1, h.2.1, h.2.2.1, h.2.2.2⟩⟩

/-- Behind a digit stands the next one, or an underscore and the next one. -/
theorem grouped_cons_of_ne {c d : Char} (hc : isDecimal c = true) (hd : d ≠ '_')
    (rest : List Char) : Grouped (c :: d :: rest) ↔ isDecimal d = true ∧ Grouped (d :: rest) := by
  have hne := ne_underscore_of_isDecimal hc
  simp only [grouped_iff, List.head?_cons, Option.mem_some_iff, exists_eq_left', hc, true_and,
    List.getLast?_cons_cons, List.forall_mem_cons, hne, hd, false_or, List.isChain_cons_cons, ne_eq,
    not_false_eq_true, true_or]
  tauto

theorem grouped_cons_underscore {c d : Char} (hc : isDecimal c = true) (rest : List Char) :
    Grouped (c :: '_' :: d :: rest) ↔ isDecimal d = true ∧ Grouped (d :: rest) := by
  have hne := ne_underscore_of_isDecimal hc
  by_cases hd : d = '_'
  · have hnone : isDecimal '_' = false := by decide
    simp [grouped_iff, hd, hnone]
  · simp only [grouped_iff, List.head?_cons, Option.mem_some_iff, exists_eq_left', hc, true_and,
      List.getLast?_cons_cons, List.forall_mem_cons, hne, hd, false_or, List.isChain_cons_cons,
      ne_eq, not_false_eq_true, true_or, or_true]
    tauto

theorem grouped_singleton {c : Char} (hc : isDecimal c = true) : Grouped [c] := by
  simp [grouped_iff, hc]

theorem not_grouped_append_underscore (s : List Char) : ¬ Grouped (s ++ ['_']) := by
  intro h
  obtain ⟨c, hc, hdecimal⟩ := h.last
  rw [List.getLast?_concat, Option.mem_some_iff] at hc
  exact ne_underscore_of_isDecimal hdecimal hc.symm

/-- What is read on behind a digit goes on in groups. -/
theorem isSome_readOn_iff {v : Nat} {c : Char} (hc : isDecimal c = true) (s : List Char) :
    (readOn 10 v s).isSome = true ↔ Grouped (c :: s) := by
  -- a digit, behind which the reading goes on
  have hstep {v : Nat} {d : Char} {rest : List Char} (ih : ∀ k, isDecimal d = true →
      ((readOn 10 (v * 10 + k) rest).isSome = true ↔ Grouped (d :: rest))) :
      ((digitBelow 10 d).bind fun k => readOn 10 (v * 10 + k) rest).isSome = true
        ↔ isDecimal d = true ∧ Grouped (d :: rest) := by
    rw [digitBelow_ten]
    cases hvalue : decimalValue d with
    | none => simp [isDecimal, hvalue]
    | some k =>
      have hd : isDecimal d = true := by rw [isDecimal, hvalue, Option.isSome_some]
      rw [Option.bind_some, ih k hd, and_iff_right hd]
  fun_induction readOn 10 v s generalizing c with
  | case1 v => exact iff_of_true rfl (grouped_singleton hc)
  | case2 v => exact iff_of_false Bool.false_ne_true (not_grouped_append_underscore [c])
  | case3 v d rest ih =>
    rw [grouped_cons_underscore hc]
    exact hstep fun k hd => ih k hd
  | case4 v d rest hd ih =>
    rw [grouped_cons_of_ne hc hd]
    exact hstep fun k hd => ih k hd

/-- **Digits are read exactly if they stand in groups.** -/
theorem isSome_readDigits_iff (s : List Char) : (readDigits 10 s).isSome = true ↔ Grouped s := by
  cases s with
  | nil => simp [readDigits, grouped_iff]
  | cons c rest =>
    rw [readDigits, digitBelow_ten]
    cases hvalue : decimalValue c with
    | none =>
      have hc : isDecimal c = false := by rw [isDecimal, hvalue, Option.isSome_none]
      simp [grouped_iff, hc]
    | some k =>
      have hc : isDecimal c = true := by rw [isDecimal, hvalue, Option.isSome_some]
      rw [Option.bind_some, isSome_readOn_iff hc]

/-! ### Integers -/

/-- What is left of a numeral without white space and sign. -/
def body (s : List Char) : List Char := dropSign (dropMargins s)

/-- The texts that are integers in base ten: not too many digits in groups, with white space and a
sign. -/
def IsInteger (s : List Char) : Prop :=
  Grouped (body s) ∧ ((body s).filter (· != '_')).length ≤ longest

/-- Base ten has no mark. -/
theorem dropMark_ten (s : List Char) : dropMark 10 s = s := by
  unfold dropMark
  split
  · rfl
  · rfl

theorem isSome_read_iff (s : List Char) : (read 10 s).isSome = true ↔ Grouped (body s) := by
  have hvalue (digits : Option Nat) (f : Nat → Int) :
      (digits.bind fun n => some (f n)).isSome = digits.isSome := by
    cases digits <;> rfl
  rw [← isSome_readDigits_iff]
  unfold read body
  generalize dropMargins s = t
  unfold dropSign
  split <;> simp [dropMark_ten, hvalue]

/-- The digits at the beginning of an integer are all of it. -/
theorem digitRun_eq {s : List Char} (h : Grouped (body s)) : digitRun s = body s := by
  rw [digitRun, ← body, List.takeWhile_eq_self_iff]
  intro c hc
  have hchar := h.chars c hc
  rw [digitBelow_ten]
  simpa [isDecimal] using hchar

theorem excess?_eq_none_iff {s : List Char} (h : Grouped (body s)) :
    excess? s = none ↔ ((body s).filter (· != '_')).length ≤ longest := by
  have hread : (readDigits 10 (body s)).isSome = true := (isSome_readDigits_iff _).mpr h
  simp only [excess?, digitRun_eq h, hread, and_true, ite_eq_right_iff, reduceCtorEq, imp_false,
    not_lt]

/-- **A text is read in base ten exactly if it is an integer.** -/
theorem exists_parse_iff (s : List Char) : (∃ n, parse 10 s = .ok n) ↔ IsInteger s := by
  have hparse : (∃ n, parse 10 s = .ok n) ↔ excess? s = none ∧ (read 10 s).isSome = true := by
    rw [parse, if_pos rfl]
    cases excess? s with
    | some count => simp
    | none => cases read 10 s <;> simp
  rw [hparse, isSome_read_iff, IsInteger, and_comm]
  exact and_congr_right fun h => excess?_eq_none_iff h

/-- White space behind digits is dropped. -/
theorem body_append {ds tail : List Char} (hds : ∀ c ∈ ds, isDecimal c = true)
    (htail : ∀ c ∈ tail, isMargin c = true) : body (ds ++ tail) = ds := by
  have hmargins : dropMargins (ds ++ tail) = ds :=
    dropEnds_append (List.forall_mem_nil _) (fun c hc => isMargin_of_isDecimal (hds c hc)) htail
  rw [body, hmargins]
  -- a digit is no sign
  cases ds with
  | nil => rfl
  | cons c ds =>
    have hc := hds c List.mem_cons_self
    unfold dropSign
    split
    next heq =>
      rw [List.cons.injEq] at heq
      rw [heq.1] at hc
      exact absurd hc (by decide)
    next heq =>
      rw [List.cons.injEq] at heq
      rw [heq.1] at hc
      exact absurd hc (by decide)
    next => rfl

theorem grouped_of_forall {ds : List Char} (hne : ds ≠ []) (hds : ∀ c ∈ ds, isDecimal c = true) :
    Grouped ds where
  first := ⟨ds.head hne, List.head?_eq_some_head hne, hds _ (List.head_mem hne)⟩
  last := ⟨ds.getLast hne, List.getLast?_eq_some_getLast hne, hds _ (List.getLast_mem hne)⟩
  chars := fun c hc => .inr (hds c hc)
  chain := by
    refine List.Pairwise.isChain (List.pairwise_of_forall_mem_list ?_)
    intro c hc d _
    exact .inl (ne_underscore_of_isDecimal (hds c hc))

theorem filter_ne_underscore {ds : List Char} (hds : ∀ c ∈ ds, isDecimal c = true) :
    ds.filter (· != '_') = ds := by
  rw [List.filter_eq_self]
  intro c hc
  exact bne_iff_ne.mpr (ne_underscore_of_isDecimal (hds c hc))

/-- Digits are an integer, also in front of white space, unless they are too many. -/
theorem isInteger_append_iff {ds tail : List Char} (hne : ds ≠ [])
    (hds : ∀ c ∈ ds, isDecimal c = true) (htail : ∀ c ∈ tail, isMargin c = true) :
    IsInteger (ds ++ tail) ↔ ds.length ≤ longest := by
  rw [IsInteger, body_append hds htail, filter_ne_underscore hds]
  exact and_iff_right (grouped_of_forall hne hds)

/-! ### Letters and digits of the common script -/

theorem isMargin_of_isAlphanum {c : Char} (h : c.isAlphanum = true) : isMargin c = false :=
  forall_isAlphanum (P := fun c => isMargin c = false) (by decide) h

/-- A text of letters and digits has no sign. -/
theorem read_of_isAlphanum (base : Nat) {s : List Char} (hs : ∀ c ∈ s, c.isAlphanum = true) :
    read base s = (readDigits base (dropMark base s)).map Int.ofNat := by
  have hmargins : dropMargins s = s := by
    have hends := dropEnds_append (List.forall_mem_nil _)
      (fun c hc => isMargin_of_isAlphanum (hs c hc)) (List.forall_mem_nil _)
    rwa [List.nil_append, List.append_nil] at hends
  rw [read, hmargins]
  split
  · exact absurd (hs '-' List.mem_cons_self) (by decide)
  · exact absurd (hs '+' List.mem_cons_self) (by decide)
  · cases readDigits base (dropMark base s) <;> rfl

theorem isDecimal_digitChar {d : Nat} (h : d < 10) : isDecimal (digitChar d) = true := by
  rw [isDecimal, ← digitBelow_ten, digitBelow_digitChar h (by decide), Option.isSome_some]

theorem read_natural (n : Nat) : read 10 (natural n).toList = some (n : Int) := by
  rw [read_of_isAlphanum 10 isAlphanum_of_mem_natural, dropMark_ten, readDigits_natural]
  rfl

theorem excess?_natural (n : Nat) : excess? (natural n).toList =
    if longest < (digits 10 n).length then some (digits 10 n).length else none := by
  have hdecimal : ∀ c ∈ (natural n).toList, isDecimal c = true :=
    forall_mem_natural (fun d hd => isDecimal_digitChar hd) n
  have hread : (readDigits 10 (natural n).toList).isSome = true := by
    rw [readDigits_natural, Option.isSome_some]
  have hbody : body (natural n).toList = (natural n).toList := by
    have happend := body_append hdecimal (List.forall_mem_nil _)
    rwa [List.append_nil] at happend
  have hgrouped : Grouped (body (natural n).toList) := by
    rwa [hbody, ← isSome_readDigits_iff]
  have hcount : ((natural n).toList.filter (· != '_')).length = (digits 10 n).length := by
    rw [filter_ne_underscore hdecimal, toList_natural, List.length_map]
  simp only [excess?, digitRun_eq hgrouped, hbody, hread, hcount, and_true]

/-- **A number that was written in base ten is read, unless it has too many digits.** -/
theorem parse_natural (n : Nat) : parse 10 (natural n).toList =
    if longest < (digits 10 n).length then .error (.numeralTooLong (digits 10 n).length)
    else .ok (n : Int) := by
  rw [parse, if_pos rfl, excess?_natural, read_natural]
  by_cases hlong : longest < (digits 10 n).length
  · rw [if_pos hlong, if_pos hlong]
  · rw [if_neg hlong, if_neg hlong]

end Numeral

end ChipSupport
