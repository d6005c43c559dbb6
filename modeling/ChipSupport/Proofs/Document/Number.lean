import ChipSupport.Document.Node
import ChipSupport.Proofs.Text.Integer
import ChipSupport.Proofs.Text.LetterCase
import ChipSupport.Proofs.Text.Numbering

/-!
# Numbers of attributes

A number can be spelled in three bases, with zeros in front, with letters of both cases and with
white space around it.  Each of its spellings is read as the number, where only the length of a
numeral in base ten is limited.

## Main definitions

* `Node.Spells` — the spellings of a number.
* `Node.numberBy` — the number that a value spells, with any way to read integers.

## Main results

* `Node.numberBy_parse` — attributes are read with a limit on the length of numerals.
* `Node.exists_numberBy_eq` — what is left of a spelling for the reading of an integer.
* `Node.numberBy_spelling` — **each spelling of a number is read as the number.**
-/

namespace ChipSupport

open Text Numeral

/-! ### Reading without a limit -/

namespace Numeral

/-- The integer that a text of any length spells in a base. -/
def parseAny (base : Nat) (s : List Char) : Except Fault Int :=
  match read base s with
  | some n => .ok n
  | none => .error (.numeralMalformed base (String.ofList s))

/-- Only the length of a numeral in base ten is limited. -/
theorem parse_eq (base : Nat) (s : List Char) :
    parse base s = match if base = 10 then excess? s else none with
      | some count => .error (.numeralTooLong count)
      | none => parseAny base s := by
  rw [parse]
  cases if base = 10 then excess? s else none with
  | some count => rfl
  | none => cases hread : read base s <;> simp only [parseAny, hread]

theorem parse_eq_parseAny {base : Nat} (hbase : base ≠ 10) (s : List Char) :
    parse base s = parseAny base s := by
  rw [parse_eq, if_neg hbase]

theorem parseAny_of_read {base : Nat} {s : List Char} {n : Int} (h : read base s = some n) :
    parseAny base s = .ok n := by
  rw [parseAny, h]

end Numeral

namespace Node

/-- The number that a value spells, with a way to read integers. -/
def numberBy (parse : Nat → List Char → Except Fault Int) (d : Data) (absent : Int := 0) :
    Except Fault Int :=
  match d with
  | .text s =>
    let word := lowerFrom [] (trimChars s.toList)
    if s.isEmpty then .ok absent
    else if ['0', 'x'].isPrefixOf word then parse 16 word
    else if ['0', 'b'].isPrefixOf word then parse 2 word
    else parse 10 (dropZeros word)
  | d => number d absent

/-- Attributes are read with a limit on the length of numerals in base ten. -/
theorem numberBy_parse (d : Data) (absent : Int) : numberBy parse d absent = number d absent := by
  cases d <;> rfl

/-! ### Spellings -/

/-- The characters of a digit, which may be letters of both cases. -/
def IsDigit (c : Char) (d : Nat) : Prop := c = digitChar d ∨ c = smallDigitChar d

/-- The digits of a number in a base, with zeros in front. -/
def SpellsDigits (base n : Nat) (s : List Char) : Prop :=
  ∃ (zeros : Nat) (cs : List Char), s = List.replicate zeros '0' ++ cs ∧
    List.Forall₂ IsDigit cs (digits base n)

/-- The spellings of a number in the bases sixteen, two and ten. -/
inductive Spells (n : Nat) : Nat → List Char → Prop
  | hexadecimal {mark : Char} {s : List Char} (hmark : mark = 'x' ∨ mark = 'X')
      (hs : SpellsDigits 16 n s) : Spells n 16 ('0' :: mark :: s)
  | binary {mark : Char} {s : List Char} (hmark : mark = 'b' ∨ mark = 'B')
      (hs : SpellsDigits 2 n s) : Spells n 2 ('0' :: mark :: s)
  | decimal {s : List Char} (hs : SpellsDigits 10 n s) : Spells n 10 s

theorem IsDigit.isAlphanum {c : Char} {d : Nat} (hd : d < 16) (h : IsDigit c d) :
    c.isAlphanum = true := by
  have hsmall : ∀ d < 16, (smallDigitChar d).isAlphanum = true := by decide
  rcases h with rfl | rfl
  · exact isAlphanum_digitChar d hd
  · exact hsmall d hd

/-- The small form of a digit is read as the digit. -/
theorem IsDigit.digitBelow_toLower {base d : Nat} {c : Char} (hd : d < base) (hbase : base ≤ 16)
    (h : IsDigit c d) : digitBelow base c.toLower = some d := by
  have hlower : ∀ d < 16, digitValue (digitChar d).toLower = some d ∧
      digitValue (smallDigitChar d).toLower = some d := by decide +kernel
  have hvalue : digitValue c.toLower = some d := by
    rcases h with rfl | rfl
    · exact (hlower d (by omega)).1
    · exact (hlower d (by omega)).2
  rw [digitBelow, hvalue, Option.filter_some, if_pos (decide_eq_true hd)]

theorem IsDigit.toLower_eq {c : Char} {d : Nat} (hd : d < 10) (h : IsDigit c d) :
    c.toLower = digitChar d := by
  have hlower : ∀ d < 10, (digitChar d).toLower = digitChar d ∧
      (smallDigitChar d).toLower = digitChar d := by decide
  rcases h with rfl | rfl
  · exact (hlower d hd).1
  · exact (hlower d hd).2

section

variable {base n : Nat} {s : List Char}

/-- The digits that are spelled, the zeros in front included. -/
theorem SpellsDigits.exists_forall₂ (hlow : 2 ≤ base) (h : SpellsDigits base n s) :
    ∃ zeros, List.Forall₂ (fun c d => d < base ∧ IsDigit c d) s
      (List.replicate zeros 0 ++ digits base n) := by
  obtain ⟨zeros, cs, rfl, hcs⟩ := h
  have hzeros : List.Forall₂ IsDigit (List.replicate zeros '0') (List.replicate zeros 0) := by
    have hmap : List.replicate zeros '0' = (List.replicate zeros 0).map digitChar := by
      rw [List.map_replicate]
      rfl
    rw [hmap, List.forall₂_map_left_iff, List.forall₂_same]
    exact fun d _ => .inl rfl
  have hall := List.rel_append hzeros hcs
  exact ⟨zeros,
    ((List.forall₂_and_left _ _).mpr ⟨lt_of_mem_replicate_append hlow, hall.flip⟩).flip⟩

theorem SpellsDigits.isAlphanum (hlow : 2 ≤ base) (hbase : base ≤ 16) (h : SpellsDigits base n s) :
    ∀ c ∈ s, c.isAlphanum = true := by
  obtain ⟨zeros, hall⟩ := h.exists_forall₂ hlow
  intro c hc
  obtain ⟨d, -, hd, hcd⟩ := Steps.exists_mem_of_forall₂ hall hc
  exact hcd.isAlphanum (hd.trans_le hbase)

/-- Digits are read as their number when they are in lower case. -/
theorem SpellsDigits.readDigits_eq (hlow : 2 ≤ base) (hbase : base ≤ 16)
    (h : SpellsDigits base n s) : readDigits base (s.map Char.toLower) = some n := by
  obtain ⟨zeros, hall⟩ := h.exists_forall₂ hlow
  have hreads : Reads base (s.map Char.toLower) (List.replicate zeros 0 ++ digits base n) := by
    rw [Reads, List.forall₂_map_left_iff]
    exact hall.imp fun c d hcd => hcd.2.digitBelow_toLower hcd.1 hbase
  have hne : List.replicate zeros 0 ++ digits base n ≠ [] :=
    List.append_ne_nil_of_right_ne_nil _ (digits_ne_nil base n)
  rw [readDigits_of_reads hreads hne, value_replicate_zero_append, value_digits]

/-- Digits in base ten are zeros and the number as it is written. -/
theorem SpellsDigits.exists_eq_natural (h : SpellsDigits 10 n s) :
    ∃ zeros, s.map Char.toLower = List.replicate zeros '0' ++ (natural n).toList := by
  obtain ⟨zeros, hall⟩ := h.exists_forall₂ (by decide)
  have hlower : List.Forall₂ Eq (s.map Char.toLower)
      ((List.replicate zeros 0 ++ digits 10 n).map digitChar) := by
    rw [List.forall₂_map_left_iff, List.forall₂_map_right_iff]
    exact hall.imp fun c d hcd => hcd.2.toLower_eq hcd.1
  rw [List.forall₂_eq_eq_eq, List.map_append, List.map_replicate, ← toList_natural] at hlower
  exact ⟨zeros, hlower⟩

/-- The zeros in front of a number are dropped, but not the only one of zero. -/
theorem dropZeros_natural (zeros n : Nat) :
    dropZeros (List.replicate zeros '0' ++ (natural n).toList) = (natural n).toList := by
  have hzeros : ∀ c ∈ List.replicate zeros '0', (c == '0') = true := by
    intro c hc
    rw [List.eq_of_mem_replicate hc]
    rfl
  rw [dropZeros, List.dropWhile_append_of_pos hzeros, toList_natural]
  obtain ⟨d, ds, hds, hd⟩ := exists_digits_eq_cons n
  rcases Nat.eq_zero_or_pos d with rfl | hpos
  · -- only zero begins with a zero
    rw [hds, eq_nil_of_digits_eq_zero_cons hds]
    rfl
  · have hfirst : ∀ d < 10, 0 < d → ¬ (digitChar d == '0') = true := by decide
    rw [hds, List.map_cons, List.dropWhile_cons_of_neg (p := (· == '0')) (hfirst d hd hpos)]

/-- A word of digits has no mark. -/
theorem isPrefixOf_mark_eq_false (mark : Char) (hmark : mark.isDigit = false)
    (hs : ∀ c ∈ s, c.isDigit = true) : ['0', mark].isPrefixOf s = false := by
  rw [Bool.eq_false_iff, Ne, List.isPrefixOf_iff_prefix]
  intro hprefix
  have hmem : mark ∈ s := hprefix.subset (List.mem_cons_of_mem _ List.mem_cons_self)
  exact Bool.false_ne_true (hmark.symm.trans (hs mark hmem))

theorem dropMark_cons {mark : Char} {t : List Char} (hmark : baseMark base mark = true)
    (ht : ∀ c ∈ t, c.isAlphanum = true) : dropMark base ('0' :: mark :: t) = t := by
  simp only [dropMark, hmark, if_true]
  split
  · exact absurd (ht '_' List.mem_cons_self) (by decide)
  · rfl

/-! ### Words -/

theorem Spells.isAlphanum (h : Spells n base s) : ∀ c ∈ s, c.isAlphanum = true := by
  have hmarked {mark : Char} {base : Nat} {s : List Char} (hlow : 2 ≤ base) (hbase : base ≤ 16)
      (hmark : mark.isAlphanum = true) (hs : SpellsDigits base n s) :
      ∀ c ∈ '0' :: mark :: s, c.isAlphanum = true :=
    List.forall_mem_cons.mpr ⟨by decide, List.forall_mem_cons.mpr
      ⟨hmark, hs.isAlphanum hlow hbase⟩⟩
  cases h with
  | hexadecimal hmark hs =>
    refine hmarked (by decide) le_rfl ?_ hs
    rcases hmark with rfl | rfl <;> decide
  | binary hmark hs =>
    refine hmarked le_rfl (by decide) ?_ hs
    rcases hmark with rfl | rfl <;> decide
  | decimal hs => exact hs.isAlphanum (by decide) (by decide)

theorem Spells.ne_nil (h : Spells n base s) : s ≠ [] := by
  cases h with
  | hexadecimal => exact List.cons_ne_nil _ _
  | binary => exact List.cons_ne_nil _ _
  | decimal hs =>
    obtain ⟨zeros, hzeros⟩ := hs.exists_eq_natural
    rintro rfl
    have hnil := (List.append_eq_nil_iff.mp hzeros.symm).2
    rw [toList_natural, List.map_eq_nil_iff] at hnil
    exact digits_ne_nil 10 n hnil

theorem isAlphanum_toLower {c : Char} (h : c.isAlphanum = true) : c.toLower.isAlphanum = true :=
  forall_isAlphanum (P := fun c => c.toLower.isAlphanum = true) (by decide) h

/-- A marked numeral in lower case is read without its mark. -/
theorem read_marked {mark : Char} (hlow : 2 ≤ base) (hbase : base ≤ 16)
    (hmark : baseMark base mark = true) (hword : mark.isAlphanum = true)
    (hs : SpellsDigits base n s) :
    read base ('0' :: mark :: s.map Char.toLower) = some (n : Int) := by
  have ht : ∀ c ∈ s.map Char.toLower, c.isAlphanum = true :=
    List.forall_mem_map.mpr fun c hc => isAlphanum_toLower (hs.isAlphanum hlow hbase c hc)
  have hall : ∀ c ∈ '0' :: mark :: s.map Char.toLower, c.isAlphanum = true :=
    List.forall_mem_cons.mpr ⟨by decide, List.forall_mem_cons.mpr ⟨hword, ht⟩⟩
  rw [read_of_isAlphanum base hall, dropMark_cons hmark ht, hs.readDigits_eq hlow hbase]
  rfl

/-- What is left of a spelling for the reading of an integer: it spells the number in its base, and
in base ten it is the number as it is written. -/
theorem exists_numberBy_eq (h : Spells n base s) {front back : List Char}
    (hfront : ∀ c ∈ front, isBlank c = true) (hback : ∀ c ∈ back, isBlank c = true) :
    ∃ word, read base word = some (n : Int) ∧ (base = 10 → word = (natural n).toList) ∧
      ∀ parse absent, numberBy parse (.text (String.ofList (front ++ s ++ back))) absent
        = parse base word := by
  have hword : lowerFrom [] (trimChars (String.ofList (front ++ s ++ back)).toList)
      = s.map Char.toLower := by
    have htrim : trimChars (front ++ s ++ back) = s :=
      dropEnds_append hfront (fun c hc => isBlank_of_isAlphanum (h.isAlphanum c hc)) hback
    rw [String.toList_ofList, htrim,
      lowerFrom_of_ascii [] fun c hc => toNat_lt_of_isAlphanum (h.isAlphanum c hc)]
  have hempty : (String.ofList (front ++ s ++ back)).isEmpty = false := by
    rw [String.isEmpty_eq_false_iff, Ne, String.ofList_eq_empty_iff, List.append_eq_nil_iff,
      List.append_eq_nil_iff]
    exact fun hnil => h.ne_nil hnil.1.2
  simp only [numberBy, hword, hempty, Bool.false_eq_true, if_false]
  cases h with
  | @hexadecimal mark s hmark hs =>
    have hlower : mark.toLower = 'x' := by rcases hmark with rfl | rfl <;> rfl
    refine ⟨'0' :: 'x' :: s.map Char.toLower, read_marked (by decide) le_rfl rfl rfl hs,
      fun h => absurd h (by decide), fun parse absent => ?_⟩
    rw [List.map_cons, List.map_cons, hlower]
    rfl
  | @binary mark s hmark hs =>
    have hlower : mark.toLower = 'b' := by rcases hmark with rfl | rfl <;> rfl
    refine ⟨'0' :: 'b' :: s.map Char.toLower, read_marked le_rfl (by decide) rfl rfl hs,
      fun h => absurd h (by decide), fun parse absent => ?_⟩
    rw [List.map_cons, List.map_cons, hlower]
    rfl
  | decimal hs =>
    obtain ⟨zeros, hzeros⟩ := hs.exists_eq_natural
    have hdigits : ∀ c ∈ List.replicate zeros '0' ++ (natural n).toList, c.isDigit = true := by
      rw [List.forall_mem_append]
      exact ⟨fun c hc => by rw [List.eq_of_mem_replicate hc]; rfl,
        forall_mem_natural isDigit_digitChar n⟩
    refine ⟨(natural n).toList, read_natural n, fun _ => rfl, fun parse absent => ?_⟩
    have hhex := isPrefixOf_mark_eq_false 'x' rfl hdigits
    have hbinary := isPrefixOf_mark_eq_false 'b' rfl hdigits
    simp only [hzeros, hhex, hbinary, Bool.false_eq_true, if_false, dropZeros_natural]

/-- **Each spelling of a number is read as the number.**  Without a limit on the length of numerals
this holds for all of them, and with the limit for all but those in base ten that are too long. -/
theorem numberBy_spelling (h : Spells n base s) {front back : List Char}
    (hfront : ∀ c ∈ front, isBlank c = true) (hback : ∀ c ∈ back, isBlank c = true)
    (absent : Int) :
    numberBy parseAny (.text (String.ofList (front ++ s ++ back))) absent = .ok (n : Int) ∧
    number (.text (String.ofList (front ++ s ++ back))) absent =
      if base = 10 ∧ longest < (digits 10 n).length then
        .error (.numeralTooLong (digits 10 n).length)
      else .ok (n : Int) := by
  obtain ⟨word, hread, hten, hnumber⟩ := exists_numberBy_eq h hfront hback
  rw [← numberBy_parse, hnumber, hnumber]
  refine ⟨parseAny_of_read hread, ?_⟩
  by_cases hbase : base = 10
  · rw [hbase, hten hbase, parse_natural]
    simp only [true_and]
  · rw [parse_eq_parseAny hbase, parseAny_of_read hread, if_neg fun h => hbase h.1]

theorem numberBy_spelling_mixed :
    let word := ['0', 'X', '0', '0', 'a', 'B']
    let text := Data.text (String.ofList ([' ', Char.ofNat 0xA0] ++ word ++ ['\n']))
    Spells 171 16 word ∧ numberBy parseAny text (-1) = .ok 171 ∧ number text (-1) = .ok 171 := by
  intro word text
  have hdigits : digits 16 171 = [10, 11] := by simp [digits]
  have hspells : Spells 171 16 word := by
    refine .hexadecimal (.inr rfl) ⟨2, ['a', 'B'], rfl, ?_⟩
    rw [hdigits]
    exact .cons (.inr (by decide)) (.cons (.inl (by decide)) .nil)
  have hfront : ∀ c ∈ [' ', Char.ofNat 0xA0], isBlank c = true := List.all_eq_true.mp rfl
  have hback : ∀ c ∈ ['\n'], isBlank c = true := List.all_eq_true.mp rfl
  obtain ⟨hany, hlimited⟩ := numberBy_spelling hspells hfront hback (-1)
  exact ⟨hspells, hany, hlimited⟩

end

end Node

end ChipSupport
