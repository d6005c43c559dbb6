import ChipSupport.Naming
import Mathlib

/-!
# Characters without case in converted names

An underscore has no case, and no other character becomes one.  Capitalizing a name therefore keeps
its underscores, while capitalizing its parts and joining them removes them.  The stroke between the
parts of a path is such a character too.

## Main definitions

* `Text.Caseless` — characters without case that no other character becomes.

## Main results

* `Text.mem_upper`, `Text.mem_lower` — conversion keeps characters without case.
* `capitalized_eq_joinCapitalized_iff` — when both ways to capitalize a name agree.
* `capitalized_ne_append` — a capitalized name is no joined name with `_t` at its end.
-/

namespace ChipSupport

namespace Text

/-! ### Characters -/

/-- A table of runs that reaches a code from nowhere. -/
def Avoids (code : Nat) (runs : List CaseRun) : Prop :=
  ∀ r ∈ runs, (code : Int) < r.first + r.shift ∨ r.last + r.shift < (code : Int)

instance (code : Nat) (runs : List CaseRun) : Decidable (Avoids code runs) :=
  inferInstanceAs (Decidable (∀ r ∈ runs, _))

/-- A character of the first 128 that has no case and that no other character is converted to. -/
structure Caseless (mark : Char) : Prop where
  code_pos : 0 < mark.toNat
  code_lt : mark.toNat < 128
  upper_self : mark.toUpper = mark
  lower_self : mark.toLower = mark
  upper_ascii : ∀ n < 128, (Char.ofNat n).toUpper = mark → Char.ofNat n = mark
  lower_ascii : ∀ n < 128, (Char.ofNat n).toLower = mark → Char.ofNat n = mark
  upper_sequences : ∀ e ∈ upperSequences, mark.toNat ∉ e.2
  upper_runs : Avoids mark.toNat upperRuns
  lower_runs : Avoids mark.toNat lowerRuns

theorem caseless_underscore : Caseless '_' := by constructor <;> decide +kernel

theorem caseless_stroke : Caseless '/' := by constructor <;> decide +kernel

variable {mark : Char}

theorem Caseless.ofNat_ne (h : Caseless mark) {n : Nat} (hn : n ≠ mark.toNat) :
    Char.ofNat n ≠ mark := by
  intro heq
  have hcode : (Char.ofNat n).toNat = mark.toNat := by rw [heq]
  have hpos := h.code_pos
  rw [Char.ofNat] at hcode
  split at hcode
  · exact hn hcode
  · exact absurd hcode.symm (Nat.ne_of_gt hpos)

theorem Caseless.convertBy_ne (h : Caseless mark) {runs : List CaseRun}
    (hruns : Avoids mark.toNat runs) {c : Char} (hc : c ≠ mark) : convertBy runs c ≠ mark := by
  unfold convertBy
  cases hfound : runs.findSome? fun r => r.convert? c.toNat with
  | none => exact hc
  | some n =>
    obtain ⟨r, hr, hconvert⟩ := List.exists_of_findSome?_eq_some hfound
    rw [CaseRun.convert?] at hconvert
    split at hconvert
    · next hcovers =>
      refine h.ofNat_ne ?_
      have hshift := hruns r hr
      have hpos := h.code_pos
      rw [← Option.some.inj hconvert]
      omega
    · cases hconvert

/-- A character without case is its own capital form, and no other character's. -/
theorem mem_upperChar (h : Caseless mark) {c : Char} : mark ∈ upperChar c ↔ c = mark := by
  constructor
  · intro hmem
    by_contra hc
    unfold upperChar at hmem
    split at hmem
    · next hcode =>
      have hself := h.upper_ascii c.toNat hcode
      rw [Char.ofNat_toNat] at hself
      exact hc (hself (List.mem_singleton.mp hmem).symm)
    · split at hmem
      · next e hfound =>
        obtain ⟨n, hn, hmark⟩ := List.mem_map.mp hmem
        refine h.ofNat_ne ?_ hmark
        rintro rfl
        exact h.upper_sequences e (List.mem_of_find?_eq_some hfound) hn
      · exact h.convertBy_ne h.upper_runs hc (List.mem_singleton.mp hmem).symm
  · rintro rfl
    rw [upperChar, if_pos h.code_lt, h.upper_self]
    exact List.mem_singleton_self _

/-- A character without case is its own small form, and no other character's. -/
theorem mem_lowerChar (h : Caseless mark) {c : Char} : mark ∈ lowerChar c ↔ c = mark := by
  constructor
  · intro hmem
    by_contra hc
    unfold lowerChar at hmem
    split at hmem
    · next hcode =>
      have hself := h.lower_ascii c.toNat hcode
      rw [Char.ofNat_toNat] at hself
      exact hc (hself (List.mem_singleton.mp hmem).symm)
    · split at hmem
      · -- neither the small letter of the dotted capital nor its dot is without case
        rcases List.mem_cons.mp hmem with hi | hdot
        · exact absurd (h.lower_ascii 73 (by decide) hi.symm) (by rw [hi]; decide)
        · exact h.ofNat_ne (Nat.ne_of_gt (h.code_lt.trans (by decide)))
            (List.mem_singleton.mp hdot).symm
      · exact h.convertBy_ne h.lower_runs hc (List.mem_singleton.mp hmem).symm
  · rintro rfl
    rw [lowerChar, if_pos h.code_lt, h.lower_self]
    exact List.mem_singleton_self _

theorem upperChar_ne_nil (c : Char) : upperChar c ≠ [] := by
  unfold upperChar
  split
  · exact List.cons_ne_nil _ _
  · split
    · next e hfound =>
      have hsequences : ∀ e ∈ upperSequences, e.2 ≠ [] := by decide
      rw [Ne, List.map_eq_nil_iff]
      exact hsequences e (List.mem_of_find?_eq_some hfound)
    · exact List.cons_ne_nil _ _

/-! ### Texts -/

/-- The start of a text gets as many small characters as on its own, and the same ones without case;
its surroundings decide on final sigmas only. -/
theorem exists_lowerFrom_append (h : Caseless mark) (before s t : List Char) :
    ∃ small, lowerFrom before (s ++ t) = small ++ lowerFrom (s.reverse ++ before) t ∧
      small.length = (s.flatMap lowerChar).length ∧ (mark ∈ small ↔ mark ∈ s) := by
  induction s generalizing before with
  | nil => exact ⟨[], rfl, rfl, Iff.rfl⟩
  | cons c s ih =>
    obtain ⟨small, hsmall, hlength, hmark⟩ := ih (c :: before)
    have hfirst : ∃ first,
        lowerFrom before (c :: s ++ t) = first ++ lowerFrom (c :: before) (s ++ t) ∧
        first.length = (lowerChar c).length ∧ (mark ∈ first ↔ c = mark) := by
      rw [List.cons_append, lowerFrom]
      split
      · next hsigma =>
        -- the final sigma is one character, like the one within a word
        have hc : c = Char.ofNat 0x3A3 := by
          rw [Bool.and_eq_true, Bool.and_eq_true, decide_eq_true_eq] at hsigma
          rw [← hsigma.1.1, Char.ofNat_toNat]
        refine ⟨_, rfl, ?_, ?_⟩
        · rw [hc]
          rfl
        · have hlt := h.code_lt
          rw [List.mem_singleton, hc]
          constructor
          · intro heq
            exact absurd heq.symm (h.ofNat_ne (Nat.ne_of_gt (hlt.trans (by decide))))
          · intro heq
            exact absurd heq (h.ofNat_ne (Nat.ne_of_gt (hlt.trans (by decide))))
      · exact ⟨_, rfl, rfl, mem_lowerChar h⟩
    obtain ⟨first, hfirst, hfirstLength, hfirstMark⟩ := hfirst
    refine ⟨first ++ small, ?_, ?_, ?_⟩
    · rw [hfirst, hsmall, List.reverse_cons]
      simp
    · rw [List.length_append, hlength, hfirstLength, List.flatMap_cons, List.length_append]
    · rw [List.mem_append, List.mem_cons, hfirstMark, hmark, eq_comm]

theorem length_lowerFrom (before s : List Char) :
    (lowerFrom before s).length = (s.flatMap lowerChar).length := by
  obtain ⟨small, hsmall, hlength, -⟩ := exists_lowerFrom_append caseless_underscore before s []
  rw [List.append_nil, lowerFrom, List.append_nil] at hsmall
  rw [hsmall, hlength]

theorem mem_lowerFrom (h : Caseless mark) {before s : List Char} :
    mark ∈ lowerFrom before s ↔ mark ∈ s := by
  obtain ⟨small, hsmall, -, hmark⟩ := exists_lowerFrom_append h before s []
  rw [List.append_nil, lowerFrom, List.append_nil] at hsmall
  rw [hsmall, hmark]

theorem mem_lower (h : Caseless mark) {s : String} : mark ∈ (lower s).toList ↔ mark ∈ s.toList := by
  rw [lower, String.toList_ofList, mem_lowerFrom h]

theorem mem_upper (h : Caseless mark) {s : String} : mark ∈ (upper s).toList ↔ mark ∈ s.toList := by
  rw [upper, String.toList_ofList, List.mem_flatMap]
  constructor
  · rintro ⟨c, hc, hmark⟩
    rwa [← (mem_upperChar h).mp hmark]
  · intro hmem
    exact ⟨mark, hmem, (mem_upperChar h).mpr rfl⟩

/-- The characters of the common script are converted one by one. -/
theorem lowerFrom_of_ascii (before : List Char) {s : List Char} (h : ∀ c ∈ s, c.toNat < 128) :
    lowerFrom before s = s.map Char.toLower := by
  induction s generalizing before with
  | nil => rfl
  | cons c s ih =>
    obtain ⟨hc, hrest⟩ := List.forall_mem_cons.mp h
    -- the capital sigma is not among them
    have hsigma : decide (c.toNat = 0x3A3) = false := decide_eq_false (by omega)
    rw [lowerFrom, hsigma, Bool.false_and, Bool.false_and, if_neg Bool.false_ne_true, lowerChar,
      if_pos hc, ih _ hrest, List.map_cons, List.singleton_append]

theorem toList_capitalized_cons (c : Char) (s : List Char) :
    (capitalized (String.ofList (c :: s))).toList = upperChar c ++ lowerFrom [] s := by
  rw [capitalized, String.toList_ofList, String.toList_ofList]

theorem underscore_mem_capitalized {s : List Char} :
    '_' ∈ (capitalized (String.ofList s)).toList ↔ '_' ∈ s := by
  cases s with
  | nil => rfl
  | cons c s =>
    rw [toList_capitalized_cons, List.mem_append, mem_upperChar caseless_underscore,
      mem_lowerFrom caseless_underscore, List.mem_cons, eq_comm]

/-- The start of a text is capitalized to as many characters as on its own. -/
theorem exists_capitalized_append (a b : List Char) :
    ∃ small before, (capitalized (String.ofList (a ++ '_' :: b))).toList
        = small ++ '_' :: lowerFrom before b ∧
      small.length = (capitalized (String.ofList a)).toList.length ∧ ('_' ∈ small ↔ '_' ∈ a) := by
  have hmark : ∀ before, lowerFrom before ('_' :: b) = '_' :: lowerFrom ('_' :: before) b :=
    fun _ => rfl
  cases a with
  | nil =>
    rw [List.nil_append, toList_capitalized_cons]
    exact ⟨[], [], rfl, rfl, Iff.rfl⟩
  | cons c a =>
    obtain ⟨small, hsmall, hlength, hmem⟩ := 
      exists_lowerFrom_append caseless_underscore [] a ('_' :: b)
    refine ⟨upperChar c ++ small, '_' :: (a.reverse ++ []), ?_, ?_, ?_⟩
    · rw [List.cons_append, toList_capitalized_cons, hsmall, hmark, List.append_assoc]
    · rw [toList_capitalized_cons, List.length_append, List.length_append, hlength,
        length_lowerFrom]
    · rw [List.mem_append, List.mem_cons, mem_upperChar caseless_underscore, hmem, eq_comm]

/-! ### Parts -/

theorem splitFrom_of_notMem {mark : Char} (piece : List Char) {s : List Char} (h : mark ∉ s) :
    splitFrom mark piece s = [piece.reverse ++ s] := by
  induction s generalizing piece with
  | nil => rw [splitFrom, List.append_nil]
  | cons c s ih =>
    rw [List.mem_cons, not_or] at h
    rw [splitFrom, if_neg (Ne.symm h.1), ih _ h.2, List.reverse_cons, List.append_assoc]
    rfl

theorem splitFrom_append {mark : Char} (piece : List Char) {a : List Char} (h : mark ∉ a)
    (b : List Char) :
    splitFrom mark piece (a ++ mark :: b) = (piece.reverse ++ a) :: splitFrom mark [] b := by
  induction a generalizing piece with
  | nil => rw [List.nil_append, splitFrom, if_pos rfl, List.append_nil]
  | cons c a ih =>
    rw [List.mem_cons, not_or] at h
    rw [List.cons_append, splitFrom, if_neg (Ne.symm h.1), ih _ h.2, List.reverse_cons,
      List.append_assoc]
    rfl

end Text

open Text

/-! ### Two ways to capitalize a name -/

/-- Pieces that are joined are split again. -/
theorem split_intercalate {mark : Char} {pieces : List String} (hne : pieces ≠ [])
    (h : ∀ s ∈ pieces, mark ∉ s.toList) :
    split mark (String.intercalate (String.singleton mark) pieces) = pieces := by
  have hsplit : splitFrom mark [] ([mark].intercalate (pieces.map String.toList))
      = pieces.map String.toList := by
    induction pieces with
    | nil => exact absurd rfl hne
    | cons s rest ih =>
      obtain ⟨hs, hrest⟩ := List.forall_mem_cons.mp h
      cases rest with
      | nil =>
        rw [List.map_singleton, List.intercalate_singleton, splitFrom_of_notMem [] hs]
        rfl
      | cons t rest =>
        rw [List.map_cons, List.map_cons, List.intercalate_cons_cons, List.append_assoc,
          List.singleton_append, splitFrom_append [] hs]
        exact congrArg (s.toList :: ·) (ih (List.cons_ne_nil t rest) hrest)
  rw [split, String.toList_intercalate, String.toList_singleton, hsplit, List.map_map]
  simp

theorem joinCapitalized_of_notMem {s : List Char} (h : '_' ∉ s) :
    joinCapitalized (String.ofList s) = capitalized (String.ofList s) := by
  rw [joinCapitalized, split, String.toList_ofList, splitFrom_of_notMem [] h]
  simp

theorem joinCapitalized_append {a b : List Char} (ha : '_' ∉ a) (hb : '_' ∉ b) :
    joinCapitalized (String.ofList (a ++ '_' :: b))
      = capitalized (String.ofList a) ++ capitalized (String.ofList b) := by
  rw [joinCapitalized, split, String.toList_ofList, splitFrom_append [] ha,
    splitFrom_of_notMem [] hb]
  simp

theorem underscore_notMem_join {parts : List (List Char)} (h : ∀ p ∈ parts, '_' ∉ p) :
    '_' ∉ (String.join (parts.map fun p => capitalized (String.ofList p))).toList := by
  induction parts with
  | nil => simp
  | cons p rest ih =>
    rw [List.forall_mem_cons] at h
    rw [List.map_cons, String.join_cons, String.toList_append, List.mem_append, not_or,
      underscore_mem_capitalized]
    exact ⟨h.1, ih h.2⟩

/-- Joining the parts of a name removes all underscores. -/
theorem underscore_notMem_joinCapitalized (name : String) :
    '_' ∉ (joinCapitalized name).toList := by
  rw [joinCapitalized, split, List.map_map]
  refine underscore_notMem_join fun p hp => ?_
  exact mark_not_mem_splitFrom (List.not_mem_nil) p hp

/-- **Both ways to capitalize a name agree exactly if it has no underscore.** -/
theorem capitalized_eq_joinCapitalized_iff {name : String} :
    capitalized name = joinCapitalized name ↔ '_' ∉ name.toList := by
  rw [← String.ofList_toList (s := name)]
  generalize name.toList = s
  rw [String.toList_ofList]
  constructor
  · intro heq hmem
    have hnot := underscore_notMem_joinCapitalized (String.ofList s)
    rw [← heq, underscore_mem_capitalized] at hnot
    exact hnot hmem
  · intro h
    rw [joinCapitalized_of_notMem h]

/-- A capitalized name with an underscore is none with the parts joined, anything without
underscores and `_t` behind it: one of the parts would have to be empty. -/
theorem capitalized_ne_append {name : String} (middle : String) (hname : '_' ∈ name.toList)
    (hmiddle : '_' ∉ middle.toList) :
    capitalized name ≠ joinCapitalized name ++ middle ++ "_t" := by
  intro heq
  obtain ⟨a, b, hsplit, ha⟩ := List.eq_append_cons_of_mem hname
  have hofList : name = String.ofList (a ++ '_' :: b) := by rw [← hsplit, String.ofList_toList]
  have hfront : '_' ∉ (joinCapitalized name ++ middle).toList := by
    rw [String.toList_append, List.mem_append, not_or]
    exact ⟨underscore_notMem_joinCapitalized name, hmiddle⟩
  obtain ⟨small, before, hsmall, hlength, hmark⟩ := exists_capitalized_append a b
  -- the only underscore stands in front of the last character
  have hlist : (joinCapitalized name ++ middle).toList ++ '_' :: ['t']
      = small ++ '_' :: lowerFrom before b := by
    rw [← hsmall, ← hofList, heq, @String.toList_append _ "_t"]
    rfl
  obtain ⟨hstart, -, hend⟩ := (List.append_cons_inj_of_notMem hfront (by decide)).mp hlist
  have hb : '_' ∉ b := by
    rw [← @mem_lowerFrom _ caseless_underscore before, ← hend]
    decide
  -- the first part alone gives all characters in front of it, so that the second part gives none
  have hlengths := congrArg List.length hstart
  rw [hlength, hofList, joinCapitalized_append ha hb, String.toList_append, String.toList_append,
    List.length_append, List.length_append] at hlengths
  cases b with
  | nil => cases hend
  | cons c b =>
    have hpos : 0 < (upperChar c).length := List.length_pos_iff.mpr (upperChar_ne_nil c)
    rw [toList_capitalized_cons, List.length_append] at hlengths
    omega

end ChipSupport
