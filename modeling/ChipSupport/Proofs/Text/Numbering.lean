import ChipSupport.Proofs.Text.Numeral

/-!
# Numbers written one behind the other

The numbers of elements of nested arrays are written one behind the other with nothing in between.
What was written tells the numbers if all but one array have at most ten elements.  An array with
eleven elements may stand directly in front of another one, since of its numbers only `10` has two
digits, and no number behind it begins with a zero.

## Main definitions

* `Numeral.joined` — the digits of numbers, one behind the other.
* `Numeral.Numbers` — numbers of elements, one for each array.
* `Numeral.Readable` — lengths of arrays whose numbers can be read.

## Main results

* `Numeral.eq_of_joined_eq` — numbers that can be read are told by their digits.
* `Numeral.exists_joined_eq` — others are not.
* `Numeral.readable_iff` — **lengths are readable exactly if no two choices of numbers are written
  alike.**
* `Numeral.name_append_joined_inj` — a name in front of the digits.
-/

namespace ChipSupport.Numeral

/-! ### Digits of a number -/

theorem digits_of_lt {n : Nat} (h : n < 10) : digits 10 n = [n] := by
  rw [digits, dif_neg (by omega)]

theorem digits_injective : Function.Injective (digits 10) := by
  intro m n h
  rw [← value_digits 10 m, h, value_digits]

/-- Only zero is written with a zero in front. -/
theorem eq_nil_of_digits_eq_zero_cons {n : Nat} {ds : List Nat} (h : digits 10 n = 0 :: ds) :
    ds = [] := by
  fun_induction digits 10 n generalizing ds with
  | case1 n hn ih =>
    obtain ⟨d, ds', hds⟩ := List.exists_cons_of_ne_nil (digits_ne_nil 10 (n / 10))
    rw [hds, List.cons_append, List.cons.injEq] at h
    obtain ⟨rfl, -⟩ := h
    -- the digits of `n / 10` would be a single zero
    have hquotient : n / 10 = 0 := by
      rw [← value_digits 10 (n / 10), hds, ih hds]
      rfl
    omega
  | case2 n hn =>
    exact (List.cons.inj h).2.symm

theorem digits_ten : digits 10 10 = [1, 0] := by
  rw [digits, dif_pos (by decide), digits_of_lt (by decide)]
  rfl

/-- A single digit and a number behind it are not written like a ten and a number behind it. -/
theorem digits_ten_append_ne {l m n : Nat} (hl : l < 10) :
    digits 10 10 ++ digits 10 m ≠ digits 10 l ++ digits 10 n := by
  intro h
  rw [digits_ten, digits_of_lt hl, List.cons_append, List.singleton_append, List.cons_append,
    List.nil_append, List.cons.injEq] at h
  exact digits_ne_nil 10 m (eq_nil_of_digits_eq_zero_cons h.2.symm)

/-- Two numbers are told by their digits if the first one is at most ten. -/
theorem eq_of_digits_append_eq {k l m n : Nat} (hk : k ≤ 10) (hl : l ≤ 10)
    (h : digits 10 k ++ digits 10 m = digits 10 l ++ digits 10 n) : k = l ∧ m = n := by
  rcases hk.lt_or_eq with hk | rfl <;> rcases hl.lt_or_eq with hl | rfl
  · rw [digits_of_lt hk, digits_of_lt hl, List.singleton_append, List.singleton_append,
      List.cons.injEq] at h
    exact ⟨h.1, digits_injective h.2⟩
  · exact absurd h.symm (digits_ten_append_ne hk)
  · exact absurd h (digits_ten_append_ne hl)
  · exact ⟨rfl, digits_injective (List.append_cancel_left h)⟩

/-! ### Numbers of elements -/

/-- The digits of numbers, one behind the other. -/
def joined (ks : List Int) : List Nat := ks.flatMap fun k => digits 10 k.toNat

@[simp] theorem joined_nil : joined [] = [] := rfl

@[simp] theorem joined_cons (k : Int) (ks : List Int) :
    joined (k :: ks) = digits 10 k.toNat ++ joined ks := List.flatMap_cons

@[simp] theorem joined_append (ks ks' : List Int) : joined (ks ++ ks') = joined ks ++ joined ks' :=
  List.flatMap_append

/-- Numbers of elements, one for each of the arrays of given lengths. -/
def Numbers (ns ks : List Int) : Prop := List.Forall₂ (fun n k => 0 ≤ k ∧ k < n) ns ks

/-- Lengths of arrays whose numbers can be read: an array with more than eleven elements has only
arrays with at most ten elements behind it, and one with eleven elements has at most one array with
more elements behind it, directly. -/
def Readable : List Int → Prop
  | [] => True
  | n :: rest => (12 ≤ n → ∀ m ∈ rest, m ≤ 10) ∧ (11 ≤ n → ∀ m ∈ rest.tail, m ≤ 10) ∧
      Readable rest

instance decidableReadable : DecidablePred Readable
  | [] => inferInstanceAs (Decidable True)
  | n :: rest =>
    have : Decidable (Readable rest) := decidableReadable rest
    inferInstanceAs (Decidable ((12 ≤ n → ∀ m ∈ rest, m ≤ 10) ∧
      (11 ≤ n → ∀ m ∈ rest.tail, m ≤ 10) ∧ Readable rest))

/-- Arrays with at most ten elements have numbers with one digit each. -/
theorem length_joined {ns ks : List Int} (hks : Numbers ns ks) (h : ∀ n ∈ ns, n ≤ 10) :
    (joined ks).length = ns.length := by
  induction hks with
  | nil => rfl
  | @cons n k ns ks hk _ ih =>
    have hn : n ≤ 10 := h n List.mem_cons_self
    rw [joined_cons, List.length_append, ih fun m hm => h m (List.mem_cons_of_mem n hm),
      digits_of_lt (by omega), List.length_singleton, List.length_cons, Nat.add_comm]

/-- Numbers of arrays that can be read are equal if they are written alike. -/
theorem eq_of_joined_eq {ns ks ls : List Int} (h : Readable ns) (hks : Numbers ns ks)
    (hls : Numbers ns ls) (heq : joined ks = joined ls) : ks = ls := by
  induction ns generalizing ks ls with
  | nil =>
    cases hks
    cases hls
    rfl
  | cons n rest ih =>
    obtain ⟨hmany, heleven, hrest⟩ := h
    cases hks with | @cons _ k _ ks hk hks => ?_
    cases hls with | @cons _ l _ ls hl hls => ?_
    rw [joined_cons, joined_cons] at heq
    have hstep (hfirst : digits 10 k.toNat = digits 10 l.toNat) (hbehind : joined ks = joined ls) :
        k :: ks = l :: ls := by
      have hnumber : k.toNat = l.toNat := digits_injective hfirst
      have hkl : k = l := by omega
      rw [hkl, ih hrest hks hls hbehind]
    by_cases hone : n ≤ 10
    · -- the number in front has one digit
      rw [digits_of_lt (by omega), digits_of_lt (by omega), List.singleton_append,
        List.singleton_append, List.cons.injEq] at heq
      refine hstep ?_ heq.2
      rw [digits_of_lt (by omega), digits_of_lt (by omega), heq.1]
    · by_cases hshort : ∀ m ∈ rest, m ≤ 10
      · -- the numbers behind have one digit each
        obtain ⟨hfirst, hbehind⟩ := List.append_inj' heq
          ((length_joined hks hshort).trans (length_joined hls hshort).symm)
        exact hstep hfirst hbehind
      · -- eleven elements, and a longer array directly behind
        have hn : n = 11 := by
          have := mt hmany hshort
          omega
        have htail := heleven (by omega)
        cases rest with
        | nil => exact absurd (List.forall_mem_nil _) hshort
        | cons m rest =>
          cases hks with | @cons _ x _ ks hx hks => ?_
          cases hls with | @cons _ y _ ls hy hls => ?_
          rw [joined_cons, joined_cons, ← List.append_assoc, ← List.append_assoc] at heq
          obtain ⟨hpair, hbehind⟩ := List.append_inj' heq
            ((length_joined hks htail).trans (length_joined hls htail).symm)
          obtain ⟨hfirst, hsecond⟩ := eq_of_digits_append_eq (by omega) (by omega) hpair
          refine hstep (congrArg _ hfirst) ?_
          rw [joined_cons, joined_cons, hsecond, hbehind]

/-! ### Numbers that are written alike -/

/-- The first elements of arrays. -/
def zeros (ns : List Int) : List Int := ns.map fun _ => 0

/-- The second elements of arrays. -/
def ones (ns : List Int) : List Int := ns.map fun _ => 1

theorem numbers_zeros {ns : List Int} (h : ∀ n ∈ ns, 1 < n) : Numbers ns (zeros ns) := by
  rw [Numbers, zeros, List.forall₂_map_right_iff, List.forall₂_same]
  intro n hn
  have := h n hn
  omega

theorem numbers_ones {ns : List Int} (h : ∀ n ∈ ns, 1 < n) : Numbers ns (ones ns) := by
  rw [Numbers, ones, List.forall₂_map_right_iff, List.forall₂_same]
  intro n hn
  have := h n hn
  omega

/-- Equal numbers may be moved from behind to the front. -/
theorem ones_append_one (ns ks : List Int) : ones ns ++ 1 :: ks = 1 :: (ones ns ++ ks) := by
  induction ns with
  | nil => rfl
  | cons n ns ih => exact congrArg (1 :: ·) ih

theorem joined_cons_congr {ks ls : List Int} (k : Int) (h : joined ks = joined ls) :
    joined (k :: ks) = joined (k :: ls) := by
  rw [joined_cons, joined_cons, h]

/-- A number of two digits that begins with a one is written like its digits. -/
theorem joined_teen {d : Int} (hd : 0 ≤ d ∧ d < 10) (ks : List Int) :
    joined ((10 + d) :: ks) = joined (1 :: d :: ks) := by
  have hten : digits 10 (10 + d).toNat = [1, d.toNat] := by
    rw [digits, dif_pos (by omega), show (10 + d).toNat / 10 = 1 by omega,
      show (10 + d).toNat % 10 = d.toNat by omega, digits_of_lt (by decide)]
    rfl
  have hone : digits 10 (1 : Int).toNat = [1] := digits_of_lt (by decide)
  rw [joined_cons, joined_cons, joined_cons, hten, hone, digits_of_lt (by omega)]
  rfl

/-- A ten behind ones is written like a one in front of them and a zero behind. -/
theorem joined_ones_ten (ns ks : List Int) :
    joined (ones ns ++ 10 :: ks) = joined (1 :: (ones ns ++ 0 :: ks)) := by
  have hten : joined (10 :: ks) = joined (1 :: 0 :: ks) := joined_teen (d := 0) (by decide) ks
  rw [← ones_append_one, joined_append, joined_append, hten]

/-- A number of one of several arrays, with second elements in front and first elements behind. -/
theorem numbers_split {m k : Int} {front back : List Int} (hk : 0 ≤ k ∧ k < m)
    (h : ∀ n ∈ front ++ m :: back, 1 < n) :
    Numbers (front ++ m :: back) (ones front ++ k :: zeros back) := by
  rw [List.forall_mem_append, List.forall_mem_cons] at h
  exact List.rel_append (numbers_ones h.1) (.cons hk (numbers_zeros h.2.2))

/-- Lengths of arrays that are not readable have numbers that are written alike. -/
theorem exists_joined_eq {ns : List Int} (hns : ∀ n ∈ ns, 1 < n) (h : ¬ Readable ns) :
    ∃ ks ls, Numbers ns ks ∧ Numbers ns ls ∧ joined ks = joined ls ∧ ks ≠ ls := by
  induction ns with
  | nil => exact absurd trivial h
  | cons n rest ih =>
    obtain ⟨hn, hrest⟩ := List.forall_mem_cons.mp hns
    rw [Readable, not_and_or, not_and_or] at h
    push Not at h
    rcases h with ⟨hmany, m, hm, hlong⟩ | ⟨heleven, m, hm, hlong⟩ | hunreadable
    · -- `1` and `10` against `11` and `0`
      obtain ⟨front, back, rfl⟩ := List.append_of_mem hm
      refine ⟨1 :: (ones front ++ 10 :: zeros back), 11 :: (ones front ++ 0 :: zeros back),
        .cons (by omega) (numbers_split (by omega) hrest),
        .cons (by omega) (numbers_split (by omega) hrest), ?_, by simp⟩
      rw [joined_cons_congr 1 (joined_ones_ten front _)]
      exact (joined_teen (d := 1) (by decide) _).symm
    · -- `1`, `0` and `10` against `10`, `1` and `0`
      cases rest with
      | nil => cases hm
      | cons x rest =>
        obtain ⟨front, back, rfl⟩ := List.append_of_mem hm
        obtain ⟨hx, hrest⟩ := List.forall_mem_cons.mp hrest
        refine ⟨1 :: 0 :: (ones front ++ 10 :: zeros back),
          10 :: 1 :: (ones front ++ 0 :: zeros back),
          .cons (by omega) (.cons (by omega) (numbers_split (by omega) hrest)),
          .cons (by omega) (.cons (by omega) (numbers_split (by omega) hrest)), ?_, by simp⟩
        rw [joined_cons_congr 1 (joined_cons_congr 0 (joined_ones_ten front _))]
        exact (joined_teen (d := 0) (by decide) _).symm
    · obtain ⟨ks, ls, hks, hls, heq, hne⟩ := ih hrest hunreadable
      exact ⟨0 :: ks, 0 :: ls, .cons (by omega) hks, .cons (by omega) hls,
        joined_cons_congr 0 heq, fun hcons => hne (List.cons.inj hcons).2⟩

/-- **Lengths of arrays are readable exactly if no two choices of numbers are written alike.** -/
theorem readable_iff {ns : List Int} (hns : ∀ n ∈ ns, 1 < n) :
    Readable ns ↔ ∀ ks ls, Numbers ns ks → Numbers ns ls → joined ks = joined ls → ks = ls := by
  constructor
  · intro h ks ls
    exact eq_of_joined_eq h
  · intro h
    by_contra hnot
    obtain ⟨ks, ls, hks, hls, heq, hne⟩ := exists_joined_eq hns hnot
    exact hne (h ks ls hks hls heq)

/-- Eleven elements may stand in front of many, but neither twelve, nor eleven further in front. -/
example : Readable [11, 200, 10] ∧ ¬ Readable [12, 11] ∧ ¬ Readable [11, 2, 11] := by decide

/-! ### Numbers behind a name -/

theorem toList_decimal {k : Int} (hk : 0 ≤ k) :
    (decimal k).toList = (digits 10 k.toNat).map digitChar := by
  rw [← toList_decimal_natCast, Int.toNat_of_nonneg hk]

theorem lt_ten_of_mem_joined {ks : List Int} : ∀ d ∈ joined ks, d < 10 := by
  intro d hd
  obtain ⟨k, -, hd⟩ := List.mem_flatMap.mp hd
  exact digits_lt (by decide) _ d hd

/-- The characters of digits tell the digits. -/
theorem eq_of_map_digitChar_eq {ds es : List Nat} (hds : ∀ d ∈ ds, d < 10) (hes : ∀ e ∈ es, e < 10)
    (h : ds.map digitChar = es.map digitChar) : ds = es := by
  have hread : ∀ ds : List Nat, (∀ d ∈ ds, d < 10) →
      (ds.map digitChar).map (digitBelow 10) = ds.map some := by
    intro ds hds
    rw [List.map_map]
    exact List.map_congr_left fun d hd => digitBelow_digitChar (hds d hd) (by decide)
  have hsome := congrArg (List.map (digitBelow 10)) h
  rw [hread ds hds, hread es hes] at hsome
  exact List.map_injective_iff.mpr (Option.some_injective Nat) hsome

theorem isDigit_digitChar : ∀ d < 10, (digitChar d).isDigit = true := by decide

/-- What stands in front of digits is left when digits are taken from the end. -/
theorem rdropWhile_append_digits {s ds : List Char} (hs : ∀ c ∈ s.getLast?, c.isDigit = false)
    (hds : ∀ c ∈ ds, c.isDigit = true) : (s ++ ds).rdropWhile Char.isDigit = s := by
  rw [List.rdropWhile, List.reverse_append, List.dropWhile_append_of_pos (by simpa using hds)]
  cases hlast : s.reverse with
  | nil => simpa using hlast.symm
  | cons c rest =>
    have hc : c ∈ s.getLast? := by rw [← List.head?_reverse, hlast]; rfl
    rw [List.dropWhile_cons_of_neg (by simp [hs c hc]), ← hlast, List.reverse_reverse]

/-- **A name that does not end in a digit and the digits behind it are read back.** -/
theorem name_append_joined_inj {s t : List Char} (hs : ∀ c ∈ s.getLast?, c.isDigit = false)
    (ht : ∀ c ∈ t.getLast?, c.isDigit = false) {ks ls : List Int}
    (h : s ++ (joined ks).map digitChar = t ++ (joined ls).map digitChar) :
    s = t ∧ joined ks = joined ls := by
  have hdigits : ∀ ks : List Int, ∀ c ∈ (joined ks).map digitChar, c.isDigit = true := by
    intro ks
    exact List.forall_mem_map.mpr fun d hd => isDigit_digitChar d (lt_ten_of_mem_joined d hd)
  have hname := congrArg (List.rdropWhile Char.isDigit) h
  rw [rdropWhile_append_digits hs (hdigits ks), rdropWhile_append_digits ht (hdigits ls)] at hname
  subst hname
  refine ⟨rfl, eq_of_map_digitChar_eq lt_ten_of_mem_joined lt_ten_of_mem_joined ?_⟩
  exact List.append_cancel_left h

end ChipSupport.Numeral
