import ChipSupport.Arm.Header
import ChipSupport.Proofs.Text.Integer
import ChipSupport.Proofs.Text.LetterCase

/-!
# Numbers of versions

A version with dots is given a number, in which each component but the first one has four bits.  The
bits of larger components run into those of the components in front of them.  The numbers are
therefore ordered like the versions in which such bits are carried over, and like the versions
themselves if there is nothing to carry.

## Main definitions

* `MainHeader.dotted` — the version with given components.
* `MainHeader.packed` — the number of a version.
* `MainHeader.Fits`, `MainHeader.carried` — components with four bits, and how others run over.
* `MainHeader.Ordered` — versions that are ordered by their numbers.

## Main results

* `MainHeader.versionValue_dotted` — the value of a version with dots.
* `MainHeader.packed_carried`, `MainHeader.compare_packed` — carried bits do not change the number,
  and components with four bits are ordered by it.
* `MainHeader.ordered_iff` — **versions are ordered by their numbers exactly if carrying keeps their
  order.**
-/

namespace ChipSupport.MainHeader

open Numeral Text

/-! ### Versions with dots -/

/-- The version with given components. -/
def dotted (cs : List Nat) : String := String.intercalate "." (cs.map natural)

/-- A component behind the others. -/
def pack (n c : Nat) : Nat := n * 16 ||| c

/-- The number of a version. -/
def packed (cs : List Nat) : Nat := cs.foldl pack 0

/-- The first component with too many digits. -/
def tooLong? (cs : List Nat) : Option Nat := cs.find? fun c => longest < (digits 10 c).length

/-- Components that are not too long. -/
def Readable (cs : List Nat) : Prop := ∀ c ∈ cs, (digits 10 c).length ≤ longest

theorem tooLong?_eq_none_iff {cs : List Nat} : tooLong? cs = none ↔ Readable cs := by
  rw [tooLong?, List.find?_eq_none, Readable]
  exact forall₂_congr fun c _ => by rw [decide_eq_true_eq, not_lt]

/-- A part of a version behind the number of the parts in front. -/
def step (n : Int) (part : String) : Except Fault Int := do
  let v ← parse 10 part.toList
  return Bits.disj (Bits.shiftLeft n 4) v

theorem versionNumber_eq (parts : List String) : versionNumber parts = parts.foldlM step 0 := rfl

theorem step_natural (n c : Nat) : step n (natural c) =
    if longest < (digits 10 c).length then .error (.numeralTooLong (digits 10 c).length)
    else .ok (pack n c : Int) := by
  rw [step, parse_natural]
  split <;> rfl

/-- The components are put one behind the other, up to the first one that is too long. -/
theorem foldlM_step (cs : List Nat) (n : Nat) : (cs.map natural).foldlM step (n : Int) =
    match tooLong? cs with
    | some c => .error (.numeralTooLong (digits 10 c).length)
    | none => .ok (cs.foldl pack n : Nat) := by
  induction cs generalizing n with
  | nil => rfl
  | cons c cs ih =>
    rw [List.map_cons, List.foldlM_cons, step_natural, tooLong?, List.find?_cons]
    by_cases hlong : longest < (digits 10 c).length
    · rw [if_pos hlong, decide_eq_true hlong]
      rfl
    · rw [if_neg hlong, decide_eq_false hlong, ← tooLong?, List.foldl_cons, ← ih (pack n c)]
      rfl

theorem split_dotted {cs : List Nat} (hne : cs ≠ []) : split '.' (dotted cs) = cs.map natural := by
  refine split_intercalate (by simpa using hne) (List.forall_mem_map.mpr fun c _ hdot => ?_)
  exact absurd (isAlphanum_of_mem_natural '.' hdot) (by decide)

/-- A version with dots begins with a digit. -/
theorem exists_dotted_eq {cs : List Nat} (hne : cs ≠ []) :
    ∃ c rest, (dotted cs).toList = c :: rest ∧ Text.isDigit c = true := by
  cases cs with
  | nil => exact absurd rfl hne
  | cons c cs =>
    obtain ⟨tail, htail⟩ : ∃ tail, (dotted (c :: cs)).toList = (natural c).toList ++ tail := by
      rw [dotted, String.toList_intercalate, List.map_cons, List.map_cons]
      cases cs with
      | nil => exact ⟨[], by rw [List.append_nil]; exact List.intercalate_singleton⟩
      | cons c' cs =>
        rw [List.map_cons, List.map_cons, List.intercalate_cons_cons, List.append_assoc]
        exact ⟨_, rfl⟩
    obtain ⟨d, ds, hds, hd⟩ := exists_digits_eq_cons c
    refine ⟨digitChar d, ds.map digitChar ++ tail, ?_, ?_⟩
    · rw [htail, toList_natural, hds, List.map_cons, List.cons_append]
    · rw [Text.isDigit, isDecimal_digitChar hd, Bool.true_or]

/-- The value of a version with dots. -/
theorem versionValue_dotted {cs : List Nat} (hne : cs ≠ []) : versionValue (dotted cs) =
    match tooLong? cs with
    | some c => .error (.numeralTooLong (digits 10 c).length)
    | none => .ok ("0x" ++ hex (packed cs)) := by
  obtain ⟨c, rest, hdotted, hdigit⟩ := exists_dotted_eq hne
  have hnumber : versionNumber (split '.' (dotted cs)) =
      match tooLong? cs with
      | some c => .error (.numeralTooLong (digits 10 c).length)
      | none => .ok (packed cs : Int) := by
    rw [split_dotted hne, versionNumber_eq]
    exact foldlM_step cs 0
  simp only [versionValue, hdotted, hdigit, if_true, hnumber]
  cases tooLong? cs <;> rfl

theorem versionValue_eq_ok_iff {cs : List Nat} (hne : cs ≠ []) {value : String} :
    versionValue (dotted cs) = .ok value ↔ Readable cs ∧ value = "0x" ++ hex (packed cs) := by
  rw [versionValue_dotted hne, ← tooLong?_eq_none_iff]
  cases tooLong? cs with
  | some c => simp
  | none => simp [eq_comm]

/-! ### Carrying -/

/-- Components with four bits behind the first one. -/
def Fits (cs : List Nat) : Prop := ∀ c ∈ cs.tail, c < 16

/-- The components of which all but the first one are left with four bits, when the other bits run
into those in front. -/
def carried : List Nat → List Nat
  | [] => []
  | c :: rest =>
    match carried rest with
    | [] => [c]
    | d :: rest => (c ||| d / 16) :: d % 16 :: rest

theorem length_carried (cs : List Nat) : (carried cs).length = cs.length := by
  induction cs with
  | nil => rfl
  | cons c rest ih =>
    rw [carried]
    cases h : carried rest with
    | nil => rw [List.length_singleton, List.length_cons, ← ih, h, List.length_nil]
    | cons d rest' => simp only [List.length_cons, ← ih, h]

theorem fits_carried (cs : List Nat) : Fits (carried cs) := by
  induction cs with
  | nil => exact List.forall_mem_nil _
  | cons c rest ih =>
    rw [carried]
    cases h : carried rest with
    | nil => exact List.forall_mem_nil _
    | cons d rest' =>
      rw [h] at ih
      exact List.forall_mem_cons.mpr ⟨Nat.mod_lt d (by decide), ih⟩

/-- Only what does not fit is carried. -/
theorem carried_eq_self_iff {cs : List Nat} : carried cs = cs ↔ Fits cs := by
  constructor
  · intro h
    rw [← h]
    exact fits_carried cs
  · intro h
    induction cs with
    | nil => rfl
    | cons c rest ih =>
      have hrest : carried rest = rest := ih fun d hd => h d (List.mem_of_mem_tail hd)
      rw [carried, hrest]
      cases rest with
      | nil => rfl
      | cons d rest =>
        have hd : d < 16 := h d List.mem_cons_self
        simp only [Nat.div_eq_of_lt hd, Nat.mod_eq_of_lt hd, Nat.or_zero]

theorem pack_of_lt {c : Nat} (hc : c < 16) (n : Nat) : pack n c = n * 16 + c := by
  have h := Nat.shiftLeft_add_eq_or_of_lt (i := 4) hc n
  rw [Nat.shiftLeft_eq] at h
  exact h.symm

/-- The bits of a component that does not fit are those of the ones in front as well. -/
theorem pack_pack_carried (n c d : Nat) :
    pack (pack n (c ||| d / 16)) (d % 16) = pack (pack n c) d := by
  have hd : d / 16 * 16 ||| d % 16 = d := by
    rw [← pack, pack_of_lt (Nat.mod_lt d (by decide)), Nat.mul_comm]
    exact Nat.div_add_mod d 16
  have hmul (a b : Nat) : (a ||| b) * 16 = a * 16 ||| b * 16 := by
    have h := Nat.shiftLeft_or_distrib (i := 4) (a := a) (b := b)
    rwa [Nat.shiftLeft_eq, Nat.shiftLeft_eq, Nat.shiftLeft_eq] at h
  calc pack (pack n (c ||| d / 16)) (d % 16)
      = (n * 16 ||| (c ||| d / 16)) * 16 ||| d % 16 := rfl
    _ = (n * 16 ||| c) * 16 ||| (d / 16 * 16 ||| d % 16) := by
      rw [← Nat.or_assoc, hmul, Nat.or_assoc]
    _ = pack (pack n c) d := by rw [hd]; rfl

theorem foldl_pack_carried (cs : List Nat) (n : Nat) :
    (carried cs).foldl pack n = cs.foldl pack n := by
  induction cs generalizing n with
  | nil => rfl
  | cons c rest ih =>
    rw [carried, List.foldl_cons, ← ih]
    cases carried rest with
    | nil => rfl
    | cons d rest' =>
      rw [List.foldl_cons, List.foldl_cons, List.foldl_cons, pack_pack_carried]

/-- Carrying does not change the number of a version. -/
theorem packed_carried (cs : List Nat) : packed (carried cs) = packed cs := foldl_pack_carried cs 0

/-! ### Order -/

theorem compare_pack {c d : Nat} (hc : c < 16) (hd : d < 16) (m n : Nat) :
    compare (pack m c) (pack n d) = (compare m n).then (compare c d) := by
  rw [pack_of_lt hc, pack_of_lt hd]
  rcases lt_trichotomy m n with h | rfl | h
  · rw [Nat.compare_eq_lt.mpr h, Ordering.lt_then]
    exact Nat.compare_eq_lt.mpr (by omega)
  · rw [Nat.compare_eq_eq.mpr rfl, Ordering.eq_then]
    rcases lt_trichotomy c d with h | rfl | h
    · rw [Nat.compare_eq_lt.mpr h]
      exact Nat.compare_eq_lt.mpr (by omega)
    · rw [Nat.compare_eq_eq.mpr rfl, Nat.compare_eq_eq.mpr rfl]
    · rw [Nat.compare_eq_gt.mpr h]
      exact Nat.compare_eq_gt.mpr (by omega)
  · rw [Nat.compare_eq_gt.mpr h, Ordering.gt_then]
    exact Nat.compare_eq_gt.mpr (by omega)

/-- Components with four bits are ordered by the numbers that they are put behind. -/
theorem compare_foldl_pack {cs ds : List Nat} (hlength : cs.length = ds.length)
    (hcs : ∀ c ∈ cs, c < 16) (hds : ∀ d ∈ ds, d < 16) (m n : Nat) :
    compare (cs.foldl pack m) (ds.foldl pack n) = (compare m n).then (compare cs ds) := by
  induction cs generalizing ds m n with
  | nil =>
    rw [List.length_eq_zero_iff.mp hlength.symm, List.foldl_nil, List.foldl_nil,
      List.compare_nil_nil, Ordering.then_eq]
  | cons c cs ih =>
    cases ds with
    | nil => cases hlength
    | cons d ds =>
      obtain ⟨hc, hcs⟩ := List.forall_mem_cons.mp hcs
      obtain ⟨hd, hds⟩ := List.forall_mem_cons.mp hds
      rw [List.foldl_cons, List.foldl_cons, ih (Nat.succ.inj hlength) hcs hds, compare_pack hc hd,
        Ordering.then_assoc, List.compare_cons_cons]

/-- Versions whose components fit are ordered like their numbers. -/
theorem compare_packed {cs ds : List Nat} (hlength : cs.length = ds.length) (hcs : Fits cs)
    (hds : Fits ds) : compare (packed cs) (packed ds) = compare cs ds := by
  cases cs with
  | nil => rw [List.length_eq_zero_iff.mp hlength.symm, List.compare_nil_nil, packed,
      List.foldl_nil, Nat.compare_eq_eq.mpr rfl]
  | cons c cs =>
    cases ds with
    | nil => cases hlength
    | cons d ds =>
      have hfirst (c : Nat) : pack 0 c = c := by rw [pack, Nat.zero_mul, Nat.zero_or]
      rw [packed, packed, List.foldl_cons, List.foldl_cons, hfirst, hfirst,
        compare_foldl_pack (Nat.succ.inj hlength) hcs hds, List.compare_cons_cons]

theorem compare_packed_eq_carried {cs ds : List Nat} (hlength : cs.length = ds.length) :
    compare (packed cs) (packed ds) = compare (carried cs) (carried ds) := by
  rw [← packed_carried cs, ← packed_carried ds]
  refine compare_packed ?_ (fits_carried cs) (fits_carried ds)
  rw [length_carried, length_carried, hlength]

/-- Versions that are ordered by their numbers. -/
def Ordered (cs ds : List Nat) : Prop :=
  ∃ m n : Nat, versionValue (dotted cs) = .ok ("0x" ++ hex m) ∧
    versionValue (dotted ds) = .ok ("0x" ++ hex n) ∧ compare m n = compare cs ds

theorem ordered_iff_compare {cs ds : List Nat} (hcs : cs ≠ []) (hds : ds ≠ []) :
    Ordered cs ds ↔
      Readable cs ∧ Readable ds ∧ compare (packed cs) (packed ds) = compare cs ds := by
  constructor
  · rintro ⟨m, n, hm, hn, hcompare⟩
    obtain ⟨hreadableCs, hm⟩ := (versionValue_eq_ok_iff hcs).mp hm
    obtain ⟨hreadableDs, hn⟩ := (versionValue_eq_ok_iff hds).mp hn
    have hmarked {m n : Nat} (h : "0x" ++ hex m = "0x" ++ hex n) : m = n :=
      hex_natCast_injective (String.append_right_inj _ |>.mp h)
    rw [← hmarked hm, ← hmarked hn]
    exact ⟨hreadableCs, hreadableDs, hcompare⟩
  · rintro ⟨hreadableCs, hreadableDs, hcompare⟩
    exact ⟨packed cs, packed ds, (versionValue_eq_ok_iff hcs).mpr ⟨hreadableCs, rfl⟩,
      (versionValue_eq_ok_iff hds).mpr ⟨hreadableDs, rfl⟩, hcompare⟩

/-- **Versions are ordered by their numbers exactly if carrying keeps their order**, where they have
numbers if their components are not too long.  Versions in which all components but the first one
have at most four bits are ordered by their numbers.  Each other version is not ordered with the
version of that kind to which its bits are carried. -/
theorem ordered_iff {cs ds : List Nat} (hne : cs ≠ []) (hlength : cs.length = ds.length) :
    (Ordered cs ds ↔
      Readable cs ∧ Readable ds ∧ compare (carried cs) (carried ds) = compare cs ds) ∧
    (Fits cs → Fits ds → Readable cs → Readable ds → Ordered cs ds) ∧
    (¬ Fits cs → (carried cs).length = cs.length ∧ Fits (carried cs) ∧
      ¬ Ordered cs (carried cs)) := by
  have hneDs : ds ≠ [] := by
    rintro rfl
    exact hne (List.length_eq_zero_iff.mp hlength)
  refine ⟨?_, fun hcs hds hreadableCs hreadableDs => ?_, fun hcs => ?_⟩
  · rw [ordered_iff_compare hne hneDs, compare_packed_eq_carried hlength]
  · rw [ordered_iff_compare hne hneDs]
    exact ⟨hreadableCs, hreadableDs, compare_packed hlength hcs hds⟩
  · have hcarried : carried cs ≠ [] := by
      rw [← List.length_pos_iff, length_carried, List.length_pos_iff]
      exact hne
    refine ⟨length_carried cs, fits_carried cs, fun hordered => hcs (carried_eq_self_iff.mp ?_)⟩
    obtain ⟨-, -, hcompare⟩ := (ordered_iff_compare hne hcarried).mp hordered
    rw [packed_carried, Nat.compare_eq_eq.mpr rfl] at hcompare
    exact (Std.LawfulEqCmp.eq_of_compare hcompare.symm).symm

/-- The last component of the version `1.16` does not fit, and gives it the number of `1.0`. -/
theorem not_ordered_sixteenth :
    versionValue "1.16" = .ok "0x10" ∧ versionValue "1.0" = .ok "0x10" ∧
      ¬ Ordered [1, 16] [1, 0] := by
  refine ⟨by cbv, by cbv, fun hordered => ?_⟩
  have hcompare := ((ordered_iff_compare (by decide) (by decide)).mp hordered).2.2
  exact absurd hcompare (by decide)

theorem ordered_iff_minor : dotted [1, 2, 15] = "1.2.15" ∧ Ordered [1, 2, 15] [1, 10, 0] := by
  have hreadable {cs : List Nat} (hcs : ∀ c ∈ cs, c < 16) : Readable cs := by
    intro c hc
    have hlength := length_digits_le 10 c
    have hlarge : 17 ≤ longest := by decide
    have := hcs c hc
    omega
  have hfits {cs : List Nat} (hcs : ∀ c ∈ cs, c < 16) : Fits cs := fun c hc =>
    hcs c (List.mem_of_mem_tail hc)
  have hleft : ∀ c ∈ [1, 2, 15], c < 16 := by decide
  have hright : ∀ c ∈ [1, 10, 0], c < 16 := by decide
  have hlength : [1, 2, 15].length = [1, 10, 0].length := rfl
  exact ⟨by cbv, (ordered_iff (by decide) hlength).2.1 (hfits hleft) (hfits hright)
    (hreadable hleft) (hreadable hright)⟩

end ChipSupport.MainHeader
