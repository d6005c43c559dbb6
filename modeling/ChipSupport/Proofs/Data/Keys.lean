import ChipSupport.Data
import ChipSupport.Proofs.Decimal.Whole
import Mathlib

/-!
# Keys that name the same entry

Two keys name the same entry if they are equal as values of their kind, where all numbers are of one
kind.  A key therefore stands for a value, and keys that stand for the same value may be put for
each other.

## Main definitions

* `Data.Key` — the values that keys stand for.
* `Data.key?` — the value of a key.

## Main results

* `Decimal.same_iff` — when two numbers with a fraction are the same.
* `Data.sameKey_iff` — **keys name the same entry exactly if they stand for the same value.**
* `Data.sameKey_congr`, `Data.canBeKey_congr` — keys of the same entry may be put for each other.
-/

namespace ChipSupport

/-! ### Numbers with a fraction -/

namespace Decimal

/-- Whether two numbers with a fraction are the same, where all that are not a number are. -/
def same (x y : Float) : Bool := x == y || (x.isNaN && y.isNaN)

theorem same_iff {x y : Float} : same x y = true ↔ x = y ∨ IsZero x ∧ IsZero y := by
  simp only [same, Bool.or_eq_true, Bool.and_eq_true, Float.beq_iff_ne_nan_and_eq,
    Float.isNaN_eq_decide_eq_nan, decide_eq_true_eq, IsZero]
  have hzero : (0 : Float) ≠ Float.nan := by decide +kernel
  have hzero' : (-0 : Float) ≠ Float.nan := by decide +kernel
  constructor
  · rintro (⟨-, -, rfl | ⟨rfl, rfl⟩ | ⟨rfl, rfl⟩⟩ | ⟨rfl, rfl⟩)
    · exact .inl rfl
    · exact .inr ⟨.inl rfl, .inr rfl⟩
    · exact .inr ⟨.inr rfl, .inl rfl⟩
    · exact .inl rfl
  · rintro (rfl | ⟨rfl | rfl, rfl | rfl⟩)
    · by_cases hx : x = Float.nan
      · exact .inr ⟨hx, hx⟩
      · exact .inl ⟨hx, hx, .inl rfl⟩
    · exact .inl ⟨hzero, hzero, .inl rfl⟩
    · exact .inl ⟨hzero, hzero', .inr (.inl ⟨rfl, rfl⟩)⟩
    · exact .inl ⟨hzero', hzero, .inr (.inr ⟨rfl, rfl⟩)⟩
    · exact .inl ⟨hzero', hzero', .inl rfl⟩

end Decimal

namespace Data

/-! ### Values of keys -/

/-- The values of numbers. -/
inductive Number where
  /-- A whole number, however it is written. -/
  | whole (n : Int)
  /-- Any other number. -/
  | fraction (x : Float)

/-- The value of a number with a fraction. -/
def Number.ofReal (x : Float) : Number :=
  match Decimal.integral? x with
  | some n => .whole n
  | none => .fraction x

/-- The values that keys stand for. -/
inductive Key where
  /-- Nothing. -/
  | null
  /-- A number. -/
  | number (n : Number)
  /-- A text. -/
  | text (s : String)
  /-- Bytes. -/
  | bytes (bs : List Nat)
  /-- A day. -/
  | date (d : Date)
  /-- A moment, in world time or not. -/
  | moment (zoned : Bool) (instant : Int)
  /-- The values of a list. -/
  | list (items : List Key)
  /-- The values of a list that never changes. -/
  | tuple (items : List Key)

mutual

/-- The value that a key stands for.  Sets, tables and what contains itself stand for none. -/
def key? : Data → Option Key
  | .null => some .null
  | .bool b => some (.number (.whole (ofBool b)))
  | .int n => some (.number (.whole n))
  | .real x => some (.number (.ofReal x))
  | .text s => some (.text s)
  | .bytes bs => some (.bytes bs)
  | .date d => some (.date d)
  | .moment m => some (.moment m.zone.isSome m.instant)
  | .list items => (keys? items).map .list
  | .tuple items => (keys? items).map .tuple
  | _ => none

/-- The values that the keys of a list stand for. -/
def keys? : List Data → Option (List Key)
  | [] => some []
  | d :: rest => (key? d).bind fun k => (keys? rest).map (k :: ·)

end

theorem Number.ofReal_eq_whole_iff {x : Float} {n : Int} :
    Number.ofReal x = .whole n ↔ isInt x n = true := by
  rw [Number.ofReal, isInt, beq_iff_eq]
  split <;> simp_all

theorem Number.whole_eq_ofReal_iff {x : Float} {n : Int} :
    .whole n = Number.ofReal x ↔ isInt x n = true := by
  rw [eq_comm, ofReal_eq_whole_iff]

/-- Numbers with a fraction have the same value if they are the same. -/
theorem Number.ofReal_eq_iff {x y : Float} :
    Number.ofReal x = Number.ofReal y ↔ Decimal.same x y = true := by
  rw [Decimal.same_iff]
  constructor
  · intro h
    rw [Number.ofReal, Number.ofReal] at h
    split at h
    · next n hx =>
      split at h
      · next m hy =>
        cases h
        rcases Decimal.eq_or_eq_zero_of_integral? hx hy with heq | rfl
        · exact .inl heq
        · exact .inr ⟨Decimal.isZero_of_integral? hx, Decimal.isZero_of_integral? hy⟩
      · cases h
    · split at h
      · cases h
      · exact .inl (Number.fraction.inj h)
  · rintro (rfl | ⟨hx, hy⟩)
    · rfl
    · rw [Number.ofReal, Number.ofReal, Decimal.integral?_of_isZero hx,
        Decimal.integral?_of_isZero hy]

/-! ### The same entry -/

@[simp] theorem keys?_nil : keys? [] = some [] := by rw [keys?]

/-- The values of a list are those of its items. -/
theorem keys?_cons_eq_some_iff {d : Data} {rest : List Data} {ks : List Key} :
    keys? (d :: rest) = some ks ↔
      ∃ k, d.key? = some k ∧ ∃ ks', keys? rest = some ks' ∧ k :: ks' = ks := by
  simp [keys?, Option.bind_eq_some_iff]

theorem keys?_eq_nil_iff {ds : List Data} : keys? ds = some [] ↔ ds = [] := by
  cases ds with
  | nil => simp
  | cons d rest => simp [keys?_cons_eq_some_iff]

mutual

/-- **Keys name the same entry exactly if they stand for the same value.** -/
theorem sameKey_iff (a b : Data) :
    a.sameKey b = true ↔ ∃ k, b.key? = some k ∧ a.key? = some k := by
  cases a with
  | null => cases b <;> simp [sameKey, key?]
  | bool p =>
    cases b with
    | bool q => cases p <;> cases q <;> simp [sameKey, key?, ofBool]
    | int n => simp [sameKey, key?, eq_comm (a := n)]
    | _ => simp [sameKey, key?, Number.whole_eq_ofReal_iff]
  | int n => cases b <;> simp [sameKey, key?, Number.whole_eq_ofReal_iff]
  | real x =>
    cases b with
    | real y =>
      rw [sameKey, ← Decimal.same, ← Number.ofReal_eq_iff]
      simp [key?]
    | _ => simp [sameKey, key?, Number.ofReal_eq_whole_iff]
  | text s => cases b <;> simp [sameKey, key?]
  | bytes bs => cases b <;> simp [sameKey, key?]
  | date d => cases b <;> simp [sameKey, key?]
  | moment m => cases b <;> simp [sameKey, key?, Moment.same]
  | list as => cases b <;> simp [sameKey, key?, sameKeys_iff as]
  | tuple as => cases b <;> simp [sameKey, key?, sameKeys_iff as]
  | _ => cases b <;> simp [sameKey, key?]

/-- The same for the keys of lists. -/
theorem sameKeys_iff (as bs : List Data) :
    sameKeys as bs = true ↔ ∃ ks, keys? bs = some ks ∧ keys? as = some ks := by
  cases as with
  | nil => cases bs <;> simp [sameKeys, keys?_eq_nil_iff]
  | cons a as =>
    cases bs with
    | nil => simp [sameKeys, keys?_eq_nil_iff]
    | cons b bs =>
      rw [sameKeys, Bool.and_eq_true, sameKey_iff a b, sameKeys_iff as bs]
      simp only [keys?_cons_eq_some_iff]
      constructor
      · rintro ⟨⟨k, hb, ha⟩, ks, hbs, has⟩
        exact ⟨k :: ks, ⟨k, hb, ks, hbs, rfl⟩, k, ha, ks, has, rfl⟩
      · rintro ⟨_, ⟨k, hb, ks, hbs, rfl⟩, k', ha, ks', has, heq⟩
        cases heq
        exact ⟨⟨k, hb, ha⟩, ks, hbs, has⟩

end

/-- Keys of the same entry may be put for each other. -/
theorem sameKey_congr {a b : Data} (h : a.sameKey b = true) (d : Data) :
    d.sameKey a = d.sameKey b := by
  obtain ⟨k, hb, ha⟩ := (sameKey_iff a b).mp h
  rw [Bool.eq_iff_iff, sameKey_iff, sameKey_iff, ha, hb]

/-- Of the values that stand for something, only lists cannot be keys. -/
theorem canBeKey_iff {d : Data} {k : Key} (h : d.key? = some k) :
    d.canBeKey = true ↔ ∀ ks, k ≠ .list ks := by
  cases d with
  | list items =>
    rw [key?, Option.map_eq_some_iff] at h
    obtain ⟨ks, -, rfl⟩ := h
    simp [canBeKey]
  | tuple items =>
    rw [key?, Option.map_eq_some_iff] at h
    obtain ⟨ks, -, rfl⟩ := h
    simp [canBeKey]
  | set _ | table _ | ordered _ | knot _ _ | again _ => simp [key?] at h
  | _ =>
    rw [key?] at h
    cases h
    simp [canBeKey]

theorem canBeKey_congr {a b : Data} (h : a.sameKey b = true) : a.canBeKey = b.canBeKey := by
  obtain ⟨k, hb, ha⟩ := (sameKey_iff a b).mp h
  rw [Bool.eq_iff_iff, canBeKey_iff ha, canBeKey_iff hb]

end Data

end ChipSupport
