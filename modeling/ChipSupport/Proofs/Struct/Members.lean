import ChipSupport.Header.GroupStruct
import Mathlib

/-!
# Positions of members in a group's struct

The struct of a group is written member by member, with reserved bytes where the next register lies
further on.  Where the registers lie one behind the other, the bytes in front of a member are its
offset, and the bytes of all members are the size of the group.

## Main definitions

* `Register.stop` — the first byte behind a register.
* `Register.Ascending` — registers that lie one behind the other.
* `Register.lastStop` — the first byte behind the last register.
* `GroupEntry.bytes`, `GroupEntry.span` — the bytes of members, as the registers describe them.
* `GroupEntry.register?` — the register of a member.
* `GroupEntry.AtOffsets` — members among which every register stands at its offset.

## Main results

* `filterMap_register?_layoutMembersFrom` — the registers of a struct, in their order.
* `GroupEntry.atOffsets_iff` — the bytes in front of a register, for members in any order.
* `atOffsets_layoutMembersFrom` — one register after the other is at its offset.
* `span_before` — the bytes in front of a register are its offset.
* `span_layoutMembers` — the bytes of a struct are the size of its group.
-/

namespace ChipSupport

namespace Register

/-- The first byte behind the last element of a register. -/
def stop (r : Register) : Int := r.offset + r.count * r.size

theorem stop_eq (r : Register) : r.stop = r.offset + r.count * r.size := rfl

/-- Registers that lie one behind the other, the first one not in front of a byte. -/
def Ascending (next : Int) : List Register → Prop
  | [] => True
  | r :: rest => next ≤ r.offset ∧ Ascending r.stop rest

@[simp] theorem ascending_nil (next : Int) : Ascending next [] := trivial

@[simp] theorem ascending_cons (next : Int) (r : Register) (rest : List Register) :
    Ascending next (r :: rest) ↔ next ≤ r.offset ∧ Ascending r.stop rest := Iff.rfl

/-- A register with at least one element and one byte ends behind its offset. -/
theorem offset_lt_stop {r : Register} (hcount : 1 ≤ r.count) (hsize : 1 ≤ r.size) :
    r.offset < r.stop := by
  have h : 0 < r.count * r.size := Int.mul_pos (by omega) (by omega)
  unfold stop
  omega

/-- Registers of which each one ends before the later ones begin lie one behind the other. -/
theorem ascending_of_pairwise {rs : List Register} {next : Int}
    (hnext : ∀ r ∈ rs, next ≤ r.offset) (h : rs.Pairwise fun r s => r.stop ≤ s.offset) :
    Ascending next rs := by
  induction rs generalizing next with
  | nil => exact ascending_nil next
  | cons r rest ih =>
    rw [List.pairwise_cons] at h
    exact ⟨hnext r List.mem_cons_self, ih h.1 h.2⟩

/-- The first byte behind the last register of a list, or byte `next` if there is no register. -/
def lastStop (next : Int) (rs : List Register) : Int := rs.getLast?.elim next stop

@[simp] theorem lastStop_nil (next : Int) : lastStop next [] = next := rfl

@[simp] theorem lastStop_cons (next : Int) (r : Register) (rest : List Register) :
    lastStop next (r :: rest) = lastStop r.stop rest := by
  unfold lastStop
  rw [List.getLast?_cons]
  cases rest.getLast? <;> rfl

theorem lastStop_le {rs : List Register} {next size : Int} (hnext : next ≤ size)
    (hstop : ∀ r ∈ rs, r.stop ≤ size) : lastStop next rs ≤ size := by
  unfold lastStop
  cases hlast : rs.getLast? with
  | none => exact hnext
  | some r => exact hstop r (List.mem_of_getLast? hlast)

end Register

namespace GroupEntry

/-- The bytes of a member, as many as the register describes. -/
def bytes : GroupEntry → Int
  | .reserved _ bytes => bytes
  | .register r => r.count * r.size

/-- The bytes of several members. -/
def span (entries : List GroupEntry) : Int := (entries.map bytes).sum

@[simp] theorem span_nil : span [] = 0 := rfl

@[simp] theorem span_cons (e : GroupEntry) (entries : List GroupEntry) :
    span (e :: entries) = e.bytes + span entries := by
  unfold span
  rw [List.map_cons, List.sum_cons]

@[simp] theorem bytes_reserved (number n : Int) : (GroupEntry.reserved number n).bytes = n := rfl

@[simp] theorem bytes_register (r : Register) :
    (GroupEntry.register r).bytes = r.count * r.size := rfl

/-- The register of a member that is not reserved. -/
def register? : GroupEntry → Option Register
  | .reserved _ _ => none
  | .register r => some r

@[simp] theorem register?_reserved (number n : Int) : (reserved number n).register? = none := rfl

@[simp] theorem register?_register (r : Register) : (register r).register? = some r := rfl

/-- Members from byte `next` on among which every register stands at its offset. -/
def AtOffsets (next : Int) : List GroupEntry → Prop
  | [] => True
  | .reserved _ n :: rest => AtOffsets (next + n) rest
  | .register r :: rest => next = r.offset ∧ AtOffsets (next + r.count * r.size) rest

/-- Every register stands at its offset if the bytes in front of it are as many. -/
theorem atOffsets_iff {entries : List GroupEntry} {next : Int} :
    AtOffsets next entries ↔ ∀ before r after, entries = before ++ .register r :: after →
      next + span before = r.offset := by
  induction entries generalizing next with
  | nil => simp [AtOffsets]
  | cons e rest ih =>
    -- a register further on has the first member in front of it
    have htail : (∀ before r after, rest = before ++ .register r :: after →
        next + e.bytes + span before = r.offset) ↔
        ∀ before r after, e :: rest = e :: before ++ .register r :: after →
          next + span (e :: before) = r.offset := by
      simp only [List.cons_append, List.cons.injEq, true_and, span_cons, Int.add_assoc]
    cases e with
    | reserved number n =>
      rw [AtOffsets, ih, ← bytes_reserved number n, htail]
      constructor
      · intro h before r after hsplit
        cases before with
        | nil => simp at hsplit
        | cons e before =>
          obtain rfl : .reserved number n = e := (List.cons.inj hsplit).1
          exact h before r after hsplit
      · intro h before r after hsplit
        exact h (_ :: before) r after hsplit
    | register s =>
      rw [AtOffsets, ih, ← bytes_register s, htail]
      constructor
      · rintro ⟨hs, h⟩ before r after hsplit
        cases before with
        | nil =>
          obtain rfl : s = r := by simpa using (List.cons.inj hsplit).1
          simpa using hs
        | cons e before =>
          obtain rfl : .register s = e := (List.cons.inj hsplit).1
          exact h before r after hsplit
      · intro h
        refine ⟨by simpa using h [] s rest rfl, ?_⟩
        intro before r after hsplit
        exact h (_ :: before) r after hsplit

end GroupEntry

open Register GroupEntry

/-! ### One step of the layout -/

theorem layoutMembersFrom_nil (next number size : Int) :
    layoutMembersFrom next number size []
      = if next < size then [.reserved number (size - next)] else [] := rfl

/-- A register that begins where the one before it ends has no reserved bytes in front of it. -/
theorem layoutMembersFrom_adjacent {next number size : Int} {r : Register} {rest : List Register}
    (h : next = r.offset) :
    layoutMembersFrom next number size (r :: rest)
      = .register r :: layoutMembersFrom r.stop number size rest := by
  rw [layoutMembersFrom, if_neg (by omega), h]
  rfl

/-- A register that begins further on has the bytes up to its offset in front of it. -/
theorem layoutMembersFrom_apart {next number size : Int} {r : Register} {rest : List Register}
    (h : next < r.offset) :
    layoutMembersFrom next number size (r :: rest)
      = .reserved number (r.offset - next) :: .register r ::
          layoutMembersFrom r.stop (number + 1) size rest := by
  rw [layoutMembersFrom, if_pos (by omega)]
  rfl

/-- The registers of the layout are the given ones in their order. -/
theorem filterMap_register?_layoutMembersFrom (next number size : Int) (rs : List Register) :
    (layoutMembersFrom next number size rs).filterMap register? = rs := by
  induction rs generalizing next number with
  | nil =>
    rw [layoutMembersFrom_nil]
    split <;> simp
  | cons r rest ih =>
    rw [layoutMembersFrom]
    split <;> simp [List.filterMap_cons, ih]

/-- The registers of a struct are the ones that it is written for. -/
theorem mem_layoutMembers {r : Register} {rs : List Register} {size : Int} :
    .register r ∈ layoutMembers rs size ↔ r ∈ rs := by
  have hregisters : r ∈ (layoutMembers rs size).filterMap register? ↔ r ∈ rs := by
    rw [layoutMembers, filterMap_register?_layoutMembersFrom]
  rw [← hregisters, List.mem_filterMap]
  constructor
  · intro h
    exact ⟨_, h, rfl⟩
  · rintro ⟨e, he, hr⟩
    cases e with
    | reserved number n => cases hr
    | register s =>
      obtain rfl : s = r := by simpa using hr
      exact he

namespace RegisterGroup

/-- What is listed under a mode stands in an entry for the mode. -/
theorem exists_mem_members {g : RegisterGroup} {mode : String} {r : Register}
    (hr : r ∈ g.membersOf mode) : ∃ rs, (mode, rs) ∈ g.members ∧ r ∈ rs := by
  unfold membersOf at hr
  cases hlookup : g.members.lookup mode with
  | none =>
    rw [hlookup] at hr
    cases hr
  | some rs =>
    rw [hlookup] at hr
    obtain ⟨before, after, hsplit, -⟩ := List.lookup_eq_some_iff.mp hlookup
    refine ⟨rs, ?_, hr⟩
    rw [hsplit]
    exact List.mem_append_right _ List.mem_cons_self

/-- A register of a mode's struct is listed under the mode or under the default one. -/
theorem mem_structMembers {g : RegisterGroup} {mode : String} {r : Register}
    (hr : r ∈ g.structMembers mode) : r ∈ g.membersOf mode ∨ r ∈ g.membersOf Mode.default_ := by
  unfold structMembers at hr
  split at hr
  · rw [Register.sorted, List.mem_mergeSort, List.mem_append] at hr
    exact hr
  · exact .inl hr

end RegisterGroup

/-! ### Where the registers stand -/

section Layout

variable (next number size : Int) (rs : List Register)

/-- The layout puts every register at its offset exactly if the registers lie one behind the
other. -/
theorem atOffsets_layoutMembersFrom :
    AtOffsets next (layoutMembersFrom next number size rs) ↔ Ascending next rs := by
  induction rs generalizing next number with
  | nil =>
    rw [layoutMembersFrom_nil]
    split <;> simp [AtOffsets]
  | cons r rest ih =>
    rw [ascending_cons]
    rcases Int.lt_trichotomy next r.offset with hlt | heq | hgt
    · -- the reserved bytes lead to the register
      have hlead : next + (r.offset - next) = r.offset := by omega
      rw [layoutMembersFrom_apart hlt, AtOffsets, hlead, AtOffsets, ← stop_eq, ih]
      simp [hlt.le]
    · rw [layoutMembersFrom_adjacent heq, AtOffsets, heq, ← stop_eq, ih]
      simp
    · -- nothing in front of the register can be taken away
      rw [layoutMembersFrom, if_neg (by omega), AtOffsets]
      constructor
      · rintro ⟨heq, -⟩
        omega
      · rintro ⟨hle, -⟩
        omega

/-- The layout reaches to the end of the last register or to the size of the group. -/
theorem span_layoutMembersFrom_eq_max (h : Ascending next rs) :
    next + span (layoutMembersFrom next number size rs) = max size (lastStop next rs) := by
  induction rs generalizing next number with
  | nil =>
    rw [layoutMembersFrom_nil, lastStop_nil]
    split
    · rw [span_cons, bytes_reserved, span_nil]
      omega
    · rw [span_nil]
      omega
  | cons r rest ih =>
    obtain ⟨hle, hrest⟩ := h
    have hstop := r.stop_eq
    rw [lastStop_cons]
    rcases Int.lt_or_eq_of_le hle with hlt | heq
    · have hih := ih r.stop (number + 1) hrest
      rw [layoutMembersFrom_apart hlt, span_cons, span_cons, bytes_reserved, bytes_register]
      omega
    · have hih := ih r.stop number hrest
      rw [layoutMembersFrom_adjacent heq, span_cons, bytes_register]
      omega

end Layout

/-- **The bytes in front of a register are its offset.** -/
theorem span_before {rs : List Register} {size : Int} (h : Ascending 0 rs)
    {before after : List GroupEntry} {r : Register}
    (hsplit : layoutMembers rs size = before ++ .register r :: after) :
    span before = r.offset := by
  have hoffsets : AtOffsets 0 (layoutMembers rs size) :=
    (atOffsets_layoutMembersFrom 0 1 size rs).mpr h
  have hspan := atOffsets_iff.mp hoffsets before r after hsplit
  rwa [Int.zero_add] at hspan

/-- **The bytes of a struct are the size of its group**, if no register ends behind it. -/
theorem span_layoutMembers {rs : List Register} {size : Int} (h : Ascending 0 rs)
    (hsize : 0 ≤ size) (hstop : ∀ r ∈ rs, r.stop ≤ size) : span (layoutMembers rs size) = size := by
  have hspan := span_layoutMembersFrom_eq_max 0 1 size rs h
  rw [Int.zero_add, max_eq_left (lastStop_le hsize hstop)] at hspan
  exact hspan

end ChipSupport
