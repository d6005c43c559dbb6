import ChipSupport.Proofs.Struct.Members

/-!
# Registers at their offsets

The members of a group's struct are written one behind the other, so that a register stands at its
offset only if the members in front of it have as many bytes.  Reserved bytes can only move a
register back: this succeeds for all registers exactly if none of them begins before the one in
front of it ends.

## Main definitions

* `GroupEntry.reserved?` — the number and the size of reserved bytes.

## Main results

* `reserved_layoutMembersFrom`, `isChain_layoutMembersFrom` — how reserved bytes are numbered and
  where they stand.
* `layoutMembers_offsets_iff` — **the layout puts every register at its offset exactly if the
  registers lie one behind the other.**
-/

namespace ChipSupport

namespace GroupEntry

/-- The number and the size of reserved bytes. -/
def reserved? : GroupEntry → Option (Int × Int)
  | .reserved number bytes => some (number, bytes)
  | .register _ => none

@[simp] theorem reserved?_reserved (number n : Int) :
    (reserved number n).reserved? = some (number, n) := rfl

@[simp] theorem reserved?_register (r : Register) : (register r).reserved? = none := rfl

end GroupEntry

open Register GroupEntry

variable (next number size : Int) (rs : List Register)

/-! ### Reserved bytes -/

/-- Reserved bytes are numbered one after the other, and there is at least one. -/
theorem reserved_layoutMembersFrom {i : Nat} {b : Int × Int}
    (h : ((layoutMembersFrom next number size rs).filterMap reserved?)[i]? = some b) :
    b.1 = number + i ∧ 0 < b.2 := by
  induction rs generalizing next number i with
  | nil =>
    rw [layoutMembersFrom_nil] at h
    split at h
    next hlt =>
      cases i with
      | zero =>
        obtain rfl : (number, size - next) = b := by simpa using h
        exact ⟨by simp, by dsimp only; omega⟩
      | succ i => simp at h
    next => simp at h
  | cons r rest ih =>
    rw [layoutMembersFrom] at h
    split at h
    next hlt =>
      cases i with
      | zero =>
        obtain rfl : (number, r.offset - next) = b := by simpa using h
        exact ⟨by simp, hlt⟩
      | succ i =>
        obtain ⟨hnumber, hpos⟩ :=
          ih (r.offset + r.count * r.size) (number + 1) (by simpa [List.filterMap_cons] using h)
        exact ⟨by omega, hpos⟩
    next => exact ih (next + r.count * r.size) number (by simpa [List.filterMap_cons] using h)

/-- Of two members next to each other one is a register. -/
theorem isChain_layoutMembersFrom :
    (layoutMembersFrom next number size rs).IsChain
      fun a b => a.reserved? = none ∨ b.reserved? = none := by
  induction rs generalizing next number with
  | nil =>
    rw [layoutMembersFrom_nil]
    split <;> simp
  | cons r rest ih =>
    have hregister (next number : Int) :
        (GroupEntry.register r :: layoutMembersFrom next number size rest).IsChain
          fun a b => a.reserved? = none ∨ b.reserved? = none :=
      List.isChain_cons.mpr ⟨by intros; exact .inl rfl, ih next number⟩
    rw [layoutMembersFrom]
    split
    · exact List.isChain_cons_cons.mpr ⟨.inr rfl, hregister _ _⟩
    · exact hregister _ _

/-- **The layout puts every register at its offset exactly if the registers lie one behind the
other.**  Its registers are the given ones in their order.  Reserved bytes are numbered from one on,
none is empty, and no two stand next to each other.  If the registers lie one behind the other, the
members together reach to the end of the last register or to the size of the group, whichever is
further on. -/
theorem layoutMembers_offsets_iff :
    (layoutMembers rs size).filterMap register? = rs ∧
    (∀ (i : Nat) b, ((layoutMembers rs size).filterMap reserved?)[i]? = some b →
      b.1 = i + 1 ∧ 0 < b.2) ∧
    (layoutMembers rs size).IsChain (fun a b => a.reserved? = none ∨ b.reserved? = none) ∧
    ((∀ before r after, layoutMembers rs size = before ++ .register r :: after →
      span before = r.offset) ↔ Ascending 0 rs) ∧
    (Ascending 0 rs → span (layoutMembers rs size) = max size (lastStop 0 rs)) := by
  refine ⟨filterMap_register?_layoutMembersFrom 0 1 size rs, ?_,
    isChain_layoutMembersFrom 0 1 size rs, ?_, ?_⟩
  · intro i b hb
    obtain ⟨hnumber, hpos⟩ := reserved_layoutMembersFrom 0 1 size rs hb
    exact ⟨by omega, hpos⟩
  · rw [← atOffsets_layoutMembersFrom 0 1 size rs, atOffsets_iff]
    simp only [Int.zero_add]
    rfl
  · intro h
    have hspan := span_layoutMembersFrom_eq_max 0 1 size rs h
    rwa [Int.zero_add] at hspan

/-- The registers of a channel: two bytes, a hole, and an array. -/
def channelRegisters : List Register :=
  [{ name := "CTRL", owner := "DMAC", size := 2 },
    { name := "CHID", owner := "DMAC", offset := 4, count := 3, size := 2 },
    { name := "CRC", owner := "DMAC", offset := 0xA, size := 4 }]

/-- The channel's registers stand at their offsets, and do not if the array has one more element. -/
theorem layoutMembers_offsets_channel :
    (∀ before r after, layoutMembers channelRegisters 0xC = before ++ .register r :: after →
      span before = r.offset) ∧
    span (layoutMembers channelRegisters 0xC) = 0xE ∧
    ¬ ∀ before r after,
      layoutMembers (channelRegisters.modify 1 fun r => { r with count := 4 }) 0xC
        = before ++ .register r :: after → span before = r.offset := by
  have hchannel : Ascending 0 channelRegisters := by
    simp [channelRegisters, stop]
  have hlonger : ¬ Ascending 0 (channelRegisters.modify 1 fun r => { r with count := 4 }) := by
    simp [channelRegisters, stop]
  obtain ⟨-, -, -, hoffsets, hspan⟩ := layoutMembers_offsets_iff 0xC channelRegisters
  obtain ⟨-, -, -, hoffsets', -⟩ :=
    layoutMembers_offsets_iff 0xC (channelRegisters.modify 1 fun r => { r with count := 4 })
  refine ⟨hoffsets.mpr hchannel, (hspan hchannel).trans (by decide), ?_⟩
  rw [hoffsets']
  exact hlonger

end ChipSupport
