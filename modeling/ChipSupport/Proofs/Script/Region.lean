import ChipSupport.Proofs.Bits.Block
import ChipSupport.Script.Region

/-!
# Regions from one address up to another

The addresses of a region are words of 32 bits, and its length is the distance of two words.  The
distance of the addresses themselves it is only as long as both of them are words.  A kernel segment
shows the same half gigabyte as the others do, at addresses of its own.

## Main results

* `kernelAddress_eq` — an address in a kernel segment.
* `Region.word_eq` — the word of an address.
* `Region.length_span_of_lt` — the length of a region between words.
* `Region.length_span_few` — the length of a region of a few bytes.
-/

namespace ChipSupport

/-- Kernel segments are half a gigabyte long and begin in the middle of the address space. -/
theorem kernelAddress_eq (address : Int) (segment : Nat) :
    kernelAddress address segment = 0x80000000 + 0x20000000 * segment + address % 2 ^ 29 := by
  have hlow : Bits.conj address 0x1FFFFFFF = address % 2 ^ 29 := Bits.conj_ones address 29
  have hlt : address % 2 ^ 29 < 2 ^ 29 := Int.emod_lt_of_pos _ (by decide)
  have hsegment : (0x80000000 + 0x20000000 * segment : Int)
      = ((2 ^ 29 * (4 + segment) : Nat) : Int) := by
    push_cast
    ring
  rw [kernelAddress, hlow, hsegment]
  obtain ⟨low, hlow⟩ :=
    Int.eq_ofNat_of_zero_le (Int.emod_nonneg address (show (2 : Int) ^ 29 ≠ 0 by decide))
  rw [hlow] at hlt ⊢
  -- the bits of the segment are above those of the address
  change ((low ||| 2 ^ 29 * (4 + segment) : Nat) : Int) = _
  rw [Nat.or_comm, ← Nat.two_pow_add_eq_or_of_lt (by exact_mod_cast hlt), Int.natCast_add]

namespace Region

/-- The word of an address is what is left of it beyond 32 bits. -/
theorem word_eq (address : Int) : word address = address % 2 ^ 32 := Bits.conj_ones address 32

theorem word_of_lt {address : Int} (hpos : 0 ≤ address) (hlt : address < 2 ^ 32) :
    word address = address := by
  rw [word_eq]
  omega

variable (name : String) (start stop : Int)

@[simp] theorem name_span : (span name start stop).name = name := rfl

@[simp] theorem start_span : (span name start stop).start = word start := rfl

@[simp] theorem length_span : (span name start stop).length = word stop - word start := rfl

/-- A kernel segment shows a region at another address. -/
@[simp] theorem name_inSegment (r : Region) (segment : Int) : (r.inSegment segment).name = r.name :=
  rfl

@[simp] theorem length_inSegment (r : Region) (segment : Int) :
    (r.inSegment segment).length = r.length := rfl

variable {start stop}

/-- Between addresses that are words lie as many bytes as the addresses are apart. -/
theorem length_span_of_lt (hstart : 0 ≤ start) (hle : start ≤ stop) (hstop : stop < 2 ^ 32) :
    (span name start stop).length = stop - start := by
  rw [length_span, word_of_lt (by omega) hstop, word_of_lt hstart (by omega)]

/-- A region of a few bytes is as long as it should be, unless its bytes reach the end of the
address space. -/
theorem length_span_few {size : Int} (hpos : 0 < size) (hsize : size < 2 ^ 32) :
    (span name start (start + size)).length
      = if start % 2 ^ 32 < 2 ^ 32 - size then size else size - 2 ^ 32 := by
  rw [length_span, word_eq, word_eq]
  split <;> omega

/-- The first address of a region that is seen through a kernel segment. -/
theorem start_inSegment_span (segment : Nat) :
    ((span name start stop).inSegment segment).start
      = 0x80000000 + 0x20000000 * segment + start % 2 ^ 29 := by
  change kernelAddress (word start) segment = _
  rw [kernelAddress_eq, word_eq]
  omega

end Region

end ChipSupport
