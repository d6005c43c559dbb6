import ChipSupport.Bits
import ChipSupport.Line
import ChipSupport.Text.Numeral

/-!
# Memory regions of a script

A linker script declares the regions of memory in which it places sections.  The kernel segments of
a device are windows onto the same physical addresses.

## Main definitions

* `kernelAddress` — a physical address seen through a kernel segment.
* `Access`, `Region` — a region and what may be done with its contents.
* `Region.span` — a region from one address up to another.
* `Region.memoryLines` — the declaration of regions.
-/

namespace ChipSupport

/-- An address seen through a kernel segment: its low 29 bits, in the half gigabyte of the
segment. -/
def kernelAddress (address segment : Int) : Int :=
  Bits.disj (Bits.conj address 0x1FFFFFFF) (0x80000000 + 0x20000000 * segment)

/-- The access rights of a region, as a set of bits. -/
abbrev Access := Int

namespace Access

/-- Contents may be read. -/
def read : Access := 1

/-- Contents may be written. -/
def write : Access := 2

/-- Contents may be executed. -/
def execute : Access := 4

/-- Contents must not be executed. -/
def noExecute : Access := 8

/-- Contents may be read, written and executed. -/
def all : Access := 7

/-- Whether a right is among those of a set. -/
def has (a right : Access) : Bool := Bits.conj a right != 0

/-- The rights in parentheses, or nothing without rights. -/
def render (a : Access) : String :=
  if a = 0 then ""
  else "(" ++ (if has a read then "r" else "") ++ (if has a write then "w" else "")
    ++ (if has a execute then "x" else "") ++ (if has a noExecute then "!x" else "") ++ ")"

end Access

/-- A memory region of a script. -/
structure Region where
  /-- The name. -/
  name : String
  /-- The first address. -/
  start : Int
  /-- The number of bytes. -/
  length : Int
  /-- The access rights. -/
  access : Access := 0
  deriving DecidableEq, Repr, Inhabited

namespace Region

/-- The low 32 bits of an address. -/
def word (address : Int) : Int := Bits.conj address 0xFFFFFFFF

/-- The region from an address up to but not including another. -/
def span (name : String) (start stop : Int) (access : Access := 0) : Region :=
  ⟨name, word start, word stop - word start, access⟩

/-- The region seen through a kernel segment. -/
def inSegment (r : Region) (segment : Int) : Region :=
  { r with start := kernelAddress r.start segment }

/-- Regions in the order of their addresses. -/
def sorted (rs : List Region) : List Region := rs.mergeSort fun r s => decide (r.start ≤ s.start)

/-- The declaration of a region. -/
def render (r : Region) : String :=
  let access := r.access.render
  Text.fillTo r.name (32 - access.length) ++ access ++ " : ORIGIN = 0x" ++ Numeral.hex r.start 8
    ++ ", LENGTH = 0x" ++ Numeral.hex r.length

/-- The declaration of the regions. -/
def memoryLines (rs : List Region) : List Line :=
  [.text "MEMORY", .text "\x7b"] ++ rs.map (fun r => .text ("  " ++ r.render))
    ++ [.text "\x7d", Line.blank]

end Region

end ChipSupport
