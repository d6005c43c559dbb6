import ChipSupport.Line

/-!
# Text of scripts

Scripts are mostly fixed text.  Where a value is inserted, it may bring line ends of its own.
-/

namespace ChipSupport.Script

/-- Lines of fixed text. -/
def fixed (texts : List String) : List Line := texts.map Line.text

/-- The lines of a text that stands on a line of its own, which is at least one. -/
def splitLine (s : String) : List String :=
  match Text.linesOf s with
  | [] => [""]
  | lines => lines

/-- Lines with inserted values. -/
def inserted (texts : List String) : List Line := fixed (texts.flatMap splitLine)

/-- The sizes of stack and heap that a script reserves unless the linker is told otherwise. -/
structure Reserve where
  /-- The size of the stack. -/
  stack : String := "0x400"
  /-- The size of the heap. -/
  heap : String := "0"
  deriving DecidableEq, Repr, Inhabited

end ChipSupport.Script
