import ChipSupport.Files
import ChipSupport.Line
import ChipSupport.Note

/-!
# Generation

Generating the files of a device is a run that writes files and leaves notes.  What a run has done
before a fault stays done.

## Main definitions

* `Generation` — the files, the component headers known to be written, and the notes.
* `Run` — computations that change it and may end with a fault.
* `Run.write` — writing the lines of a file.
-/

namespace ChipSupport

/-- What a run has done so far. -/
structure Generation where
  /-- The files. -/
  files : Files := {}
  /-- The component headers that the run has written. -/
  components : List String := []
  /-- The paths that were written, in order. -/
  written : List Path := []
  /-- The notes. -/
  notes : List Note := []
  /-- The lines that say which files belong to which device. -/
  printed : List String := []
  deriving Repr, Inhabited

/-- A computation on what a run has done so far; it keeps that at a fault. -/
abbrev Run (α : Type) : Type := ExceptT Fault (StateM Generation) α

namespace Run

/-- The run that has a result and does nothing. -/
def ofExcept {α : Type} (x : Except Fault α) : Run α := ExceptT.mk (pure x)

/-- Leaves notes. -/
def leave (notes : List Note) : Run Unit := modify fun g => { g with notes := g.notes ++ notes }

/-- Says something on the output. -/
def say (line : String) : Run Unit := modify fun g => { g with printed := g.printed ++ [line] }

/-- Reads the text of a file. -/
def read (p : Path) : Run String := do ofExcept ((← get).files.read p)

/-- Writes the lines of a file, and notes that it did. -/
def write (p : Path) (lines : List Line) : Run Unit := do
  let g ← get
  let files ← ofExcept (g.files.write p (Line.fileText lines))
  set { g with files, written := g.written ++ [p] }
  leave [⟨.detail, .files, "wrote " ++ p.render⟩]

/-- The result of a run and what has been done after it. -/
def perform {α : Type} (t : Run α) (g : Generation) : Except Fault α × Generation :=
  StateT.run (ExceptT.run t) g

end Run

end ChipSupport
