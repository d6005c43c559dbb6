import ChipSupport.Text.Split

/-!
# Paths

A path names a place by the directories on the way to it.  A relative path begins in the working
directory.

## Main definitions

* `Path`, `Path.ofString`, `Path.render` — paths and their text.
* `Path.join`, `Path.parent` — going down and up.
* `Path.location` — the place itself, without the steps up.
-/

namespace ChipSupport

/-- Where a path begins. -/
inductive Outset where
  /-- In the working directory. -/
  | here
  /-- At the root. -/
  | root
  /-- At the root, which is spelled by two strokes. -/
  | rootTwice
  deriving DecidableEq, Repr, Inhabited

/-- How the beginning of a path is spelled. -/
def Outset.mark : Outset → String
  | here => ""
  | root => "/"
  | rootTwice => "//"

/-- A path. -/
structure Path where
  /-- Where the path begins. -/
  outset : Outset := .here
  /-- The names on the way. -/
  parts : List String := []
  deriving DecidableEq, Repr, Inhabited

namespace Path

/-- Where a path begins that has a number of strokes in front.  Two are kept, and more are one. -/
def outsetOf (strokes : Nat) : Outset :=
  if strokes = 0 then .here else if strokes = 2 then .rootTwice else .root

/-- The path that a text spells.  Empty names and single points stand for no step. -/
def ofString (s : String) : Path :=
  { outset := outsetOf (s.toList.takeWhile (· == '/')).length
    parts := (Text.split '/' s).filter fun p => p != "" && p != "." }

/-- The text of a path. -/
def render (p : Path) : String :=
  if p.outset = .here ∧ p.parts = [] then "."
  else p.outset.mark ++ String.intercalate "/" p.parts

/-- A path that begins at the end of another one. -/
def join (p q : Path) : Path :=
  if q.outset = .here then { p with parts := p.parts ++ q.parts } else q

/-- The path to a name in the directory of a path. -/
def child (p : Path) (name : String) : Path := p.join (ofString name)

/-- The path to the directory of a path. -/
def parent (p : Path) : Path := { p with parts := p.parts.dropLast }

/-- The name at the end of a path. -/
def name (p : Path) : String := p.parts.getLast?.getD ""

/-- One step of a path: up from the place so far, or down into a directory. -/
def step (place : List String) (part : String) : List String :=
  if part = ".." then
    match place.getLast? with
    | some last =>
      if last = ".." then place ++ [part] else if last = "/" then place else place.dropLast
    | none => [part]
  else place ++ [part]

/-- The place that a path names: the directories below the working directory, or below the root,
which then comes first. -/
def location (p : Path) : List String :=
  p.parts.foldl step (if p.outset = .here then [] else ["/"])

/-- The paths to the directories on the way to a path, and the path itself. -/
def way (p : Path) : List Path :=
  (List.range p.parts.length).map fun n => { p with parts := p.parts.take (n + 1) }

/-- The last point of a name that has characters before and after it splits the ending off. -/
def splitEnding (s : String) : String × String :=
  let ending := (s.toList.reverse.takeWhile (· != '.')).reverse
  let stem := s.toList.take (s.length - ending.length - 1)
  if stem.isEmpty || ending.isEmpty || s.length ≤ ending.length then (s, "")
  else (String.ofList stem, "." ++ String.ofList ending)

end Path

end ChipSupport
