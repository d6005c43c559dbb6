/-!
# Notes on a run

While it reads documents and writes files, a run leaves notes of different weight, each from one
part of the program.
-/

namespace ChipSupport

/-- The weight of a note. -/
inductive Weight where
  /-- What was skipped or done in detail. -/
  | detail
  /-- What is going on. -/
  | info
  /-- What may be wrong. -/
  | warning
  /-- What is wrong. -/
  | error
  /-- What makes it useless to go on. -/
  | critical
  deriving DecidableEq, Repr, Inhabited

/-- The part of the program that leaves a note. -/
inductive Topic where
  /-- Reading of device documents. -/
  | documents
  /-- Reading of device descriptions. -/
  | descriptions
  /-- Writing of files. -/
  | files
  /-- Definitions for instances. -/
  | instances
  /-- Headers from device documents. -/
  | armHeaders
  /-- Scripts from device documents. -/
  | armScripts
  /-- Headers from device descriptions. -/
  | mipsHeaders
  /-- Scripts from device descriptions. -/
  | mipsScripts
  deriving DecidableEq, Repr, Inhabited

/-- A note. -/
structure Note where
  /-- The weight. -/
  weight : Weight
  /-- The part of the program. -/
  topic : Topic
  /-- What it says. -/
  message : String
  deriving DecidableEq, Repr, Inhabited

/-- The values of a list of results up to the first fault. -/
def untilFault {ε α : Type} : List (Except ε α) → List α
  | .ok a :: rest => a :: untilFault rest
  | _ => []

end ChipSupport
