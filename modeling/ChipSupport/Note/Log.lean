import ChipSupport.Note

/-!
# The log

Notes are shown as lines of a log.  Until the log is set up, only warnings and what is worse are
shown, without their origin.

## Main definitions

* `Weight.level`, `logLevel` — weights and thresholds as numbers.
* `Topic.logger`, `loggerName` — the names of the parts of the program.
* `Log`, `Log.setUp`, `Log.lineOf` — the log and what it shows.
-/

namespace ChipSupport

namespace Weight

/-- The number of a weight. -/
def level : Weight → Nat
  | detail => 10
  | info => 20
  | warning => 30
  | error => 40
  | critical => 50

/-- The name of a weight. -/
def name : Weight → String
  | detail => "DEBUG"
  | info => "INFO"
  | warning => "WARNING"
  | error => "ERROR"
  | critical => "CRITICAL"

/-- All weights. -/
def all : List Weight := [detail, info, warning, error, critical]

/-- The other names of weights. -/
def otherNames : List (String × Weight) := [("WARN", warning), ("FATAL", critical)]

/-- The weight of a name. -/
def ofName? (s : String) : Option Weight :=
  match all.find? fun w => w.name == s with
  | some w => some w
  | none => otherNames.lookup s

end Weight

/-- The lightest weight that is shown.  Being quiet comes before being verbose. -/
def leastWeight (verbose quiet : Bool) : Weight :=
  if quiet then .warning else if verbose then .detail else .info

/-- The threshold of the log as a number. -/
def logLevel (verbose quiet : Bool) : Nat := (leastWeight verbose quiet).level

/-- The name under which the whole program logs. -/
def rootLogger : String := "deviceheaders"

/-- The full name of a logger: every name is put under that of the program. -/
def loggerName (name : String) : String :=
  if name = rootLogger ∨ (rootLogger ++ ".").toList.isPrefixOf name.toList then name
  else rootLogger ++ "." ++ name

/-- The name under which a part of the program logs. -/
def Topic.logger : Topic → String
  | documents => loggerName "atdf"
  | descriptions => loggerName "mipsdb"
  | files => loggerName "generators.common"
  | instances => loggerName "generators.instances"
  | armHeaders => loggerName "generators.arm_header"
  | armScripts => loggerName "generators.arm_linker"
  | mipsHeaders => loggerName "generators.mips_header"
  | mipsScripts => loggerName "generators.mips_linker"

/-- How the log has been set up. -/
structure LogSetting where
  /-- The lightest weight that is shown. -/
  least : Weight
  /-- Whether the weight and the origin of a note are left out. -/
  bare : Bool
  deriving DecidableEq, Repr, Inhabited

/-- The log. -/
structure Log where
  /-- The setting, once the log is set up. -/
  setting? : Option LogSetting := none
  deriving DecidableEq, Repr, Inhabited

namespace Log

/-- The log after it is set up, whatever it was before. -/
def setUp (verbose quiet : Bool) : Log := ⟨some ⟨leastWeight verbose quiet, quiet⟩⟩

/-- The threshold as a number; zero as long as none is set. -/
def level (l : Log) : Nat := (l.setting?.map fun s => s.least.level).getD 0

/-- The number of places to which the log itself writes. -/
def handlers (l : Log) : Nat := if l.setting?.isSome then 1 else 0

/-- Whether notes are passed on to the log around the program. -/
def propagates (l : Log) : Bool := l.setting?.isNone

/-- What the log writes on a note from a logger. -/
def lineOf (l : Log) (logger : String) (w : Weight) (message : String) : String :=
  match l.setting? with
  | none => if w.level < Weight.warning.level then "" else message ++ "\n"
  | some s =>
    if w.level < s.least.level then ""
    else if s.bare then message ++ "\n"
    else w.name ++ " " ++ logger ++ ": " ++ message ++ "\n"

/-- What the log writes on notes. -/
def render (l : Log) (notes : List Note) : String :=
  String.join (notes.map fun n => l.lineOf n.topic.logger n.weight n.message)

end Log

end ChipSupport
