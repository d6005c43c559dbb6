import ChipSupport.Data

/-!
# Schemas

Rules for the shape of data, and the list of all places where a value breaks them.

## Main definitions

* `Schema` — the rules.
* `Schema.violations` — where a value breaks the rules, in the order of the rules.
* `Violation.sorted` — the same in the order of the places.
-/

namespace ChipSupport

/-- Rules for the shape of a value. -/
inductive Schema where
  /-- A truth value. -/
  | flag
  /-- A whole number within bounds; a fraction that happens to be whole will do. -/
  | whole (low : Int) (high : Option Int)
  /-- A text of a minimal length. -/
  | text (length : Nat)
  /-- A name: letters, digits and underscores, not beginning with a digit. -/
  | identifier
  /-- One of the texts listed. -/
  | choice (options : List String)
  /-- A list of values of one shape. -/
  | list (item : Schema)
  /-- A table with the fields listed and no other, of which some are required. -/
  | record (required : List String) (fields : List (String × Schema))
  /-- A table of any keys with values of one shape. -/
  | map (value : Schema)
  deriving Repr, Inhabited

/-- A value that breaks a rule. -/
structure Violation where
  /-- The keys and positions that lead to the value. -/
  path : List Data
  /-- What is wrong. -/
  problem : String
  /-- What is shown to say so. -/
  shown : Data := .null

namespace Violation

/-- A violation inside of the value under a key.  The absent key leads nowhere. -/
def under (key : Data) (v : Violation) : Violation :=
  match key with
  | .null => v
  | key => { v with path := key :: v.path }

/-- A violation in one line. -/
def render (v : Violation) : String :=
  let place := match v.path with
    | [] => "(root)"
    | path => String.intercalate "/" (path.map Data.plainKey)
  "at " ++ place ++ ": " ++ v.problem

/-- Whether the place of the first violation comes before that of the second.  Places that branch
off at keys without an order cannot be compared. -/
def before (v w : Violation) : Except Fault Bool :=
  match Data.beforeAll? v.path w.path with
  | some b => .ok b
  | none => .error .valueUnsuitable

/-! ### Sorting -/

/-- The falling sequence at the beginning of a list, the last violation first, and the rest. -/
def falling (run : List Violation) (last : Violation) :
    List Violation → Except Fault (List Violation × List Violation)
  | [] => .ok (last :: run, [])
  | v :: rest => do
    if ← v.before last then falling (last :: run) v rest else return (last :: run, v :: rest)

/-- The sequence without a fall at the beginning of a list, and the rest. -/
def rising (run : List Violation) (last : Violation) :
    List Violation → Except Fault (List Violation × List Violation)
  | [] => .ok ((last :: run).reverse, [])
  | v :: rest => do
    if ← v.before last then return ((last :: run).reverse, v :: rest)
    else rising (last :: run) v rest

/-- The ordered sequence at the beginning of a list, and the rest. -/
def firstRun : List Violation → Except Fault (List Violation × List Violation)
  | v :: w :: rest => do if ← w.before v then falling [v] w rest else rising [v] w rest
  | short => .ok (short, [])

/-- The number of violations, between two bounds, that a violation is put behind. -/
def position (v : Violation) (vs : List Violation) (low high : Nat) : Except Fault Nat :=
  if _h : low < high then
    let middle := low + (high - low) / 2
    match vs[middle]? with
    | none => .ok low
    | some w => do
      if ← v.before w then position v vs low middle else position v vs (middle + 1) high
  else .ok low
termination_by high - low
decreasing_by all_goals omega

/-- A sorted list with one more violation, behind those that it does not come before. -/
def insert (vs : List Violation) (v : Violation) : Except Fault (List Violation) := do
  let n ← position v vs 0 vs.length
  return vs.take n ++ v :: vs.drop n

/-- Violations in the order of their places, those of one place in the order given. -/
def sorted (vs : List Violation) : Except Fault (List Violation) := do
  let (run, rest) ← firstRun vs
  rest.foldlM insert run

end Violation

namespace Schema

/-- A single violation at the value itself. -/
def here (shown : Data) (problem : String) : List Violation := [⟨[], problem, shown⟩]

/-- A value that is not of the kind of value asked for. -/
def wrongKind (d : Data) (kind : String) : List Violation :=
  here d (d.quoted ++ " is not of type '" ++ kind ++ "'")

/-- Whether a text is a name, a line feed at its end aside. -/
def isName (s : List Char) : Bool :=
  match s with
  | [] => false
  | c :: rest =>
    let isLetter (c : Char) := ('A' ≤ c && c ≤ 'Z') || ('a' ≤ c && c ≤ 'z') || c == '_'
    let isLetterOrDigit (c : Char) := isLetter c || ('0' ≤ c && c ≤ '9')
    isLetter c &&
      (match rest.dropWhile isLetterOrDigit with
        | [] => true
        | ['\n'] => true
        | _ => false)

/-- Bounds that a number breaks. -/
def outOfBounds (d : Data) (low : Int) (high : Option Int) (below above : Int → Bool) :
    List Violation :=
  (if below low then here d (d.quoted ++ " is less than the minimum of " ++ Numeral.decimal low)
    else []) ++
  match high with
  | some h =>
    if above h then here d (d.quoted ++ " is greater than the maximum of " ++ Numeral.decimal h)
    else []
  | none => []

/-- The keys of a table that are not among the names, in the order of their texts. -/
def unexpected (names : List String) (entries : List (Data × Data)) : List Data :=
  let extra := (entries.map Prod.fst).filter fun key =>
    match key with
    | .text s => !names.contains s
    | _ => true
  extra.mergeSort fun a b => decide (a.plainKey ≤ b.plainKey)

/-- The entries of a table in the order of the texts of their keys. -/
def byKey (entries : List (Data × Data)) : List (Data × Data) :=
  entries.mergeSort fun a b => decide (a.1.plainKey ≤ b.1.plainKey)

/-- The violation of having unexpected keys. -/
def unexpectedProblem : List Data → List Violation
  | [] => []
  | keys =>
    let verb := if keys.length = 1 then "was" else "were"
    here (.list keys) ("Additional properties are not allowed ("
      ++ Data.joined (keys.map Data.quoted) ++ " " ++ verb ++ " unexpected)")

mutual

/-- The places where a value breaks the rules, in the order of the rules. -/
def violations : Schema → Data → List Violation
  | .flag, d => match d with
    | .bool _ => []
    | d => wrongKind d "boolean"
  | .whole low high, d => match d with
    | .int n => outOfBounds d low high (fun b => decide (n < b)) (fun b => decide (b < n))
    | .real x =>
      (if (Decimal.integral? x).isSome then [] else wrongKind d "integer") ++
        outOfBounds d low high (Data.realBefore x) (fun b => Data.intBefore b x)
    | d => wrongKind d "integer"
  | .text length, d => match d with
    | .text s =>
      if s.length < length then
        here d (d.quoted ++ if length = 1 then " should be non-empty" else " is too short")
      else []
    | d => wrongKind d "string"
  | .identifier, d => match d with
    | .text s =>
      if isName s.toList then []
      else here d (d.quoted ++ " does not match '^[A-Za-z_][A-Za-z0-9_]*$'")
    | d => wrongKind d "string"
  | .choice options, d =>
    let known := match d with
      | .text s => options.contains s
      | _ => false
    if known then []
    else here d (d.quoted ++ " is not one of " ++ (Data.list (options.map Data.text)).quoted)
  | .list item, d => match d.untied with
    | .list items => items.zipIdx.flatMap fun e =>
      (violations item e.1).map (Violation.under (.int e.2))
    | _ => wrongKind d "array"
  | .record required fields, d => match d.untied.entries? with
    | some entries =>
      (required.flatMap fun name =>
        if (Data.find? name entries).isSome then []
        else here .null (Text.quoted name ++ " is a required property")) ++
      unexpectedProblem (unexpected (fields.map Prod.fst) entries) ++
      fieldViolations entries fields
    | none => wrongKind d "object"
  | .map value, d => match d.untied.entries? with
    | some entries => (byKey entries).flatMap fun e =>
      (violations value e.2).map (Violation.under e.1)
    | none => wrongKind d "object"

/-- The violations inside of the fields that a table has. -/
def fieldViolations (entries : List (Data × Data)) : List (String × Schema) → List Violation
  | [] => []
  | (name, schema) :: rest =>
    (match Data.find? name entries with
      | some d => (violations schema d).map (Violation.under (.text name))
      | none => []) ++ fieldViolations entries rest

end

/-- The problems of a value, in the order of their places.  Numbers that are too long to be shown
are a fault of their own. -/
def problems (schema : Schema) (d : Data) : Except Fault (List String) := do
  let vs := schema.violations d
  if vs.any fun v => v.shown.hasLongNumber then throw .numberTooLong
  let vs ← Violation.sorted vs
  if vs.any fun v => v.path.any Data.hasLongNumber then throw .numberTooLong
  return vs.map Violation.render

end Schema

end ChipSupport
