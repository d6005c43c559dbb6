import ChipSupport.Fault
import ChipSupport.Decimal.Shortest

/-!
# Data of a document

What a document holds, whatever notation it is written in: nothing, a truth value, a number, a text,
bytes, a day or moment, a list, a set, or a table that keeps the order of its entries.  A collection
may contain itself.

## Main definitions

* `Data` — the values.
* `Data.untied` — a value that contains itself, opened one level.
* `Data.entries?`, `Data.get?` — the entries of a table.
* `Data.isEmpty` — the values that count as missing.
* `Data.quoted`, `Data.plainKey` — how a value is shown in a message.
* `Data.sameKey`, `Data.before?` — how keys are compared.
-/

namespace ChipSupport

/-- A value of a document. -/
inductive Data where
  /-- Nothing. -/
  | null
  /-- A truth value. -/
  | bool (b : Bool)
  /-- A whole number. -/
  | int (n : Int)
  /-- A number that is written with a point or an exponent. -/
  | real (x : Float)
  /-- A text. -/
  | text (s : String)
  /-- Bytes. -/
  | bytes (bs : List Nat)
  /-- A day. -/
  | date (d : Date)
  /-- A moment of a day. -/
  | moment (m : Moment)
  /-- A list. -/
  | list (items : List Data)
  /-- A list that is a key or an entry, and never changes. -/
  | tuple (items : List Data)
  /-- A set. -/
  | set (items : List Data)
  /-- A table, in the order of its entries. -/
  | table (entries : List (Data × Data))
  /-- A table of which the order counts. -/
  | ordered (entries : List (Data × Data))
  /-- A collection with a number, by which it contains itself. -/
  | knot (number : Nat) (body : Data)
  /-- The collection around with a number. -/
  | again (number : Nat)
  deriving Repr, Inhabited

namespace Data

/-! ### Values that contain themselves -/

mutual

/-- A value with another one in the places of a number. -/
def replace (number : Nat) (d : Data) : Data → Data
  | .again n => if n = number then d else .again n
  | .knot n body => if n = number then .knot n body else .knot n (replace number d body)
  | .list items => .list (replaceItems number d items)
  | .tuple items => .tuple (replaceItems number d items)
  | .set items => .set (replaceItems number d items)
  | .table entries => .table (replaceEntries number d entries)
  | .ordered entries => .ordered (replaceEntries number d entries)
  | other => other

/-- The same for the items of a list. -/
def replaceItems (number : Nat) (d : Data) : List Data → List Data
  | [] => []
  | item :: rest => replace number d item :: replaceItems number d rest

/-- The same for the values of a table. -/
def replaceEntries (number : Nat) (d : Data) : List (Data × Data) → List (Data × Data)
  | [] => []
  | (key, value) :: rest => (key, replace number d value) :: replaceEntries number d rest

end

/-- A value, opened one level if it contains itself. -/
def untied : Data → Data
  | .knot number body => replace number (.knot number body) body
  | d => d

/-! ### Texts -/

/-- Whether a value is a text. -/
def isText : Data → Bool
  | .text _ => true
  | _ => false

/-- Whether a value is the text given. -/
def hasText (s : String) : Data → Bool
  | .text t => t == s
  | _ => false

/-! ### Tables -/

/-- The first entry of a table under a name. -/
def find? (name : String) : List (Data × Data) → Option Data
  | [] => none
  | (.text key, value) :: rest => if key = name then some value else find? name rest
  | _ :: rest => find? name rest

/-- The entries of a table. -/
def entries? : Data → Option (List (Data × Data))
  | .table entries | .ordered entries => some entries
  | _ => none

/-- The value under a name, if the value is a table that has the name. -/
def get? (name : String) (d : Data) : Option Data := d.entries?.bind (find? name)

/-- Whether a value is a table. -/
def isTable (d : Data) : Bool := d.entries?.isSome

/-- Whether a value counts as missing: nothing, false, zero, or without content. -/
def isEmpty : Data → Bool
  | .null => true
  | .bool b => !b
  | .int n => n == 0
  | .real x => x == 0
  | .text s => s.isEmpty
  | .bytes bs => bs.isEmpty
  | .list items | .tuple items | .set items => items.isEmpty
  | .table entries | .ordered entries => entries.isEmpty
  | .date _ | .moment _ | .knot _ _ | .again _ => false

/-! ### Messages -/

/-- The texts of a list of values, between separators. -/
def joined (texts : List String) : String := String.intercalate ", " texts

/-- A byte as it stands between two quotes. -/
def quotedByte (quote : Char) (b : Nat) : List Char :=
  if 32 ≤ b ∧ b < 127 ∨ b = 9 ∨ b = 10 ∨ b = 13 then Text.quotedChar quote (Char.ofNat b)
  else '\\' :: 'x' :: Text.hexDigits b 2

/-- Bytes in quotes. -/
def quotedBytes (bs : List Nat) : String :=
  let q := Text.quoteOf (bs.map Char.ofNat)
  String.ofList ('b' :: q :: (bs.flatMap (quotedByte q) ++ [q]))

/-- What stands for a collection inside of itself. -/
def ellipsis : Data → String
  | .list _ => "[...]"
  | .tuple _ => "(...)"
  | .table _ => "\x7b...\x7d"
  | _ => "..."

mutual

/-- A value as it is shown inside of collections with numbers. -/
def quotedIn (around : List (Nat × String)) : Data → String
  | .null => "None"
  | .bool b => if b then "True" else "False"
  | .int n => Numeral.decimal n
  | .real x => Decimal.render x
  | .text s => Text.quoted s
  | .bytes bs => quotedBytes bs
  | .date d => d.quoted
  | .moment m => m.quoted
  | .list items => "[" ++ joined (quotedItems around items) ++ "]"
  | .tuple [d] => "(" ++ quotedIn around d ++ ",)"
  | .tuple items => "(" ++ joined (quotedItems around items) ++ ")"
  | .set [] => "set()"
  | .set items => "\x7b" ++ joined (quotedItems around items) ++ "\x7d"
  | .table entries => "\x7b" ++ joined (quotedEntries around entries) ++ "\x7d"
  | .ordered [] => "ordereddict()"
  | .ordered entries => "ordereddict([" ++ joined (quotedPairs around entries) ++ "])"
  | .knot n body =>
    match around.lookup n with
    | some shown => shown
    | none => quotedIn ((n, body.ellipsis) :: around) body
  | .again n => (around.lookup n).getD ""

/-- The items of a list as they are shown. -/
def quotedItems (around : List (Nat × String)) : List Data → List String
  | [] => []
  | d :: rest => quotedIn around d :: quotedItems around rest

/-- The entries of a table as they are shown. -/
def quotedEntries (around : List (Nat × String)) : List (Data × Data) → List String
  | [] => []
  | (key, value) :: rest =>
    (quotedIn around key ++ ": " ++ quotedIn around value) :: quotedEntries around rest

/-- The entries of an ordered table as they are shown. -/
def quotedPairs (around : List (Nat × String)) : List (Data × Data) → List String
  | [] => []
  | (key, value) :: rest =>
    ("(" ++ quotedIn around key ++ ", " ++ quotedIn around value ++ ")") :: quotedPairs around rest

end

/-- A value as it is shown in a message. -/
def quoted (d : Data) : String := quotedIn [] d

mutual

/-- Whether a value contains a whole number that is too long to be shown. -/
def hasLongNumber : Data → Bool
  | .int n => Numeral.tooLong n
  | .list items | .tuple items | .set items => anyLongNumber items
  | .table entries | .ordered entries => anyLongEntry entries
  | .knot _ body => hasLongNumber body
  | _ => false

/-- Whether one of several values does. -/
def anyLongNumber : List Data → Bool
  | [] => false
  | d :: rest => hasLongNumber d || anyLongNumber rest

/-- Whether a key or value of a table does. -/
def anyLongEntry : List (Data × Data) → Bool
  | [] => false
  | (key, value) :: rest => hasLongNumber key || hasLongNumber value || anyLongEntry rest

end

/-- A key as plain text: texts without quotes, and days and moments without their names. -/
def plainKey : Data → String
  | .text s => s
  | .date d => d.plain
  | .moment m => m.plain
  | d => quoted d

/-! ### Keys -/

/-- A number as a double. -/
def ofInt (n : Int) : Float := Float.ofInt n

/-- A truth value as a number. -/
def ofBool (b : Bool) : Int := if b then 1 else 0

/-- Whether a number with a fraction is a whole number. -/
def isInt (x : Float) (n : Int) : Bool := Decimal.integral? x == some n

mutual

/-- Whether two keys name the same entry.  Numbers are compared by value, and truth values are the
numbers zero and one. -/
def sameKey : Data → Data → Bool
  | .null, .null => true
  | .text a, .text b => a == b
  | .bytes a, .bytes b => a == b
  | .date a, .date b => a == b
  | .moment a, .moment b => a.same b
  | .list as, .list bs | .tuple as, .tuple bs => sameKeys as bs
  | .real x, .real y => x == y || (x.isNaN && y.isNaN)
  | .real x, .int n | .int n, .real x => isInt x n
  | .real x, .bool b | .bool b, .real x => isInt x (ofBool b)
  | .int a, .int b => a == b
  | .bool a, .bool b => a == b
  | .int n, .bool b | .bool b, .int n => n == ofBool b
  | _, _ => false

/-- Whether two lists of keys are the same, item by item. -/
def sameKeys : List Data → List Data → Bool
  | [], [] => true
  | a :: as, b :: bs => sameKey a b && sameKeys as bs
  | _, _ => false

end

/-- Whether a value can be a key: collections that change cannot. -/
def canBeKey : Data → Bool
  | .list _ | .set _ | .table _ | .ordered _ | .knot _ _ | .again _ => false
  | _ => true

/-- Whether a number with a fraction is less than a whole number. -/
def realBefore (x : Float) (n : Int) : Bool :=
  match Decimal.truncated? x with
  | some m => decide (m < n) || (m == n && x < 0 && !isInt x n)
  | none => decide (x < 0)

/-- Whether a whole number is less than a number with a fraction. -/
def intBefore (n : Int) (x : Float) : Bool :=
  match Decimal.truncated? x with
  | some m => decide (n < m) || (m == n && 0 < x && !isInt x n)
  | none => decide (0 < x)

mutual

/-- Whether the first key comes before the second; `none` if keys have no order, such as a number
and a text. -/
def before? : Data → Data → Option Bool
  | .text s, .text t => some (decide (s < t))
  | .bytes s, .bytes t => some (decide (s < t))
  | .date a, .date b => some (decide (a.ordinal < b.ordinal))
  | .moment a, .moment b =>
    if a.zone.isSome == b.zone.isSome then some (decide (a.instant < b.instant)) else none
  | .int m, .int n => some (decide (m < n))
  | .bool a, .bool b => some (!a && b)
  | .int m, .bool b => some (decide (m < ofBool b))
  | .bool a, .int n => some (decide (ofBool a < n))
  | .real x, .real y => some (decide (x < y))
  | .real x, .int n => some (realBefore x n)
  | .int n, .real x => some (intBefore n x)
  | .real x, .bool b => some (realBefore x (ofBool b))
  | .bool b, .real x => some (intBefore (ofBool b) x)
  | .tuple as, .tuple bs => beforeAll? as bs
  | _, _ => none

/-- The same for lists: the first keys that differ decide. -/
def beforeAll? : List Data → List Data → Option Bool
  | [], [] => some false
  | [], _ :: _ => some true
  | _ :: _, [] => some false
  | a :: as, b :: bs => if sameKey a b then beforeAll? as bs else before? a b

end

end Data

end ChipSupport
