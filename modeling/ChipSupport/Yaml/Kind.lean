import ChipSupport.Yaml.Cursor
import ChipSupport.Yaml.Stamp

/-!
# Types of nodes

The type of a node is stated by a tag.  A scalar without a tag and without quotes has the type that
its spelling suggests, which depends on the edition of the notation.

## Main definitions

* `Yaml.Kind` — the types.
* `Yaml.Kind.ofTag` — the type that a tag states.
* `Yaml.Kind.ofSpelling` — the type that a spelling suggests.
-/

namespace ChipSupport.Yaml

/-- The type of a node. -/
inductive Kind where
  /-- Nothing. -/
  | null
  /-- A truth value. -/
  | truth
  /-- A whole number. -/
  | whole
  /-- A number with a fraction. -/
  | real
  /-- Bytes. -/
  | bytes
  /-- A day or moment. -/
  | stamp
  /-- A text. -/
  | text
  /-- A list. -/
  | list
  /-- A table. -/
  | table
  /-- A list of tables with one entry each, of which the order counts. -/
  | ordered
  /-- The same, where a key may come again. -/
  | pairs
  /-- A table of which only the keys count. -/
  | set
  /-- The key under which a table takes over the entries of others. -/
  | merge
  /-- The key that stands for the table itself. -/
  | value
  /-- Any other type. -/
  | unknown
  deriving DecidableEq, Repr, Inhabited

namespace Kind

/-- The names of the types, which follow a common beginning. -/
def names : List (String × Kind) :=
  [("null", null), ("bool", truth), ("int", whole), ("float", real), ("binary", bytes),
    ("timestamp", stamp), ("str", text), ("seq", list), ("map", table), ("omap", ordered),
    ("pairs", pairs), ("set", set), ("merge", merge), ("value", value)]

/-- The beginning of the tags of the types. -/
def tagStart : String := "tag:yaml.org,2002:"

/-- The type that a tag states. -/
def ofTag (tag : String) : Kind :=
  let start := tagStart.toList
  if start.isPrefixOf tag.toList then
    (names.lookup (String.ofList (tag.toList.drop start.length))).getD unknown
  else unknown

/-! ### Spellings -/

/-- A text without the sign in front. -/
def dropSign : List Char → List Char
  | '-' :: rest => rest
  | '+' :: rest => rest
  | s => s

/-- Whether a character may stand in the digits of a number: underscores divide digits. -/
def isFigure (c : Char) : Bool := c.isDigit || c == '_'

/-- Whether a text has characters, and all of them satisfy a condition or divide digits. -/
def allFigures (p : Char → Bool) (s : List Char) : Bool :=
  !s.isEmpty && s.all fun c => p c || c == '_'

/-- Whether a character is a digit in base eight. -/
def isOctal (c : Char) : Bool := '0' ≤ c && c ≤ '7'

/-- Whether a character is a digit in base two. -/
def isBinary (c : Char) : Bool := c == '0' || c == '1'

/-- Whether a character is a digit in base sixteen. -/
def isHex (c : Char) : Bool := c.isDigit || ('a' ≤ c && c ≤ 'f') || ('A' ≤ c && c ≤ 'F')

/-- Whether a text begins with a digit and goes on with digits. -/
def isDecimal (s : List Char) : Bool := (s.head?.map Char.isDigit).getD false && s.all isFigure

/-- Whether a part of a number in base sixty is below sixty, with at most two digits. -/
def isSixtieth : List Char → Bool
  | [c] => c.isDigit
  | [a, b] => '0' ≤ a && a ≤ '5' && b.isDigit
  | _ => false

/-- The parts of a text between colons. -/
def colonParts (s : List Char) : List (List Char) :=
  match s with
  | [] => [[]]
  | ':' :: rest => [] :: colonParts rest
  | c :: rest =>
    match colonParts rest with
    | part :: parts => (c :: part) :: parts
    | [] => [[c]]

/-- Whether a text is a number in base sixty, with parts between colons. -/
def isSexagesimal (s : List Char) : Bool :=
  match colonParts s with
  | first :: second :: rest => isDecimal first && (second :: rest).all isSixtieth
  | _ => false

/-- Whether a text is spelled like a whole number. -/
def isWhole (edition : Edition) (s : List Char) : Bool :=
  let body := dropSign s
  let begins := (s.head?.map fun c => c.isDigit || c == '-' || c == '+').getD false
  let marked := match body with
    | '0' :: 'b' :: digits => allFigures isBinary digits
    | '0' :: 'x' :: digits => allFigures isHex digits
    | '0' :: 'o' :: digits => edition == .second && allFigures isOctal digits
    | _ => false
  begins && (marked ||
    match edition with
    | .first =>
      allFigures isOctal body || (isDecimal body && body.head? != some '0')
        || (isSexagesimal body && body.head? != some '0')
    | .second => allFigures Char.isDigit body)

/-- Whether a text is an exponent with its mark. -/
def isExponent (signNeeded : Bool) : List Char → Bool
  | mark :: rest =>
    let digits := dropSign rest
    (mark == 'e' || mark == 'E') && !digits.isEmpty && digits.all Char.isDigit
      && (!signNeeded || digits.length < rest.length)
  | [] => false

/-- Whether a text is spelled like a number with a fraction or an exponent. -/
def isReal (edition : Edition) (s : List Char) : Bool :=
  let body := dropSign s
  let whole := body.takeWhile isFigure
  let rest := body.drop whole.length
  let fraction := (rest.drop 1).takeWhile isFigure
  let after := rest.drop (fraction.length + 1)
  if s == ".nan".toList || s == ".NaN".toList || s == ".NAN".toList then true
  else if body == ".inf".toList || body == ".Inf".toList || body == ".INF".toList then true
  else if rest.head? == some '.' then
    if whole.isEmpty then
      !fraction.isEmpty && (after.isEmpty || isExponent true after)
        && (edition == .second || body.length == s.length)
    else isDecimal whole && (after.isEmpty || isExponent false after)
  else if edition == .first && body.contains '.' then
    isSexagesimal (body.takeWhile (· != '.')) && ((body.dropWhile (· != '.')).drop 1).all isFigure
  else isDecimal whole && isExponent false rest

/-- The spellings of nothing. -/
def nullWords : List String := ["", "~", "null", "Null", "NULL"]

/-- The spellings of truth values in all editions. -/
def truthWords : List String := ["true", "True", "TRUE", "false", "False", "FALSE"]

/-- More spellings of truth values in the first edition. -/
def olderTruthWords : List String :=
  ["y", "Y", "yes", "Yes", "YES", "n", "N", "no", "No", "NO", "on", "On", "ON", "off", "Off", "OFF"]

/-- The spellings of marks, which are no texts. -/
def markWords : List String := ["!", "&", "*"]

/-- The type that a spelling suggests.  A line feed at the end does not count. -/
def ofSpelling (edition : Edition) (text : String) : Kind :=
  let s := match text.toList.reverse with
    | '\n' :: d :: rest => (d :: rest).reverse
    | _ => text.toList
  let word := String.ofList s
  if nullWords.contains word then null
  else if truthWords.contains word then truth
  else if edition == .first && olderTruthWords.contains word then truth
  else if isReal edition s then real
  else if isWhole edition s then whole
  else if word == "<<" then merge
  else if word == "=" then value
  else if Stamp.isSpelled s then stamp
  else if markWords.contains word then unknown
  else Kind.text

end Kind

end ChipSupport.Yaml
