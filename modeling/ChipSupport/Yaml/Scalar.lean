import ChipSupport.Data
import ChipSupport.Decimal.Read
import ChipSupport.Text.Base64
import ChipSupport.Text.LetterCase
import ChipSupport.Text.Numeral.Parse
import ChipSupport.Yaml.Kind

/-!
# Values of scalars

The value of a scalar is told from its text by the rules of its type.  Not every text has a value of
every type.

## Main definitions

* `Yaml.wholeOf`, `Yaml.realOf` — numbers.
* `Yaml.scalarOf` — the value of a scalar.
-/

namespace ChipSupport.Yaml

/-- A text without the underscores that divide digits. -/
def undivided (text : String) : List Char := text.toList.filter (· != '_')

/-- Numbers in base sixty, the highest one first, as one number. -/
def inSixty (parts : List Int) : Int := parts.foldl (fun n part => n * 60 + part) 0

/-- The whole number that a text spells.  In the first edition, a zero in front marks base eight,
and colons stand between the parts of a number in base sixty. -/
def wholeOf (edition : Edition) (text : String) : Except Fault Int := do
  let s := undivided text
  let (negative, body) := Decimal.splitSign s
  if s.isEmpty then throw .positionOutside
  let size ← match body with
    | ['0'] => pure 0
    | '0' :: 'b' :: digits => Numeral.parse 2 digits
    | '0' :: 'x' :: digits => Numeral.parse 16 digits
    | '0' :: 'o' :: digits => Numeral.parse 8 digits
    | digits =>
      if edition = .second then Numeral.parse 10 digits
      else match digits with
        | [] => throw .positionOutside
        | '0' :: _ => Numeral.parse 8 digits
        | digits =>
          if digits.contains ':' then
            return inSixty (← (Kind.colonParts digits).mapM (Numeral.parse 10))
              * if negative then -1 else 1
          else Numeral.parse 10 digits
  return if negative then -size else size

/-- The number with a fraction that a text spells, or the fault that it spells none. -/
def readReal (s : List Char) : Except Fault Float :=
  match Decimal.read? s with
  | some x => .ok x
  | none => .error (.fractionMalformed (String.ofList s))

/-- The product of a number with a power of sixty. -/
def timesSixty (x : Float) (exponent : Nat) : Except Fault Float :=
  let scale := Nat.pow 60 exponent
  if Nat.pow 2 1024 ≤ scale then .error .fractionTooLarge
  else .ok (x * Float.ofNat scale)

/-- Numbers in base sixty, the lowest one first, as one number. -/
def realInSixty (sum : Float) (exponent : Nat) : List Float → Except Fault Float
  | [] => .ok sum
  | x :: rest => do realInSixty (sum + (← timesSixty x exponent)) (exponent + 1) rest

/-- The number with a fraction that a text spells.  In the first edition, colons stand between the
parts of a number in base sixty, and a number has one exponent at most. -/
def realOf (edition : Edition) (text : String) : Except Fault Float := do
  let s := Text.lowerFrom [] (undivided text)
  let (negative, body) := Decimal.splitSign s
  if s.isEmpty then throw .positionOutside
  if body == ".nan".toList then return Decimal.notANumber
  let size ←
    if body == ".inf".toList then pure Decimal.infinity
    else if edition = .first ∧ body.contains ':' then do
      let parts ← (Kind.colonParts body).mapM readReal
      realInSixty 0 0 parts.reverse
    else if edition = .first ∧ 1 < body.count 'e' then throw .exponentRepeated
    else readReal body
  return if negative then -size else size

/-- The words for truth values, in small letters. -/
def truthWords : List (String × Bool) :=
  [("yes", true), ("no", false), ("y", true), ("n", false), ("true", true), ("false", false),
    ("on", true), ("off", false)]

/-- The truth value that a text spells. -/
def truthOf (text : String) : Except Fault Bool :=
  let word := Text.lower text
  match truthWords.lookup word with
  | some b => .ok b
  | none => .error (.truthUnknown word)

/-- The bytes that a text stands for. -/
def bytesOf (text : String) : Except Fault (List Nat) :=
  match if text.toList.all fun c => c.toNat < 128 then Base64.decode? text else none with
  | some bytes => .ok bytes
  | none => .error .descriptionMalformed

/-- The day or moment that a text spells. -/
def stampOf (text : String) : Except Fault Data :=
  match Stamp.read? text.toList with
  | none => .error .descriptionMalformed
  | some { date, clock := none, .. } =>
    match date.problem? with
    | some p => .error (.dateInvalid p)
    | none => .ok (.date date)
  | some { date, clock := some clock, .. } => (Stamp.moment date clock).map .moment

/-- The value of a scalar of a type.  Types of collections have no scalars. -/
def scalarOf (edition : Edition) (kind : Kind) (text : String) : Except Fault Data :=
  match kind with
  | .null => .ok .null
  | .truth => (truthOf text).map .bool
  | .whole => (wholeOf edition text).map .int
  | .real => (realOf edition text).map .real
  | .bytes => (bytesOf text).map .bytes
  | .stamp => stampOf text
  | .text => .ok (.text text)
  | .list | .table | .ordered | .pairs | .set | .merge | .value | .unknown =>
    .error .descriptionMalformed

end ChipSupport.Yaml
