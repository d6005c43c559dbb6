import ChipSupport.Markup.Character
import ChipSupport.Text.Digit

/-!
# References in markup

A reference stands for a character: by a name that every document knows, or by its number.

## Main definitions

* `Markup.resolve` — what a reference stands for.
* `Markup.expand` — a text with its references replaced.
* `Markup.attributeValue` — the value of an attribute.
-/

namespace ChipSupport.Markup

/-- The characters that have a name in every document. -/
def namedCharacters : List (List Char × Char) :=
  [("lt".toList, '<'), ("gt".toList, '>'), ("amp".toList, '&'), ("quot".toList, '"'),
    ("apos".toList, '\'')]

/-- The value of a digit in base sixteen. -/
def hexValue? (c : Char) : Option Nat :=
  if '0' ≤ c ∧ c ≤ '9' then some (c.toNat - 48)
  else if 'a' ≤ c ∧ c ≤ 'f' then some (c.toNat - 87)
  else if 'A' ≤ c ∧ c ≤ 'F' then some (c.toNat - 55)
  else none

/-- The number that digits of a base spell.  There must be a digit. -/
def numberOf? (base : Nat) (s : List Char) : Option Nat :=
  if s.isEmpty then none
  else
    s.foldlM (fun n c =>
      (hexValue? c).bind fun d => if d < base then some (n * base + d) else none) 0

/-- The character of a number, if documents may contain it. -/
def character? (n : Nat) : Option Char :=
  if n < 0xD800 ∨ (0xE000 ≤ n ∧ n < 0x110000) then
    let c := Char.ofNat n
    if isAllowed c then some c else none
  else none

/-- What a reference stands for.  A name that is not known stands for nothing if the document may
declare it elsewhere, and is a mistake otherwise. -/
def resolve (declaredElsewhere : Bool) (body : List Char) : Option (List Char) :=
  match body with
  | '#' :: 'x' :: digits => ((numberOf? 16 digits).bind character?).map ([·])
  | '#' :: digits => ((numberOf? 10 digits).bind character?).map ([·])
  | name =>
    match namedCharacters.lookup name with
    | some c => some [c]
    | none =>
      match readName name with
      | some (_, []) => if declaredElsewhere then some [] else none
      | _ => none

/-- A text with its references replaced. -/
def expand (declaredElsewhere : Bool) : List Char → Option (List Char)
  | [] => some []
  | '&' :: rest =>
    match _h : rest.dropWhile (· != ';') with
    | [] => none
    | _ :: after => do
      let value ← resolve declaredElsewhere (rest.takeWhile (· != ';'))
      let others ← expand declaredElsewhere after
      return value ++ others
  | c :: rest => (expand declaredElsewhere rest).map (c :: ·)
termination_by s => s.length
decreasing_by
  · have := (List.dropWhile_sublist (· != ';') (l := rest)).length_le
    simp only [_h, List.length_cons] at this ⊢
    omega
  · simp

/-- A text with one blank for several in a row, and with none after the character before it if that
is a blank. -/
def singleBlanks (before : Char) : List Char → List Char
  | [] => []
  | c :: rest =>
    if c == ' ' && before == ' ' then singleBlanks before rest else c :: singleBlanks c rest

/-- The words of a text with single blanks between them, and none at the ends. -/
def onlyWords (s : List Char) : List Char :=
  let found := singleBlanks ' ' s
  if found.getLast? == some ' ' then found.dropLast else found

/-- The value of an attribute: space becomes blanks, and references are replaced.  Where blanks do
not count, only single blanks between words stay. -/
def attributeValue (lenient blanksCount : Bool) (raw : List Char) : Option String :=
  if raw.all fun c => isAllowed c && c != '<' then
    let blanks := (unifyLineEnds raw).map fun c => if isSpace c then ' ' else c
    (expand lenient blanks).map fun s =>
      String.ofList (if blanksCount then s else onlyWords s)
  else none

end ChipSupport.Markup
