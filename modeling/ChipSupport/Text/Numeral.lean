import ChipSupport.Text.Digit

/-!
# Numerals

Writing and reading of integers in positional notation.  Negative numbers are written by sign and
magnitude, and a minimal width counts the sign.  Reading accepts decimal digits of any script,
single underscores between digits, one sign, and the marks `0x` and `0b` of the bases they name.

## Main definitions

* `Numeral.digits`, `Numeral.value` — a number as digits of a base, highest first, and back.
* `Numeral.decimal`, `Numeral.hex`, `Numeral.hexSmall` — written forms.
* `Numeral.read` — the integer that a text spells in a base.

## Main statements

* `Numeral.value_digits` — the digits of a number have its value.
* `Numeral.digits_lt` — each digit is below the base.
-/

namespace ChipSupport.Numeral

/-- The digits of a number, highest first; zero has the digit `0`.  Only bases from two on. -/
def digits (base n : Nat) : List Nat :=
  if _h : 2 ≤ base ∧ base ≤ n then digits base (n / base) ++ [n % base] else [n]
termination_by n
decreasing_by exact Nat.div_lt_self (by omega) (by omega)

/-- The number that digits spell in a base. -/
def value (base : Nat) (ds : List Nat) : Nat := ds.foldl (fun v d => v * base + d) 0

@[simp] theorem value_nil (base : Nat) : value base [] = 0 := rfl

@[simp] theorem value_append_singleton (base d : Nat) (ds : List Nat) :
    value base (ds ++ [d]) = value base ds * base + d := by simp [value]

theorem value_digits (base n : Nat) : value base (digits base n) = n := by
  fun_induction digits base n with
  | case1 n h ih =>
    rw [value_append_singleton, ih, Nat.mul_comm]
    exact Nat.div_add_mod n base
  | case2 n h => simp [value]

theorem digits_lt {base : Nat} (hb : 2 ≤ base) (n : Nat) : ∀ d ∈ digits base n, d < base := by
  fun_induction digits base n with
  | case1 n h ih =>
    intro d hd
    rcases List.mem_append.1 hd with hd | hd
    · exact ih d hd
    · rw [List.mem_singleton.1 hd]
      exact Nat.mod_lt _ (by omega)
  | case2 n h =>
    intro d hd
    rw [List.mem_singleton.1 hd]
    omega

/-- The character of a digit below thirty-six, with capital letters from ten on. -/
def digitChar (d : Nat) : Char := Char.ofNat (if d < 10 then 48 + d else 55 + d)

/-- The character of a digit below thirty-six, with small letters from ten on. -/
def smallDigitChar (d : Nat) : Char := Char.ofNat (if d < 10 then 48 + d else 87 + d)

/-- The sign that is written before the magnitude of a number. -/
def sign (n : Int) : String := if n < 0 then "-" else ""

/-- A natural number in base ten. -/
def natural (n : Nat) : String := String.ofList ((digits 10 n).map digitChar)

/-- An integer in base ten. -/
def decimal (n : Int) : String := sign n ++ natural n.natAbs

/-- As many copies of a character as are missing to a width. -/
def fill (c : Char) (have_ width : Nat) : String := String.ofList (List.replicate (width - have_) c)

/-- An integer in base sixteen with capital digits, filled with zeros after the sign. -/
def hex (n : Int) (width : Nat := 0) : String :=
  let ds := (digits 16 n.natAbs).map digitChar
  sign n ++ fill '0' ((sign n).length + ds.length) width ++ String.ofList ds

/-- An integer in base sixteen with small digits. -/
def hexSmall (n : Int) : String :=
  sign n ++ String.ofList ((digits 16 n.natAbs).map smallDigitChar)

/-- An integer in base ten at the right end of a column. -/
def rightAligned (n : Int) (width : Nat) : String :=
  fill ' ' (decimal n).length width ++ decimal n

/-- The value of a character as a digit of any base up to thirty-six. -/
def digitValue (c : Char) : Option Nat :=
  if 'a' ≤ c ∧ c ≤ 'z' then some (c.toNat - 87)
  else if 'A' ≤ c ∧ c ≤ 'Z' then some (c.toNat - 55)
  else Text.decimalValue c

/-- The value of a character as a digit of a base. -/
def digitBelow (base : Nat) (c : Char) : Option Nat := (digitValue c).filter (· < base)

/-- Reads the rest of a digit string that begins with the value `v`. -/
def readOn (base v : Nat) : List Char → Option Nat
  | [] => some v
  | c :: rest =>
    if c = '_' then
      match rest with
      | [] => none
      | d :: rest => (digitBelow base d).bind fun k => readOn base (v * base + k) rest
    else (digitBelow base c).bind fun k => readOn base (v * base + k) rest

/-- Reads a digit string, which has a digit at both ends. -/
def readDigits (base : Nat) : List Char → Option Nat
  | [] => none
  | c :: rest => (digitBelow base c).bind fun k => readOn base k rest

/-- The letter that marks a base. -/
def baseMark (base : Nat) (c : Char) : Bool :=
  match base with
  | 16 => c == 'x' || c == 'X'
  | 8 => c == 'o' || c == 'O'
  | 2 => c == 'b' || c == 'B'
  | _ => false

/-- The text after the mark of the base, which an underscore may separate from the digits. -/
def dropMark (base : Nat) : List Char → List Char
  | '0' :: c :: rest =>
    if baseMark base c then
      match rest with
      | '_' :: rest => rest
      | rest => rest
    else '0' :: c :: rest
  | s => s

/-- White space that may surround a numeral. -/
def isMargin (c : Char) : Bool :=
  if c.toNat < 128 then c == ' ' || (9 ≤ c.toNat && c.toNat ≤ 13) else Text.isBlank c

/-- The text without the white space around a numeral. -/
def dropMargins (s : List Char) : List Char :=
  ((s.dropWhile isMargin).reverse.dropWhile isMargin).reverse

/-- The integer that a text spells in a base. -/
def read (base : Nat) (s : List Char) : Option Int :=
  match dropMargins s with
  | '-' :: rest => (readDigits base (dropMark base rest)).map fun n => -(n : Int)
  | '+' :: rest => (readDigits base (dropMark base rest)).map fun n => (n : Int)
  | rest => (readDigits base (dropMark base rest)).map fun n => (n : Int)

/-- The largest number of decimal digits that are read or written. -/
def longest : Nat := 4300

/-- Whether a number has more decimal digits than are written. -/
def tooLong (n : Int) : Bool := decide (Nat.pow 10 longest ≤ n.natAbs)

end ChipSupport.Numeral
