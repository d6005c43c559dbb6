import ChipSupport.Fault
import ChipSupport.Yaml.Plain

/-!
# Scalars in quotes

In single quotes, a quote is written twice.  In double quotes, a backslash begins an escape.  Ends
of lines are folded in both.

## Main definitions

* `Yaml.escape` — the character of an escape.
* `Yaml.quoted` — a scalar in quotes.
-/

namespace ChipSupport.Yaml

/-- The escapes of one character. -/
def shortEscapes : List (Char × Char) :=
  [('0', '\x00'), ('a', '\x07'), ('b', '\x08'), ('t', '\t'), ('\t', '\t'), ('n', '\n'),
    ('v', '\x0b'), ('f', '\x0c'), ('r', '\r'), ('e', '\x1b'), (' ', ' '), ('"', '"'), ('/', '/'),
    ('\\', '\\'), ('N', '\x85'), ('_', '\xa0'), ('L', '\u2028'), ('P', '\u2029')]

/-- The escapes that are followed by a number in base sixteen, with the number of digits. -/
def longEscapes : List (Char × Nat) := [('x', 2), ('u', 4), ('U', 8)]

/-- The value of a digit in base sixteen. -/
def hexDigit? (c : Char) : Option Nat :=
  if '0' ≤ c ∧ c ≤ '9' then some (c.toNat - 48)
  else if 'a' ≤ c ∧ c ≤ 'f' then some (c.toNat - 87)
  else if 'A' ≤ c ∧ c ≤ 'F' then some (c.toNat - 55)
  else none

/-- The number that digits in base sixteen spell. -/
def hexNumber? (s : List Char) : Option Nat :=
  s.foldlM (fun n c => (hexDigit? c).map (n * 16 + ·)) 0

/-- The character with a code point. -/
def character (n : Nat) : Except Fault Char :=
  if 0x80000000 ≤ n then .error .characterTooLarge
  else if 0x110000 ≤ n then .error .characterUnknown
  else if 0xD800 ≤ n && n < 0xE000 then .error .descriptionMalformed
  else .ok (Char.ofNat n)

/-- The number of an escape with a number of digits. -/
def escapedNumber (size : Nat) (s : List Char) : Except Fault Nat :=
  let digits := s.take size
  match if digits.length < size then none else hexNumber? digits with
  | some n => .ok n
  | none => .error .descriptionMalformed

/-- The character that two halves of a code point make up, of which the second one is escaped at the
beginning of a text. -/
def joinedHalves (high : Nat) (s : List Char) : Option Char :=
  match s with
  | '\\' :: 'u' :: rest =>
    match escapedNumber 4 rest with
    | .ok low =>
      if 0xD800 ≤ high && high < 0xDC00 && 0xDC00 ≤ low && low < 0xE000 then
        some (Char.ofNat (0x10000 + (high - 0xD800) * 0x400 + (low - 0xDC00)))
      else none
    | .error _ => none
  | _ => none

/-- The character of the escape after a backslash, and the number of characters of the escape. -/
def escape (s : List Char) : Except Fault (Char × Nat) :=
  match s with
  | [] => .error .descriptionMalformed
  | c :: rest =>
    match shortEscapes.lookup c, longEscapes.lookup c with
    | some x, _ => .ok (x, 1)
    | none, none => .error .descriptionMalformed
    | none, some size => do
      let n ← escapedNumber size rest
      match joinedHalves n (rest.drop size) with
      | some x => return (x, size + 7)
      | none => return (← character n, size + 1)

/-- The ends of lines and the position after blanks and empty lines in quotes, where no document may
end. -/
def quotedLines (breaks : List Char) (c : Cursor) : Except Fault (List Char × Cursor) :=
  if separates c.rest then .error .descriptionMalformed
  else
    let next := c.skipWhile isBlank
    match _h : next.rest with
    | [] => .ok (breaks, next)
    | x :: _ =>
      if isBreak x then quotedLines (breaks ++ Cursor.breakText x) next.skipBreak
      else .ok (breaks, next)
termination_by c.rest.length
decreasing_by
  exact Nat.lt_of_lt_of_le (Cursor.length_skipBreak_lt _h) (c.length_skipWhile_le isBlank)

theorem length_quotedLines_le {breaks : List Char} {c : Cursor} {r : List Char × Cursor}
    (h : quotedLines breaks c = .ok r) : r.2.rest.length ≤ c.rest.length := by
  fun_induction quotedLines breaks c with
  | case1 => simp at h
  | case2 _ c =>
    cases h
    exact c.length_skipWhile_le isBlank
  | case3 _ c _ next _ _ _ _ ih =>
    exact Nat.le_trans (ih h)
      (Nat.le_trans next.length_skipBreak_le (c.length_skipWhile_le isBlank))
  | case4 _ c =>
    cases h
    exact c.length_skipWhile_le isBlank

/-- One part of a scalar in quotes: its text and the position after it; no text at the closing
quote. -/
def quotedPart (double : Bool) (c : Cursor) : Except Fault (Option (List Char) × Cursor) :=
  match c.rest with
  | [] => .error .descriptionMalformed
  | x :: rest =>
    if !double && x == '\x27' then
      if rest.head? == some '\x27' then .ok (some ['\x27'], c.skip 2) else .ok (none, c.skip 1)
    else if double && x == '"' then .ok (none, c.skip 1)
    else if double && x == '\\' then
      match rest with
      | [] => .error .descriptionMalformed
      | y :: _ =>
        if isBreak y then
          (quotedLines [] (c.skip 1).skipBreak).map fun p => (some p.1, p.2)
        else (escape rest).map fun e => (some [e.1], c.skip (e.2 + 1))
    else if isBlank x || isBreak x then
      let blanks := c.rest.takeWhile isBlank
      let next := c.skip blanks.length
      match next.rest with
      | [] => .error .descriptionMalformed
      | y :: _ =>
        if isBreak y then
          (quotedLines [] next.skipBreak).map fun p => (some (folded y p.1), p.2)
        else .ok (some blanks, next)
    else .ok (some [x], c.skip 1)

theorem length_mapped_le {breaks : List Char} {c : Cursor}
    {f : List Char × Cursor → Option (List Char)}
    {p : Option (List Char) × Cursor}
    (h : (quotedLines breaks c).map (fun r => (f r, r.2)) = .ok p) :
    p.2.rest.length ≤ c.rest.length := by
  cases e : quotedLines breaks c with
  | error => simp [e, Except.map] at h
  | ok r =>
    simp only [e, Except.map, Except.ok.injEq] at h
    exact h ▸ length_quotedLines_le e

theorem length_quotedPart_lt {double : Bool} {c : Cursor} {p : Option (List Char) × Cursor}
    (h : quotedPart double c = .ok p) : p.2.rest.length < c.rest.length := by
  unfold quotedPart at h
  split at h
  · simp at h
  · rename_i x rest e
    have here {n : Nat} (hn : 0 < n) : (c.skip n).rest.length < c.rest.length :=
      Cursor.length_skip_lt e hn
    have line {n : Nat} (hn : 0 < n) : (c.skip n).skipBreak.rest.length < c.rest.length :=
      Nat.lt_of_le_of_lt (Cursor.length_skipBreak_le _) (here hn)
    split at h
    · split at h <;> cases h <;> exact here (by decide)
    split at h
    · cases h
      exact here (by decide)
    split at h
    · split at h
      · simp at h
      · rename_i y tail
        split at h
        · exact Nat.lt_of_le_of_lt (length_mapped_le h) (line (by decide))
        · cases found : escape (y :: tail) with
          | error => simp [found, Except.map] at h
          | ok r =>
            simp only [found, Except.map, Except.ok.injEq] at h
            exact h ▸ here (Nat.succ_pos _)
    split at h
    · rename_i blank
      have next := c.length_skip_le (c.rest.takeWhile isBlank).length
      simp only at h
      split at h
      · simp at h
      · rename_i y tail found
        have after := Cursor.length_skipBreak_lt found
        split at h
        · exact Nat.lt_of_le_of_lt (length_mapped_le h) (Nat.lt_of_lt_of_le after next)
        · rename_i other
          cases h
          refine here (List.length_pos_iff.2 fun none_ => other ?_)
          rw [none_, Cursor.skip, e] at found
          cases hx : isBlank x <;> simp_all
    · cases h
      exact here (by decide)

/-- A scalar in quotes, of which the opening quote and a text are read.  `start` is the text, the
last character first. -/
def quoted (double : Bool) (start : List Char) (c : Cursor) : Except Fault Scanned :=
  match _h : quotedPart double c with
  | .error f => .error f
  | .ok (none, after) => .ok ⟨start.reverse, after, false⟩
  | .ok (some part, after) => quoted double (part.reverse ++ start) after
termination_by c.rest.length
decreasing_by exact length_quotedPart_lt _h

end ChipSupport.Yaml
