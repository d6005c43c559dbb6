import ChipSupport.Fault
import ChipSupport.Text.Lines

/-!
# Templates

A template is a text with placeholders `$name` or `$` and the name in braces.  Two dollar signs
stand for one.  Any other dollar sign is malformed, which is reported when the template is filled.

## Main definitions

* `Piece`, `pieces` — a template as literal pieces and holes.
* `fill` — the text with values in place of the holes; the first hole that cannot be filled decides
  on the fault.
-/

namespace ChipSupport.Template

/-- A piece of a template. -/
inductive Piece where
  /-- Text that stands as it is. -/
  | literal (c : Char)
  /-- A placeholder. -/
  | hole (name : String)
  /-- A dollar sign that begins no placeholder, by line and column. -/
  | malformed (line column : Nat)
  deriving DecidableEq, Repr

/-- Whether a name may begin with a character. -/
def isNameStart (c : Char) : Bool :=
  c == '_' || ('a' ≤ c && c ≤ 'z') || ('A' ≤ c && c ≤ 'Z')

/-- Whether a name may go on with a character. -/
def isNameChar (c : Char) : Bool := isNameStart c || ('0' ≤ c && c ≤ '9')

/-- The name at the front of a text, which may be empty, and the text after it. -/
def splitName (s : List Char) : List Char × List Char :=
  match s with
  | [] => ([], [])
  | c :: _ => if isNameStart c then (s.takeWhile isNameChar, s.dropWhile isNameChar) else ([], s)

theorem length_dropWhile_le (p : Char → Bool) (s : List Char) :
    (s.dropWhile p).length ≤ s.length := by
  induction s with
  | nil => simp
  | cons c rest ih =>
    by_cases h : p c
    · simp [List.dropWhile, h]; omega
    · simp [List.dropWhile, h]

theorem length_splitName_le (s : List Char) : (splitName s).2.length ≤ s.length := by
  unfold splitName
  split
  · simp
  · split
    · exact length_dropWhile_le _ _
    · simp

/-- The placeholder after a dollar sign and the text after it; `none` if the dollar sign is
malformed. -/
def splitHole (s : List Char) : Option (Piece × List Char) :=
  match s with
  | '$' :: rest => some (.literal '$', rest)
  | '{' :: rest =>
    match splitName rest with
    | ([], _) => none
    | (name, '}' :: rest) => some (.hole (String.ofList name), rest)
    | _ => none
  | s =>
    match splitName s with
    | ([], _) => none
    | (name, rest) => some (.hole (String.ofList name), rest)

theorem length_splitHole_le {s : List Char} {p : Piece × List Char} (h : splitHole s = some p) :
    p.2.length ≤ s.length := by
  unfold splitHole at h
  split at h
  · simp only [Option.some.injEq] at h
    subst h
    simp
  · rename_i rest
    have hle := length_splitName_le rest
    split at h
    · simp at h
    · rename_i name tail hs
      simp only [Option.some.injEq] at h
      subst h
      rw [hs] at hle
      simp at hle ⊢
      omega
    · simp at h
  · have hle := length_splitName_le s
    split at h
    · simp at h
    · rename_i name tail _ hs
      simp only [Option.some.injEq] at h
      subst h
      rw [hs] at hle
      exact hle

/-- The pieces of a template that follows the reversed characters `seen`.  Nothing is read after a
malformed piece. -/
def piecesFrom (seen : List Char) (s : List Char) : List Piece :=
  match s with
  | [] => []
  | c :: rest =>
    if c = '$' then
      match _h : splitHole rest with
      | some (piece, tail) =>
        piece :: piecesFrom ((rest.take (rest.length - tail.length)).reverse ++ c :: seen) tail
      | none =>
        let at_ := Text.column (c :: seen).reverse
        [.malformed at_.1 at_.2]
    else .literal c :: piecesFrom (c :: seen) rest
termination_by s.length
decreasing_by
  · have := length_splitHole_le _h
    simp at this ⊢
    omega
  · simp

/-- The pieces of a template. -/
def pieces (s : String) : List Piece := piecesFrom [] s.toList

/-- The text of a template whose holes have values. -/
def fillPieces (values : List (String × String)) : List Piece → Except Fault (List Char)
  | [] => .ok []
  | .literal c :: rest => (fillPieces values rest).map (c :: ·)
  | .hole name :: rest =>
    match values.lookup name with
    | some v => (fillPieces values rest).map (v.toList ++ ·)
    | none => .error (.placeholderUnknown name)
  | .malformed line column :: _ => .error (.placeholderMalformed line column)

/-- The text of a template with values for its placeholders. -/
def fill (template : String) (values : List (String × String)) : Except Fault String :=
  (fillPieces values (pieces template)).map String.ofList

end ChipSupport.Template
