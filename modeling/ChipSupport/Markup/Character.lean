import ChipSupport.Markup.Name

/-!
# Characters of markup documents

Which characters a document may contain, and which of them make up names.
-/

namespace ChipSupport.Markup

/-- Whether a document may contain a character. -/
def isAllowed (c : Char) : Bool :=
  Text.inRanges [(9, 10), (13, 13), (0x20, 0xD7FF), (0xE000, 0xFFFD), (0x10000, 0x10FFFF)] c

/-- Whether a character separates parts of a tag. -/
def isSpace (c : Char) : Bool := c == ' ' || c == '\t' || c == '\n' || c == '\r'

/-- The name at the start of a text, and the rest. -/
def readName : List Char → Option (List Char × List Char)
  | [] => none
  | c :: rest =>
    if isNameStart c then some (c :: rest.takeWhile isNameChar, rest.dropWhile isNameChar) else none

/-- A text without space in front. -/
def dropSpace (s : List Char) : List Char := s.dropWhile isSpace

/-- What stands before a mark, and the rest after it. -/
def splitAtMark (mark : List Char) : List Char → Option (List Char × List Char)
  | [] => none
  | c :: rest =>
    if mark.isPrefixOf (c :: rest) then some ([], (c :: rest).drop mark.length)
    else (splitAtMark mark rest).map fun p => (c :: p.1, p.2)

/-- The rest of a text after a mark in front. -/
def afterMark (mark s : List Char) : Option (List Char) :=
  if mark.isPrefixOf s then some (s.drop mark.length) else none

/-! ### What is left to read -/

theorem length_dropWhile_le (p : Char → Bool) (s : List Char) : (s.dropWhile p).length ≤ s.length :=
  (List.dropWhile_sublist p).length_le

theorem length_dropSpace_le (s : List Char) : (dropSpace s).length ≤ s.length :=
  length_dropWhile_le isSpace s

theorem length_readName_lt {s name rest : List Char} (h : readName s = some (name, rest)) :
    rest.length < s.length := by
  unfold readName at h
  split at h
  · simp at h
  · split at h
    · cases h
      exact Nat.lt_succ_of_le (length_dropWhile_le isNameChar _)
    · simp at h

theorem length_splitAtMark_le {mark s body rest : List Char}
    (h : splitAtMark mark s = some (body, rest)) : rest.length ≤ s.length := by
  fun_induction splitAtMark mark s generalizing body with
  | case1 => simp at h
  | case2 =>
    cases h
    simp
  | case3 c s _ ih =>
    obtain ⟨q, hq, e⟩ := Option.map_eq_some_iff.1 h
    cases e
    exact Nat.le_succ_of_le (ih hq)

theorem length_afterMark_le {mark s rest : List Char} (h : afterMark mark s = some rest) :
    rest.length ≤ s.length := by
  unfold afterMark at h
  split at h
  · cases h
    simp
  · simp at h

/-- A text in which every line ends with a single line feed. -/
def unifyLineEnds : List Char → List Char
  | [] => []
  | '\r' :: '\n' :: rest => '\n' :: unifyLineEnds rest
  | '\r' :: rest => '\n' :: unifyLineEnds rest
  | c :: rest => c :: unifyLineEnds rest

end ChipSupport.Markup
