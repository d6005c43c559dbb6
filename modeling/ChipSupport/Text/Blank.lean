/-!
# White space

Blank characters are those that Unicode counts as white space or as a separator of paragraphs,
segments or blocks.  Trimming and splitting into words go by this class.

## Main definitions

* `isBlank` — the class.
* `trim`, `trimEnd` — a text without its outer blanks.
* `words` — the maximal runs of other characters.
-/

namespace ChipSupport.Text

/-- Whether the code point of a character lies in one of the ranges, ends included. -/
def inRanges (ranges : List (Nat × Nat)) (c : Char) : Bool :=
  ranges.any fun r => decide (r.1 ≤ c.toNat) && decide (c.toNat ≤ r.2)

/-- The code points of the blank characters. -/
def blankRanges : List (Nat × Nat) :=
  [(9, 13), (28, 32), (133, 133), (160, 160), (5760, 5760), (8192, 8202), (8232, 8233),
   (8239, 8239), (8287, 8287), (12288, 12288)]

/-- Whether a character is white space. -/
def isBlank (c : Char) : Bool := inRanges blankRanges c

/-- The characters without the blanks at the end. -/
def trimEndChars (s : List Char) : List Char := (s.reverse.dropWhile isBlank).reverse

/-- The characters without the blanks at both ends. -/
def trimChars (s : List Char) : List Char := trimEndChars (s.dropWhile isBlank)

/-- The text without the blanks at its end. -/
def trimEnd (s : String) : String := String.ofList (trimEndChars s.toList)

/-- Whether the characters are all blank. -/
def allBlank (s : List Char) : Bool := s.all isBlank

/-- Splits off words, with `word` the reversed part of the word that is being read. -/
def wordsFrom (word : List Char) : List Char → List (List Char)
  | [] => if word.isEmpty then [] else [word.reverse]
  | c :: rest =>
    if isBlank c then
      if word.isEmpty then wordsFrom [] rest else word.reverse :: wordsFrom [] rest
    else wordsFrom (c :: word) rest

/-- The maximal runs of characters that are not blank. -/
def words (s : String) : List String := (wordsFrom [] s.toList).map String.ofList

end ChipSupport.Text
