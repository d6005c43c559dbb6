import ChipSupport.Markup.Character

/-!
# Marks of declarations

A declaration in a document type is a sequence of marks: names, texts in quotes, and the characters
that group and end them.  Space may stand between marks, and has to after a name or text unless a
mark that ends it follows.

## Main definitions

* `Mark` — the marks.
* `Mark.read?` — the mark at the start of a text.
* `marks` — the marks up to the end of a declaration.
-/

namespace ChipSupport.Markup

/-- A mark of a declaration. -/
inductive Mark where
  /-- A name. -/
  | name (s : List Char)
  /-- A word that is no name because of its first character. -/
  | word (s : List Char)
  /-- A name that is followed by the number of its occurrences. -/
  | counted (s : List Char)
  /-- A name after a number sign. -/
  | keyword (s : List Char)
  /-- A text in quotes. -/
  | literal (s : List Char)
  /-- A percent sign. -/
  | percent
  /-- The start of a group. -/
  | opening
  /-- The end of a group, with the sign for the number of its occurrences. -/
  | closing (count : Option Char)
  /-- A comma. -/
  | comma
  /-- A bar. -/
  | bar
  /-- The start of the declarations of a document type. -/
  | bracket
  /-- The end of a declaration. -/
  | stop
  deriving DecidableEq, Repr

namespace Mark

/-- Whether a text is at its end, or goes on with space or one of the characters given. -/
def endsBefore (ends : List Char) : List Char → Bool
  | [] => true
  | c :: _ => isSpace c || ends.contains c

/-- The signs for the number of occurrences. -/
def isCount (c : Char) : Bool := c == '?' || c == '*' || c == '+'

/-- A name or word, of which the characters are read. -/
def ofName (isName : Bool) (s rest : List Char) : Option (Mark × List Char) :=
  match rest with
  | c :: after =>
    if isCount c then if isName then some (counted s, after) else none
    else if endsBefore ['>', ')', ',', '|', '[', '%'] rest then
      some (if isName then name s else word s, rest)
    else none
  | [] => some (if isName then name s else word s, [])

/-- The end of a group, of which the bracket is read. -/
def ofClosing (s : List Char) : Option (Mark × List Char) :=
  match s with
  | c :: after =>
    if isCount c then some (closing (some c), after)
    else if endsBefore ['>', ')', ',', '|'] s then some (closing none, s) else none
  | [] => some (closing none, [])

/-- A text in quotes, of which the first quote is read. -/
def ofQuote (quote : Char) (s : List Char) : Option (Mark × List Char) :=
  let body := s.takeWhile (· != quote)
  match s.dropWhile (· != quote) with
  | _ :: after =>
    if body.all isAllowed && endsBefore ['>', '%', '['] after then some (literal body, after)
    else none
  | [] => none

/-- A name after a number sign, which is read. -/
def ofNumberSign (s : List Char) : Option (Mark × List Char) :=
  match readName s with
  | some (n, rest) =>
    if endsBefore [')', '>', '%', '|'] rest then some (keyword n, rest) else none
  | none => none

/-- The mark at the start of a text without space in front, and the rest. -/
def read? : List Char → Option (Mark × List Char)
  | [] => none
  | '"' :: rest => ofQuote '"' rest
  | '\'' :: rest => ofQuote '\'' rest
  | '#' :: rest => ofNumberSign rest
  | '(' :: rest => some (opening, rest)
  | ')' :: rest => ofClosing rest
  | ',' :: rest => some (comma, rest)
  | '|' :: rest => some (bar, rest)
  | '[' :: rest => some (bracket, rest)
  | '>' :: rest => some (stop, rest)
  | '%' :: rest => if endsBefore ['%'] rest then some (percent, rest) else none
  | c :: rest =>
    if isNameChar c then
      ofName (isNameStart c) (c :: rest.takeWhile isNameChar) (rest.dropWhile isNameChar)
    else none

/-- Whether no mark follows in a declaration. -/
def isLast (m : Mark) : Bool := m == stop || m == bracket

end Mark

/-- The marks of a declaration up to its end, and the rest of the text.  Without an end, these are
the marks up to the first character that starts none. -/
def marks (s : List Char) : List Mark × List Char :=
  match Mark.read? (dropSpace s) with
  | none => ([], s)
  | some (m, rest) =>
    if m.isLast then ([m], rest)
    else if _h : rest.length < s.length then
      let (more, rest) := marks rest
      (m :: more, rest)
    else ([m], rest)
termination_by s.length

end ChipSupport.Markup
