import ChipSupport.Text.Printable
import ChipSupport.Text.Numeral

/-!
# Quoted texts

How a text is shown inside a message: between single quotes, or between double quotes when it
holds a single quote and no double one.  The quote in use, the backslash, line ends, tabs and
characters that are not printable are written as escapes.
-/

namespace ChipSupport.Text

/-- A number in base sixteen with small digits, filled with zeros. -/
def hexDigits (n width : Nat) : List Char :=
  let ds := (Numeral.digits 16 n).map Numeral.smallDigitChar
  List.replicate (width - ds.length) '0' ++ ds

/-- A character as it stands between two quotes. -/
def quotedChar (quote c : Char) : List Char :=
  if c = quote ∨ c = '\\' then ['\\', c]
  else if c = '\n' then ['\\', 'n']
  else if c = '\r' then ['\\', 'r']
  else if c = '\t' then ['\\', 't']
  else if isPrintable c then [c]
  else if c.toNat < 0x100 then '\\' :: 'x' :: hexDigits c.toNat 2
  else if c.toNat < 0x10000 then '\\' :: 'u' :: hexDigits c.toNat 4
  else '\\' :: 'U' :: hexDigits c.toNat 8

/-- The quote in which a text is shown. -/
def quoteOf (s : List Char) : Char :=
  if s.contains '\'' && !s.contains '"' then '"' else '\''

/-- A text in quotes. -/
def quoted (s : String) : String :=
  let q := quoteOf s.toList
  String.ofList (q :: (s.toList.flatMap (quotedChar q) ++ [q]))

end ChipSupport.Text
