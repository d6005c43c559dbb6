import ChipSupport.Text.Column
import ChipSupport.Text.Lines

/-!
# Lines of generated files

A header or script is written as a list of lines.  Definitions and conditionals are kept apart from
other text, so that what a file defines, and where, can be read off its lines.

## Main definitions

* `Line` — the kinds of lines.
* `Line.render` — the text of a line.
* `Line.fileText` — the text of a file.
-/

namespace ChipSupport

/-- A line of a generated file. -/
inductive Line where
  /-- Any other text. -/
  | text (s : String)
  /-- A definition, with its value and a note in two columns. -/
  | define (name : String) (value : String := "") (note : String := "")
  /-- A definition with its value in a column further right. -/
  | defineWide (name value : String)
  /-- The start of a part for the case that a symbol is defined. -/
  | ifDefined (symbol : String)
  /-- The start of a part for the case that a symbol is not defined. -/
  | ifUndefined (symbol : String)
  /-- The start of a part for the case that a condition holds. -/
  | ifHolds (condition : String)
  /-- The start of the part for the opposite case, with the rest of its line. -/
  | otherwise (tail : String := "")
  /-- The end of a part, with the rest of its line. -/
  | endIf (tail : String := "")
  deriving DecidableEq, Repr, Inhabited

namespace Line

/-- The text of a definition: the value at column 44 and the note at column 64, or further right. A
definition without a value has no note. -/
def definition (name value note : String) : String :=
  if value.isEmpty then "#define " ++ name
  else
    let valued := Text.padTo ("#define " ++ name) 44 ++ value
    if note.isEmpty then valued else Text.padTo valued 64 ++ "/* " ++ note ++ " */"

/-- The text of a definition with its value at column 56 or further right. -/
def wideDefinition (name value : String) : String := Text.padTo ("#define " ++ name) 56 ++ value

/-- The text of a line. -/
def render : Line → String
  | .text s => s
  | .define name value note => definition name value note
  | .defineWide name value => wideDefinition name value
  | .ifDefined symbol => "#ifdef " ++ symbol
  | .ifUndefined symbol => "#ifndef " ++ symbol
  | .ifHolds condition => "#if " ++ condition
  | .otherwise tail => "#else" ++ tail
  | .endIf tail => "#endif" ++ tail

/-- An empty line. -/
def blank : Line := .text ""

/-- The start of a part that only compilers read. -/
def compilerOnly : Line := .ifUndefined "__ASSEMBLER__"

/-- The end of a part that only compilers read. -/
def endCompilerOnly : Line := .endIf " /* ifndef __ASSEMBLER__ */"

/-- The start of a part that only assemblers read. -/
def assemblerOnly : Line := .ifDefined "__ASSEMBLER__"

/-- The end of a part that only assemblers read. -/
def endAssemblerOnly : Line := .endIf " /* ifdef __ASSEMBLER__ */"

/-- A heading. -/
def heading (title : String) : List Line := [.text "/******", .text (" * " ++ title), .text " */"]

/-- The start of declarations with the linkage of C. -/
def openLinkage : List Line :=
  [.ifDefined "__cplusplus", .text "extern \"C\" \x7b", .endIf, blank]

/-- The end of declarations with the linkage of C. -/
def closeLinkage : List Line :=
  [.ifDefined "__cplusplus", .text "\x7d /* extern \"C\" */", .endIf, blank]

/-- The text of a file: every line ends with a line feed. -/
def fileText (lines : List Line) : String := String.intercalate "\n" (lines.map render) ++ "\n"

end Line

end ChipSupport
