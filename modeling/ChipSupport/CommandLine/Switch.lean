import ChipSupport.Text.Digit

/-!
# Switches and operands

A command line is a list of words.  Words that begin with a hyphen are switches, which may take a
value, and the other words are operands.  Long switches may be abbreviated as long as they stay
unambiguous, and a value may follow in the next word or, after an equals sign, in the same one.
Short switches may share a word, in which an equals sign may stand after the first one.  After a
word of two hyphens all words are operands.

## Main definitions

* `Switch`, `Mark` — the switches that a command knows, and what a word is to it.
* `markAll` — what each of several words is.
* `Scan.run` — the switches with their values, and the operands.
-/

namespace ChipSupport.CommandLine

/-- How a command line ends without a run. -/
inductive Ending where
  /-- The usage was asked for. -/
  | help
  /-- The words do not fit the usage. -/
  | misuse
  deriving DecidableEq, Repr, Inhabited

/-- What a switch sets. -/
inductive Key where
  /-- The request for the usage. -/
  | help
  /-- The output directory. -/
  | output
  /-- Whether to say more. -/
  | verbose
  /-- Whether to say less. -/
  | quiet
  /-- The directory of device documents. -/
  | packs
  /-- The style of headers. -/
  | style
  /-- The style file. -/
  | styleFile
  /-- The directory of device descriptions. -/
  | deviceDb
  /-- Whether to write linker scripts. -/
  | linker
  deriving DecidableEq, Repr, Inhabited

/-- A switch. -/
structure Switch where
  /-- What it sets. -/
  key : Key
  /-- Its spellings. -/
  spellings : List String
  /-- Whether it takes a value. -/
  takesValue : Bool := false
  /-- The values that it takes; any value if there are none. -/
  choices : List String := []
  deriving Repr, Inhabited

/-- What a word is. -/
inductive Mark where
  /-- An operand. -/
  | operand
  /-- The word after which all words are operands. -/
  | separator
  /-- A switch in one of its spellings, with what follows in the word, without an equals sign after
  the spelling. -/
  | switch (s : Switch) (spelling : List Char) (tail : Option (List Char))
  /-- A switch that the command does not know. -/
  | unknown
  deriving Repr

/-- The spellings that a command knows. -/
def spellings (switches : List Switch) : List (List Char × Switch) :=
  switches.flatMap fun s => s.spellings.map fun t => (t.toList, s)

/-- A word at its first equals sign. -/
def splitEquals (word : List Char) : Option (List Char × List Char) :=
  match word.dropWhile (· != '=') with
  | _ :: value => some (word.takeWhile (· != '='), value)
  | [] => none

/-- The switches that a word may abbreviate. -/
def candidates (switches : List Switch) (word : List Char) : List Mark :=
  match word with
  | '-' :: '-' :: _ =>
    let (start, value) := match splitEquals word with
      | some (start, value) => (start, some value)
      | none => (word, none)
    (spellings switches).filterMap fun s =>
      if start.isPrefixOf s.1 then some (.switch s.2 s.1 value) else none
  | '-' :: c :: value =>
    (spellings switches).filterMap fun s =>
      if s.1 = ['-', c] then some (.switch s.2 s.1 (some value))
      else if word.isPrefixOf s.1 then some (.switch s.2 s.1 none)
      else none
  | _ => []

/-- Whether a word is a negative number: digits, possibly with a point before the last of them. -/
def isNegativeNumber (word : List Char) : Bool :=
  match word with
  | '-' :: rest =>
    let rest := match rest.reverse with
      | '\n' :: front => front.reverse
      | _ => rest
    match rest.dropWhile Text.isDecimal with
    | [] => !rest.isEmpty
    | '.' :: fraction => !fraction.isEmpty && fraction.all Text.isDecimal
    | _ => false
  | _ => false

/-- What a word is. -/
def mark (switches : List Switch) (word : List Char) : Except Ending Mark :=
  match word with
  | '-' :: _ :: _ =>
    match (spellings switches).lookup word with
    | some s => .ok (.switch s word none)
    | none =>
      let withValue := (splitEquals word).bind fun p =>
        ((spellings switches).lookup p.1).map fun s => Mark.switch s p.1 (some p.2)
      match withValue with
      | some m => .ok m
      | none =>
        match candidates switches word with
        | [m] => .ok m
        | _ :: _ => .error .misuse
        | [] => .ok (if isNegativeNumber word || word.contains ' ' then .operand else .unknown)
  | _ => .ok .operand

/-- What each of several words is. -/
def markAll (switches : List Switch) : List String → Except Ending (List (String × Mark))
  | [] => .ok []
  | word :: rest =>
    if word = "--" then .ok ((word, .separator) :: rest.map fun w => (w, .operand))
    else do
      let m ← mark switches word.toList
      let others ← markAll switches rest
      return (word, m) :: others

/-- Which words make up the operands of a command. -/
inductive Extent where
  /-- The first operand and all words after it. -/
  | everything
  /-- The first operand and the operands right after it. -/
  | oneRun
  deriving DecidableEq, Repr

/-- What was found in a command line. -/
structure Scan where
  /-- The switches with their values, in order. -/
  settings : List (Key × String) := []
  /-- The operands, if there are any. -/
  operands : Option (List String) := none
  /-- Whether there are words that do not belong to anything. -/
  surplus : Bool := false
  deriving Repr, Inhabited

namespace Scan

/-- The scan with one more switch. -/
def set (scan : Scan) (s : Switch) (value : String) : Except Ending Scan :=
  if s.key = .help then .error .help
  else if s.takesValue && !s.choices.isEmpty && !s.choices.contains value then .error .misuse
  else .ok { scan with settings := scan.settings ++ [(s.key, value)] }

/-- The switches of one word. -/
structure Word where
  /-- The switches with their values. -/
  found : List (Switch × String)
  /-- Whether the next word is the value of the last switch. -/
  usesNext : Bool := false

/-- A switch with nothing after it in its word.  The next word may be its value. -/
def Word.alone (next : Option String) (s : Switch) : Except Ending Word :=
  if s.takesValue then
    match next with
    | some value => .ok { found := [(s, value)], usesNext := true }
    | none => .error .misuse
  else .ok { found := [(s, "")] }

/-- A word with one more switch in front. -/
def Word.after (s : Switch) (w : Word) : Word := { w with found := (s, "") :: w.found }

/-- The switches of a word from a switch on, with what follows in the word.  That is the value of
the switch if it takes one, and other switches if it is a short one. -/
def Word.read (switches : List Switch) (next : Option String) (s : Switch) (short : Bool) :
    List Char → Except Ending Word
  | [] => Word.alone next s
  | c :: rest =>
    if s.takesValue then .ok { found := [(s, String.ofList (c :: rest))] }
    else if !short then .error .misuse
    else match (spellings switches).lookup ['-', c] with
      | none => .error .misuse
      | some following => (Word.read switches next following short rest).map (Word.after s)

/-- The switches of a word that begins with one.  A switch that takes no value cannot be followed by
an empty one. -/
def Word.ofMark (switches : List Switch) (next : Option String) (s : Switch)
    (spelling : List Char) (tail : Option (List Char)) : Except Ending Word :=
  match tail with
  | none => Word.alone next s
  | some [] => if s.takesValue then .ok { found := [(s, "")] } else .error .misuse
  | some tail => Word.read switches next s (!(['-', '-'].isPrefixOf spelling)) tail

/-- The word after a switch, if the switch can take it as its value. -/
def nextOperand : List (String × Mark) → Option String
  | (word, .operand) :: _ => some word
  | _ => none

/-- Whether a word is an operand or the separator. -/
def isOperand (w : String × Mark) : Bool :=
  match w.2 with
  | .operand | .separator => true
  | _ => false

/-- Whether operands begin with words: with an operand, or with one after the separator. -/
def beginsOperands (words : List (String × Mark)) : Bool :=
  match words with
  | (_, .operand) :: _ => true
  | (_, .separator) :: _ :: _ => true
  | _ => false

/-- What is found in marked words. -/
def run (switches : List Switch) (extent : Extent) (scan : Scan) :
    List (String × Mark) → Except Ending Scan
  | [] => .ok scan
  | (_, .unknown) :: rest => run switches extent { scan with surplus := true } rest
  | (_, .switch s spelling tail) :: rest => do
    let word ← Word.ofMark switches (nextOperand rest) s spelling tail
    let scan ← word.found.foldlM (fun scan f => scan.set f.1 f.2) scan
    run switches extent scan (if word.usesNext then rest.drop 1 else rest)
  | (word, m) :: rest =>
    if scan.operands.isNone && beginsOperands ((word, m) :: rest) then
      match extent with
      | .everything => .ok { scan with operands := some (word :: rest.map Prod.fst) }
      | .oneRun =>
        run switches extent
          { scan with operands := some (word :: (rest.takeWhile isOperand).map Prod.fst) }
          (rest.dropWhile isOperand)
    else run switches extent { scan with surplus := true } rest
termination_by words => words.length
decreasing_by
  · exact Nat.lt_succ_self _
  · split
    · simp only [List.length_drop, List.length_cons]
      omega
    · exact Nat.lt_succ_self _
  · have := (List.dropWhile_sublist isOperand (l := rest)).length_le
    simp only [List.length_cons]
    omega
  · simp

/-- What is found in words. -/
def ofWords (switches : List Switch) (extent : Extent) (words : List String) :
    Except Ending Scan := do
  run switches extent {} (← markAll switches words)

/-- The operands without the first separator. -/
def plainOperands (scan : Scan) : List String := (scan.operands.getD []).erase "--"

/-- Whether a switch was given. -/
def has (scan : Scan) (key : Key) : Bool := scan.settings.any fun s => s.1 == key

/-- The last value of a switch. -/
def value? (scan : Scan) (key : Key) : Option String := (scan.settings.reverse).lookup key

end Scan

end ChipSupport.CommandLine
