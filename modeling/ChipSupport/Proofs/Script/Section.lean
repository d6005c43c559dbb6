import ChipSupport.Script.Text
import Mathlib

/-!
# Sections of a script

A linker reads the sections of a script from its lines.  A section begins with a line that gives its
name and a formula for its address, and ends with a line that names the memory region in which it is
placed.  What the lines in between put into the section is a word for each `LONG`.

## Main definitions

* `Script.placement?`, `Script.placements` — the regions in which sections are placed.
* `Script.OutputSection` — a section.
* `Script.sectionsOf` — the sections that lines describe.

## Main results

* `Script.mem_inserted` — a text that is one line is inserted as it is.
* `Script.placement?_of_inside`, `Script.placement?_of_ends` — what a line says about regions.
* `Script.sectionsFrom_section` — **a section is read from its own lines.**
-/

namespace ChipSupport.Script

/-! ### Inserted lines -/

theorem linesFrom_of_no_end {line cs : List Char} (hcs : cs.any Text.isLineEnd = false)
    (hne : line ≠ [] ∨ cs ≠ []) : Text.linesFrom line cs = [line.reverse ++ cs] := by
  induction cs generalizing line with
  | nil =>
    have hline : line.isEmpty = false := by simpa using hne
    rw [Text.linesFrom, hline, List.append_nil]
    rfl
  | cons c cs ih =>
    rw [List.any_cons, Bool.or_eq_false_iff] at hcs
    rw [Text.linesFrom.eq_def]
    simp only [hcs.1, Bool.false_eq_true, if_false]
    rw [ih hcs.2 (.inl (List.cons_ne_nil c line)), List.reverse_cons, List.append_assoc,
      List.singleton_append]

/-- A text without ends of lines is one line. -/
theorem splitLine_of_no_end {s : String} (h : s.toList.any Text.isLineEnd = false) :
    splitLine s = [s] := by
  by_cases hs : s = ""
  · rw [hs]
    rfl
  · have hne : s.toList ≠ [] := fun hnil => hs (String.toList_inj.mp hnil)
    rw [splitLine, Text.linesOf, linesFrom_of_no_end h (.inr hne), List.reverse_nil,
      List.nil_append, List.map_singleton, String.ofList_toList]

theorem mem_inserted {s : String} (h : s.toList.any Text.isLineEnd = false) {texts : List String}
    (hs : s ∈ texts) : Line.text s ∈ inserted texts := by
  refine List.mem_map_of_mem (List.mem_flatMap.mpr ⟨s, hs, ?_⟩)
  rw [splitLine_of_no_end h]
  exact List.mem_singleton_self s

/-! ### Regions -/

/-- Characters without the blanks in front of them. -/
def skipBlanks (cs : List Char) : List Char := cs.dropWhile (· == ' ')

/-- The region in which the section that ends with a line is placed: the text behind `>`. -/
def regionOf (line : List Char) : Option (List Char) :=
  match skipBlanks line with
  | '\x7d' :: rest =>
    match skipBlanks rest with
    | '>' :: name => some (skipBlanks name)
    | _ => none
  | _ => none

/-- The region in which the section that ends with a line is placed. -/
def placement? (line : String) : Option String := (regionOf line.toList).map String.ofList

/-- The regions in which lines place sections, in order. -/
def placements (lines : List Line) : List String := lines.filterMap fun l => placement? l.render

theorem skipBlanks_of_ne {c : Char} (hc : c ≠ ' ') (cs : List Char) :
    skipBlanks (c :: cs) = c :: cs := by
  rw [skipBlanks, List.dropWhile_cons_of_neg (by simpa using hc)]

@[simp] theorem skipBlanks_blank (cs : List Char) : skipBlanks (' ' :: cs) = skipBlanks cs := rfl

/-- Blanks in front of a text that begins with something else. -/
theorem skipBlanks_append {cs cs' : List Char} {c : Char} (h : skipBlanks cs = c :: cs')
    (rest : List Char) : skipBlanks (cs ++ rest) = c :: (cs' ++ rest) := by
  have hdrop : cs.dropWhile (· == ' ') = c :: cs' := h
  rw [skipBlanks, List.dropWhile_append, hdrop]
  rfl

theorem placements_fixed (texts : List String) :
    placements (fixed texts) = texts.filterMap placement? := by
  rw [placements, fixed, List.filterMap_map]
  rfl

@[simp] theorem placements_nil : placements [] = [] := rfl

@[simp] theorem placements_append (ls ls' : List Line) :
    placements (ls ++ ls') = placements ls ++ placements ls' := List.filterMap_append

theorem placements_fixed_append (texts texts' : List String) :
    placements (fixed (texts ++ texts'))
      = placements (fixed texts) ++ placements (fixed texts') := by
  simp only [placements_fixed, List.filterMap_append]

theorem placements_flatMap {α : Type} (f : α → List String) (xs : List α) :
    placements (fixed (xs.flatMap f)) = xs.flatMap fun x => placements (fixed (f x)) := by
  simp only [placements_fixed, List.filterMap_flatMap]

/-! ### The regions of fixed texts

The regions of a list of texts are read off text by text.  A literal is a text of known characters,
and no more than the first ones tell whether it ends a section. -/

/-- Texts that end no section, because they begin with something else. -/
def Inside (s : String) : Prop := ∃ c cs, skipBlanks s.toList = c :: cs ∧ c ≠ '\x7d'

theorem inside_ofList {c : Char} {cs cs' : List Char} (h : skipBlanks cs = c :: cs')
    (hc : (c == '\x7d') = false) : Inside (String.ofList cs) :=
  ⟨c, cs', by rw [String.toList_ofList, h], ne_of_beq_false hc⟩

theorem Inside.append {s : String} (h : Inside s) (t : String) : Inside (s ++ t) := by
  obtain ⟨c, cs, hcs, hc⟩ := h
  exact ⟨c, cs ++ t.toList, by rw [String.toList_append, skipBlanks_append hcs], hc⟩

theorem placement?_of_inside {line : String} (h : Inside line) : placement? line = none := by
  obtain ⟨c, cs, hcs, hc⟩ := h
  rw [placement?, regionOf, hcs]
  split
  next heq => exact absurd (List.cons.inj heq).1 hc
  next => rfl

/-- Texts that end a section in the region that is named behind them. -/
def Ends (s : String) : Prop :=
  ∃ cs, skipBlanks s.toList = '\x7d' :: cs ∧ (skipBlanks cs = ['>'] ∨ skipBlanks cs = ['>', ' '])

theorem ends_ofList {cs cs' : List Char} (h : skipBlanks cs = '\x7d' :: cs')
    (hend : skipBlanks cs' = ['>'] ∨ skipBlanks cs' = ['>', ' ']) : Ends (String.ofList cs) :=
  ⟨cs', by rw [String.toList_ofList, h], hend⟩

theorem placement?_of_ends {s region : String} (h : Ends s)
    (hregion : skipBlanks region.toList = region.toList) :
    placement? (s ++ region) = some region := by
  obtain ⟨cs, hcs, hend⟩ := h
  have hname : skipBlanks (cs ++ region.toList) = '>' :: region.toList ∨
      skipBlanks (cs ++ region.toList) = '>' :: ' ' :: region.toList := by
    refine hend.imp (fun h => ?_) fun h => ?_ <;> rw [skipBlanks_append h] <;> rfl
  rw [placement?, String.toList_append, regionOf, skipBlanks_append hcs]
  rcases hname with h | h <;>
    simp only [h, skipBlanks_blank, hregion, Option.map_some, String.ofList_toList]

section Texts

variable {line region : String} {rest regions : List String}

theorem filterMap_placement?_none (h : placement? line = none)
    (hrest : rest.filterMap placement? = regions) :
    (line :: rest).filterMap placement? = regions := by
  rw [List.filterMap_cons_none h, hrest]

theorem filterMap_placement?_some (h : placement? line = some region)
    (hrest : rest.filterMap placement? = regions) :
    (line :: rest).filterMap placement? = region :: regions := by
  rw [List.filterMap_cons_some h, hrest]

/-- A text that ends no section, and one that has something else behind it. -/
theorem filterMap_placement?_inside (h : Inside line)
    (hrest : rest.filterMap placement? = regions) :
    (line :: rest).filterMap placement? = regions :=
  filterMap_placement?_none (placement?_of_inside h) hrest

theorem filterMap_placement?_append {s t : String} (h : Inside s)
    (hrest : rest.filterMap placement? = regions) :
    ((s ++ t) :: rest).filterMap placement? = regions :=
  filterMap_placement?_inside (h.append t) hrest

/-- A text that ends a section, with the region behind it or in it. -/
theorem filterMap_placement?_ends {s : String} (h : Ends s)
    (hregion : skipBlanks region.toList = region.toList)
    (hrest : rest.filterMap placement? = regions) :
    ((s ++ region) :: rest).filterMap placement? = region :: regions :=
  filterMap_placement?_some (placement?_of_ends h hregion) hrest

theorem filterMap_placement?_ofList {cs name : List Char} (h : regionOf cs = some name)
    (hrest : rest.filterMap placement? = regions) :
    (String.ofList cs :: rest).filterMap placement? = String.ofList name :: regions :=
  filterMap_placement?_some (by rw [placement?, String.toList_ofList, h, Option.map_some]) hrest

/-- A text without a region, which may be empty or end what is no section. -/
theorem filterMap_placement?_unplaced {cs : List Char} (h : regionOf cs = none)
    (hrest : rest.filterMap placement? = regions) :
    (String.ofList cs :: rest).filterMap placement? = regions :=
  filterMap_placement?_none (by rw [placement?, String.toList_ofList, h, Option.map_none]) hrest

end Texts

/-! ### Sections -/

/-- A section that a script describes. -/
structure OutputSection where
  /-- The name. -/
  name : String
  /-- The formula for the address. -/
  address : String
  /-- The lines that say what is in the section. -/
  contents : List String := []
  /-- The region in which the section is placed. -/
  region : String := ""
  deriving DecidableEq, Repr, Inhabited

namespace OutputSection

/-- Whether a line puts a word into a section. -/
def isWord (line : String) : Bool := "LONG(".toList.isPrefixOf (skipBlanks line.toList)

/-- The number of bytes: four for each word. -/
def size (s : OutputSection) : Int := 4 * (s.contents.filter isWord).length

end OutputSection

/-- The section that begins with a line: a name with a point in front, and a formula up to the colon
that ends the line. -/
def header? (line : String) : Option OutputSection :=
  match skipBlanks line.toList with
  | '.' :: rest =>
    if rest.getLast? = some ':' then
      some { name := String.ofList ('.' :: rest.takeWhile (· != ' '))
             address := String.ofList (rest.dropWhile (· != ' ')).dropLast }
    else none
  | _ => none

/-- The sections that lines describe behind those of a section that has begun, if there is one. -/
def sectionsFrom : Option OutputSection → List String → List OutputSection
  | _, [] => []
  | none, line :: rest => sectionsFrom (header? line) rest
  | some s, line :: rest =>
    match placement? line with
    | some region => { s with region } :: sectionsFrom none rest
    | none => sectionsFrom (some { s with contents := s.contents ++ [line] }) rest

/-- The sections that lines describe, in order. -/
def sectionsOf (lines : List Line) : List OutputSection :=
  sectionsFrom none (lines.map Line.render)

/-- The line of a section whose name has no blank. -/
theorem header?_eq_some {name : String} (hname : ∀ c ∈ name.toList, c ≠ ' ') (address : String) :
    header? ("  ." ++ name ++ " " ++ address ++ ":")
      = some { name := "." ++ name, address := " " ++ address } := by
  have hline : skipBlanks ("  ." ++ name ++ " " ++ address ++ ":").toList
      = '.' :: (name.toList ++ (' ' :: (address.toList ++ [':']))) := by simp [skipBlanks]
  have hall : ∀ c ∈ name.toList, (c != ' ') = true := fun c hc => bne_iff_ne.mpr (hname c hc)
  have hlast : (name.toList ++ (' ' :: (address.toList ++ [':']))).getLast? = some ':' := by
    rw [← List.cons_append, ← List.append_assoc, List.getLast?_concat]
  have htake : (name.toList ++ (' ' :: (address.toList ++ [':']))).takeWhile (· != ' ')
      = name.toList := by
    rw [List.takeWhile_append_of_pos hall, List.takeWhile_cons_of_neg (by decide), List.append_nil]
  have hdrop : ((name.toList ++ (' ' :: (address.toList ++ [':']))).dropWhile (· != ' ')).dropLast
      = ' ' :: address.toList := by
    rw [List.dropWhile_append_of_pos hall, List.dropWhile_cons_of_neg (by decide),
      ← List.cons_append, List.dropLast_concat]
  have hpoint : String.ofList ('.' :: name.toList) = "." ++ name :=
    String.toList_inj.mp (by simp)
  have hblank : String.ofList (' ' :: address.toList) = " " ++ address :=
    String.toList_inj.mp (by simp)
  rw [header?, hline]
  simp only [hlast, if_true, htake, hdrop, hpoint, hblank]

theorem sectionsFrom_none {line : String} (h : header? line = none) (rest : List String) :
    sectionsFrom none (line :: rest) = sectionsFrom none rest := by
  rw [sectionsFrom, h]

theorem sectionsFrom_some {line region : String} (h : placement? line = some region)
    (s : OutputSection) (rest : List String) :
    sectionsFrom (some s) (line :: rest) = { s with region } :: sectionsFrom none rest := by
  rw [sectionsFrom, h]

/-- The lines of a section up to its end belong to it. -/
theorem sectionsFrom_contents {contents : List String}
    (hcontents : ∀ line ∈ contents, placement? line = none) (s : OutputSection)
    (rest : List String) :
    sectionsFrom (some s) (contents ++ rest)
      = sectionsFrom (some { s with contents := s.contents ++ contents }) rest := by
  induction contents generalizing s with
  | nil => rw [List.nil_append, List.append_nil]
  | cons line contents ih =>
    rw [List.forall_mem_cons] at hcontents
    rw [List.cons_append, sectionsFrom, hcontents.1, ih hcontents.2, List.append_assoc,
      List.singleton_append]

/-- **A section is read from its own lines,** whatever stands behind them. -/
theorem sectionsFrom_section {first last region : String} {contents : List String}
    {s : OutputSection} (hfirst : header? first = some s)
    (hcontents : ∀ line ∈ contents, placement? line = none)
    (hlast : placement? last = some region) (rest : List String) :
    sectionsFrom none (first :: (contents ++ last :: rest))
      = { s with contents := s.contents ++ contents, region } :: sectionsFrom none rest := by
  rw [sectionsFrom, hfirst, sectionsFrom_contents hcontents, sectionsFrom_some hlast]

/-- Lines that describe no section. -/
theorem sectionsFrom_of_no_header {lines : List String} (h : ∀ line ∈ lines, header? line = none)
    (rest : List String) : sectionsFrom none (lines ++ rest) = sectionsFrom none rest := by
  induction lines with
  | nil => rfl
  | cons line lines ih =>
    rw [List.forall_mem_cons] at h
    rw [List.cons_append, sectionsFrom_none h.1, ih h.2]

end ChipSupport.Script
