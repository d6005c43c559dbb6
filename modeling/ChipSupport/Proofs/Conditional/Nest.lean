import ChipSupport.Comment
import ChipSupport.Proofs.Layouts.Types
import ChipSupport.Proofs.Text.Lacks

/-!
# Conditional parts of files

A preprocessor reads a file line by line.  It takes a line for a directive if the first character in
it that is not blank is a `#`, and the word behind that says what the line does to the conditional
parts that are open.

## Main definitions

* `Conditional.mark` — what a line does to the conditional parts.
* `Conditional.run` — the parts that are open after some lines, if all of them are in their place.
* `Conditional.WellNested` — texts in which every part that is opened is closed.
* `Conditional.Guarded` — texts in which one part holds everything behind a comment.
* `Conditional.Leads`, `Conditional.Nested` — generated lines, by the same steps.

## Main results

* `Conditional.Leads.run` — **generated lines are read as they are meant.**
* `Conditional.guarded_fileText` — files that hold their lines in one part.
-/

namespace ChipSupport.Conditional

open Text

/-! ### Reading of lines -/

/-- What a line does to the conditional parts that are open. -/
inductive Mark where
  /-- It opens a part. -/
  | opening
  /-- It goes over to the opposite case. -/
  | otherwise
  /-- It closes a part. -/
  | closing
  /-- It goes over to a case of its own. -/
  | alternative
  /-- Nothing. -/
  | neutral
  deriving DecidableEq, Repr

/-- What a directive does, by its word. -/
def Mark.ofWord (word : String) : Mark :=
  if word ∈ ["if", "ifdef", "ifndef"] then opening
  else if word = "else" then otherwise
  else if word = "endif" then closing
  else if word ∈ ["elif", "elifdef", "elifndef"] then alternative
  else neutral

/-- The characters of words. -/
def isWordChar (c : Char) : Bool := c.isAlphanum || c == '_'

/-- What a line does. -/
def mark (line : String) : Mark :=
  match line.toList.dropWhile isBlank with
  | '#' :: rest => .ofWord (String.ofList ((rest.dropWhile isBlank).takeWhile isWordChar))
  | _ => .neutral

/-- The parts that are open after a line, the innermost first, with whether their opposite case has
begun.  There is at most one opposite case in a part, and none of another kind. -/
def step : List Bool → Mark → Option (List Bool)
  | parts, .neutral => some parts
  | parts, .opening => some (false :: parts)
  | false :: parts, .otherwise => some (true :: parts)
  | _ :: parts, .closing => some parts
  | _, _ => none

/-- The parts that are open after lines. -/
def run (parts : List Bool) (lines : List String) : Option (List Bool) :=
  lines.foldlM (fun parts line => step parts (mark line)) parts

/-- Texts in which every part that is opened is closed in its place. -/
def WellNested (text : String) : Prop := run [] (feeds text) = some []

instance (text : String) : Decidable (WellNested text) :=
  inferInstanceAs (Decidable (run [] (feeds text) = some []))

/-- Texts that are one part behind the lines of a comment: the part is opened for the case that a
symbol is not defined, defines it, and is closed by the last line, behind which the text ends.  No
line of the comment does anything. -/
def Guarded (comment : List String) (text : String) : Prop :=
  (∀ line ∈ comment, mark line = .neutral) ∧ ∃ symbol body tail,
    feeds text = comment ++ ("#ifndef " ++ symbol) :: ("#define " ++ symbol) :: body
        ++ ["#endif" ++ tail, ""]
      ∧ run [] body = some [] ∧ mark ("#endif" ++ tail) = .closing

/-! ### Lines without directives -/

/-- Texts that begin with another character than `#`, apart from blanks. -/
def Begins (s : String) : Prop := ∃ c rest, s.toList.dropWhile isBlank = c :: rest ∧ c ≠ '#'

variable {s t : String}

theorem begins_iff : Begins s ↔ (s.toList.dropWhile isBlank).head?.any (· != '#') = true := by
  rw [Begins, Option.any_eq_true]
  constructor
  · rintro ⟨c, rest, hdrop, hc⟩
    exact ⟨c, by rw [hdrop]; rfl, bne_iff_ne.mpr hc⟩
  · rintro ⟨c, hhead, hc⟩
    obtain ⟨rest, hdrop⟩ := List.head?_eq_some_iff.mp hhead
    exact ⟨c, rest, hdrop, bne_iff_ne.mp hc⟩

instance (s : String) : Decidable (Begins s) := decidable_of_iff' _ begins_iff

@[simp] theorem Begins.append (h : Begins s) (t : String) : Begins (s ++ t) := by
  obtain ⟨c, rest, hdrop, hc⟩ := h
  refine ⟨c, rest ++ t.toList, ?_, hc⟩
  have hne : (s.toList.dropWhile isBlank).isEmpty = false := by rw [hdrop]; rfl
  rw [String.toList_append, List.dropWhile_append, hne, hdrop]
  rfl

theorem Begins.of_prefix (h : Begins s) (hbegins : s.toList <+: t.toList) : Begins t := by
  obtain ⟨rest, hrest⟩ := hbegins
  have ht : s ++ String.ofList rest = t := by
    rw [← String.toList_inj, String.toList_append, String.toList_ofList, hrest]
  exact ht ▸ h.append (String.ofList rest)

@[simp] theorem Begins.padTo (h : Begins s) (column : Int) : Begins (padTo s column) :=
  h.of_prefix (prefix_padTo s column)

theorem mark_of_begins (h : Begins s) : mark s = .neutral := by
  obtain ⟨c, rest, hdrop, hc⟩ := h
  rw [mark, hdrop]
  split
  · next hhash => exact absurd (List.cons.inj hhash).1 hc
  · rfl

/-- A text without `#` in front does not change how a text begins. -/
theorem begins_append_of_lacks (hs : Lacks '#' s) (h : Begins t) : Begins (s ++ t) := by
  by_cases hblank : (s.toList.dropWhile isBlank) = []
  · obtain ⟨c, rest, hdrop, hc⟩ := h
    refine ⟨c, rest, ?_, hc⟩
    rw [String.toList_append, List.dropWhile_append, hblank]
    exact hdrop
  · obtain ⟨c, rest, hdrop⟩ := List.exists_cons_of_ne_nil hblank
    have hmem : c ∈ s.toList := (List.dropWhile_sublist _).subset (hdrop ▸ List.mem_cons_self)
    refine Begins.append ⟨c, rest, hdrop, ?_⟩ t
    rintro rfl
    exact hs hmem

theorem mark_of_lacks (h : Lacks '#' s) : mark s = .neutral := by
  rw [mark]
  split
  · next rest hdrop =>
    exact absurd ((List.dropWhile_sublist _).subset (hdrop ▸ List.mem_cons_self)) h
  · rfl

/-! ### Directives -/

theorem mark_ifdef (symbol : String) : mark ("#ifdef " ++ symbol) = .opening := by
  rw [mark, String.toList_append]
  rfl

theorem mark_ifndef (symbol : String) : mark ("#ifndef " ++ symbol) = .opening := by
  rw [mark, String.toList_append]
  rfl

theorem mark_if (condition : String) : mark ("#if " ++ condition) = .opening := by
  rw [mark, String.toList_append]
  rfl

theorem mark_define (h : "#define ".toList <+: s.toList) : mark s = .neutral := by
  obtain ⟨rest, hrest⟩ := h
  rw [mark, ← hrest]
  rfl

theorem mark_include (h : "#include ".toList <+: s.toList) : mark s = .neutral := by
  obtain ⟨rest, hrest⟩ := h
  rw [mark, ← hrest]
  rfl

/-- What may stand behind the word of a directive. -/
def IsTail (tail : String) : Prop := ∀ c ∈ tail.toList.head?, isWordChar c = false

instance (tail : String) : Decidable (IsTail tail) :=
  decidable_of_iff ((tail.toList.head?.all fun c => !isWordChar c) = true) 
    (by simp [IsTail, Option.all_eq_true])

theorem IsTail.append {tail : String} (h : IsTail tail) (hne : tail.toList ≠ []) (s : String) :
    IsTail (tail ++ s) := by
  intro c hc
  rw [String.toList_append, List.head?_append_of_ne_nil _ hne] at hc
  exact h c hc

theorem isTail_enclosed {start : String} (h : IsTail start) (hne : start.toList ≠ [])
    (s stop : String) : IsTail (start ++ s ++ stop) := by
  rw [String.append_assoc]
  exact h.append hne (s ++ stop)

theorem takeWhile_isWordChar {word : List Char} {tail : String}
    (hword : word.all isWordChar = true) (h : IsTail tail) :
    (word ++ tail.toList).takeWhile isWordChar = word := by
  rw [List.takeWhile_append_of_pos (List.all_eq_true.mp hword)]
  cases htail : tail.toList with
  | nil => exact List.append_nil _
  | cons c rest =>
    have hc : isWordChar c = false := h c (by rw [htail]; rfl)
    rw [List.takeWhile_cons_of_neg (by simp [hc]), List.append_nil]

/-- A directive does what its word says, whatever is behind it. -/
theorem mark_directive {directive tail : String} {c : Char} {word : List Char}
    (hdirective : directive.toList = '#' :: c :: word) (hc : isBlank c = false)
    (hword : (c :: word).all isWordChar = true) (h : IsTail tail) :
    mark (directive ++ tail) = .ofWord (String.ofList (c :: word)) := by
  have hhash : (directive ++ tail).toList.dropWhile isBlank
      = '#' :: ((c :: word) ++ tail.toList) := by
    rw [String.toList_append, hdirective]
    rfl
  have hdrop : ((c :: word) ++ tail.toList).dropWhile isBlank = (c :: word) ++ tail.toList := by
    rw [List.cons_append, List.dropWhile_cons_of_neg (by simp [hc])]
  rw [mark, hhash]
  change Mark.ofWord (String.ofList ((((c :: word) ++ tail.toList).dropWhile isBlank).takeWhile
    isWordChar)) = _
  rw [hdrop, takeWhile_isWordChar hword h]

theorem mark_else {tail : String} (h : IsTail tail) : mark ("#else" ++ tail) = .otherwise := by
  have hdirective : "#else".toList = ['#', 'e', 'l', 's', 'e'] := rfl
  exact mark_directive hdirective (by decide) (by decide) h

theorem mark_endif {tail : String} (h : IsTail tail) : mark ("#endif" ++ tail) = .closing := by
  have hdirective : "#endif".toList = ['#', 'e', 'n', 'd', 'i', 'f'] := rfl
  exact mark_directive hdirective (by decide) (by decide) h

/-! ### Lines one after the other -/

section Run

variable {parts later outer : List Bool}

theorem run_cons (line : String) (lines : List String) :
    run parts (line :: lines) = (step parts (mark line)).bind fun parts => run parts lines := by
  rw [run, List.foldlM_cons]
  rfl

theorem run_append (lines lines' : List String) :
    run parts (lines ++ lines') = (run parts lines).bind fun parts => run parts lines' := by
  rw [run, List.foldlM_append]
  rfl

theorem run_neutral {lines : List String} (h : ∀ line ∈ lines, mark line = .neutral) :
    run parts lines = some parts := by
  induction lines with
  | nil => rfl
  | cons line lines ih =>
    rw [List.forall_mem_cons] at h
    rw [run_cons, h.1]
    exact ih h.2

/-- A step leaves the parts around the open ones as they are. -/
theorem step_append {m : Mark} (h : step parts m = some later) (outer : List Bool) :
    step (parts ++ outer) m = some (later ++ outer) := by
  cases m with
  | neutral | opening =>
    cases h
    rfl
  | alternative => cases parts <;> cases h
  | otherwise =>
    cases parts with
    | nil => cases h
    | cons part parts =>
      cases part <;> cases h
      rfl
  | closing =>
    cases parts <;> cases h
    rfl

/-- Lines leave the parts around the open ones as they are. -/
theorem run_append_outer {lines : List String} (h : run parts lines = some later)
    (outer : List Bool) : run (parts ++ outer) lines = some (later ++ outer) := by
  induction lines generalizing parts with
  | nil =>
    cases h
    rfl
  | cons line lines ih =>
    rw [run_cons] at h ⊢
    obtain ⟨next, hnext, h⟩ := Option.bind_eq_some_iff.mp h
    rw [step_append hnext outer]
    exact ih h

end Run

/-- Guarded texts are nested well. -/
theorem Guarded.wellNested {comment : List String} {text : String} (h : Guarded comment text) :
    WellNested text := by
  obtain ⟨hcomment, symbol, body, tail, htext, hbody, htail⟩ := h
  have hdefine : mark ("#define " ++ symbol) = .neutral := mark_define (prefix_append _ _)
  -- what is nested well by itself is so in the part that is open
  have hpart : run [false] body = some [false] := run_append_outer hbody [false]
  rw [WellNested, htext, List.append_assoc, run_append, run_neutral hcomment, Option.bind_some,
    List.cons_append, run_cons, mark_ifndef]
  change run [false] (_ :: (body ++ _)) = _
  rw [run_cons, hdefine]
  change run [false] (body ++ _) = _
  rw [run_append, hpart, Option.bind_some, run_cons, htail]
  rfl

/-! ### Generated lines -/

/-- Lines that open and close nothing, and are one line each. -/
def Plain : Line → Prop
  | .text s => Lacks '\n' s ∧ mark s = .neutral
  | .define name value note => Lacks '\n' name ∧ Lacks '\n' value ∧ Lacks '\n' note
  | .defineWide name value => Lacks '\n' name ∧ Lacks '\n' value
  | _ => False

instance : DecidablePred Plain
  | .text s => inferInstanceAs (Decidable (Lacks '\n' s ∧ mark s = .neutral))
  | .define name value note =>
    inferInstanceAs (Decidable (Lacks '\n' name ∧ Lacks '\n' value ∧ Lacks '\n' note))
  | .defineWide name value => inferInstanceAs (Decidable (Lacks '\n' name ∧ Lacks '\n' value))
  | .ifDefined _ | .ifUndefined _ | .ifHolds _ | .otherwise _ | .endIf _ =>
    inferInstanceAs (Decidable False)

theorem plain_text (h : Lacks '\n' s) (hbegins : Begins s) : Plain (.text s) :=
  ⟨h, mark_of_begins hbegins⟩

theorem plain_include (h : Lacks '\n' s) (hinclude : "#include ".toList <+: s.toList) :
    Plain (.text s) :=
  ⟨h, mark_include hinclude⟩

/-- Lines that open a part. -/
def Opens : Line → Prop
  | .ifDefined s | .ifUndefined s | .ifHolds s => Lacks '\n' s
  | _ => False

instance : DecidablePred Opens
  | .ifDefined s | .ifUndefined s | .ifHolds s => inferInstanceAs (Decidable (Lacks '\n' s))
  | .text _ | .define _ _ _ | .defineWide _ _ | .otherwise _ | .endIf _ =>
    inferInstanceAs (Decidable False)

/-- Lines that lead from open parts to open parts, each of them as it is meant. -/
inductive Leads : List Bool → List Line → List Bool → Prop
  | nil (parts : List Bool) : Leads parts [] parts
  | plain {l : Line} {parts later : List Bool} {ls : List Line} :
      Plain l → Leads parts ls later → Leads parts (l :: ls) later
  | opening {l : Line} {parts later : List Bool} {ls : List Line} :
      Opens l → Leads (false :: parts) ls later → Leads parts (l :: ls) later
  | otherwise {tail : String} {parts later : List Bool} {ls : List Line} :
      Lacks '\n' tail → IsTail tail → Leads (true :: parts) ls later →
      Leads (false :: parts) (.otherwise tail :: ls) later
  | closing {tail : String} {part : Bool} {parts later : List Bool} {ls : List Line} :
      Lacks '\n' tail → IsTail tail → Leads parts ls later →
      Leads (part :: parts) (.endIf tail :: ls) later

/-- Lines that close every part that they open, and no other one. -/
def Nested (ls : List Line) : Prop := ∀ parts, Leads parts ls parts

theorem mark_definition (name value note : String) :
    mark (Line.definition name value note) = .neutral := by
  have hstart : "#define ".toList <+: ("#define " ++ name).toList := prefix_append _ _
  have hvalued (s : String) : "#define ".toList <+: (padTo ("#define " ++ name) 44 ++ s).toList :=
    hstart.trans ((prefix_padTo _ _).trans (prefix_append _ _))
  unfold Line.definition
  split
  · exact mark_define hstart
  · dsimp only
    split
    · exact mark_define (hvalued value)
    · refine mark_define (((hvalued value).trans (prefix_padTo _ 64)).trans ?_)
      exact (prefix_append _ _).trans ((prefix_append _ _).trans (prefix_append _ _))

theorem mark_wideDefinition (name value : String) :
    mark (Line.wideDefinition name value) = .neutral :=
  mark_define ((prefix_append _ _).trans ((prefix_padTo _ _).trans (prefix_append _ _)))

theorem Plain.mark {l : Line} (h : Plain l) : mark l.render = .neutral := by
  cases l with
  | text s => exact h.2
  | define name value note => exact mark_definition name value note
  | defineWide name value => exact mark_wideDefinition name value
  | _ => exact h.elim

theorem Plain.lacks {l : Line} (h : Plain l) : Lacks '\n' l.render := by
  cases l with
  | text s => exact h.1
  | define name value note =>
    obtain ⟨hname, hvalue, hnote⟩ := h
    rw [Line.render, Line.definition]
    split
    · simp +decide [hname]
    · split <;> simp +decide [hname, hvalue, hnote]
  | defineWide name value =>
    obtain ⟨hname, hvalue⟩ := h
    simp +decide [Line.render, Line.wideDefinition, hname, hvalue]
  | _ => exact h.elim

theorem Opens.mark {l : Line} (h : Opens l) : Conditional.mark l.render = .opening := by
  cases l with
  | ifDefined s => exact mark_ifdef s
  | ifUndefined s => exact mark_ifndef s
  | ifHolds s => exact mark_if s
  | _ => exact h.elim

theorem Opens.lacks {l : Line} (h : Opens l) : Lacks '\n' l.render := by
  cases l with
  | ifDefined s | ifUndefined s | ifHolds s =>
    exact lacks_append.mpr ⟨by decide, h⟩
  | _ => exact h.elim

section Leads

variable {parts later last : List Bool} {ls ms : List Line}

theorem Leads.append (hls : Leads parts ls later) (hms : Leads later ms last) :
    Leads parts (ls ++ ms) last := by
  -- over the steps of the first lines, from any parts that are open in front of them
  induction hls with
  | nil => exact hms
  | plain hl _ ih => exact .plain hl (ih hms)
  | opening hl _ ih => exact .opening hl (ih hms)
  | otherwise hfeed htail _ ih => exact .otherwise hfeed htail (ih hms)
  | closing hfeed htail _ ih => exact .closing hfeed htail (ih hms)

/-- No generated line is broken. -/
theorem Leads.lacks (h : Leads parts ls later) : ∀ l ∈ ls, Lacks '\n' l.render := by
  induction h with
  | nil => exact List.forall_mem_nil _
  | plain hl _ ih => exact List.forall_mem_cons.mpr ⟨hl.lacks, ih⟩
  | opening hl _ ih => exact List.forall_mem_cons.mpr ⟨hl.lacks, ih⟩
  | otherwise hfeed _ _ ih | closing hfeed _ _ ih =>
    exact List.forall_mem_cons.mpr ⟨lacks_append.mpr ⟨by decide, hfeed⟩, ih⟩

/-- **Generated lines are read as they are meant:** they lead the reader from the same open parts to
the same open parts. -/
theorem Leads.run (h : Leads parts ls later) :
    Conditional.run parts (ls.map Line.render) = some later := by
  induction h with
  | nil => rfl
  | plain hl _ ih => rw [List.map_cons, run_cons, hl.mark]; exact ih
  | opening hl _ ih => rw [List.map_cons, run_cons, hl.mark]; exact ih
  | otherwise _ htail _ ih => rw [List.map_cons, run_cons, Line.render, mark_else htail]; exact ih
  | closing _ htail _ ih => rw [List.map_cons, run_cons, Line.render, mark_endif htail]; exact ih

end Leads

section Nested

variable {ls ms : List Line}

theorem Nested.nil : Nested [] := Leads.nil

theorem Nested.append (hls : Nested ls) (hms : Nested ms) : Nested (ls ++ ms) :=
  fun parts => (hls parts).append (hms parts)

theorem Nested.cons {l : Line} (hl : Plain l) (hls : Nested ls) : Nested (l :: ls) :=
  fun parts => .plain hl (hls parts)

theorem Nested.of_plain (h : ∀ l ∈ ls, Plain l) : Nested ls := by
  induction ls with
  | nil => exact .nil
  | cons l ls ih =>
    rw [List.forall_mem_cons] at h
    exact .cons h.1 (ih h.2)

theorem Nested.flatten {blocks : List (List Line)} (h : ∀ block ∈ blocks, Nested block) :
    Nested blocks.flatten := by
  induction blocks with
  | nil => exact .nil
  | cons block blocks ih =>
    rw [List.forall_mem_cons] at h
    exact h.1.append (ih h.2)

theorem Nested.flatMap {α : Type} {xs : List α} {f : α → List Line} (h : ∀ x ∈ xs, Nested (f x)) :
    Nested (xs.flatMap f) := by
  rw [List.flatMap_def]
  exact .flatten (List.forall_mem_map.mpr h)

theorem Nested.map {α : Type} {xs : List α} {f : α → Line} (h : ∀ x ∈ xs, Plain (f x)) :
    Nested (xs.map f) :=
  .of_plain (List.forall_mem_map.mpr h)

/-- A part around lines. -/
theorem Nested.part {l : Line} {tail : String} (hl : Opens l) (hls : Nested ls)
    (hfeed : Lacks '\n' tail) (htail : IsTail tail) : Nested (l :: ls ++ [.endIf tail]) :=
  fun parts => .opening hl ((hls _).append (.closing hfeed htail (.nil parts)))

/-- A part around lines and those for the opposite case, in front of other lines. -/
theorem Nested.cases {l : Line} {middle tail : String} {rest : List Line} (hl : Opens l)
    (hls : Nested ls) (hfeed : Lacks '\n' middle) (hmiddle : IsTail middle) (hms : Nested ms)
    (hfeed' : Lacks '\n' tail) (htail : IsTail tail) (hrest : Nested rest) :
    Nested ([l] ++ ls ++ [.otherwise middle] ++ ms ++ .endIf tail :: rest) := by
  intro parts
  have hopen : Leads parts [l] (false :: parts) := .opening hl (.nil _)
  have helse : Leads (false :: parts) [.otherwise middle] (true :: parts) :=
    .otherwise hfeed hmiddle (.nil _)
  have hclose : Leads (true :: parts) (.endIf tail :: rest) parts :=
    .closing hfeed' htail (hrest parts)
  exact (((hopen.append (hls _)).append helse).append (hms _)).append hclose

end Nested

/-! ### Files -/

/-- Texts without line feeds are the pieces of what they make up with line feeds. -/
theorem splitFrom_intercalate {ss : List String} (hne : ss ≠ []) (h : ∀ s ∈ ss, Lacks '\n' s) :
    splitFrom '\n' [] (String.intercalate "\n" ss ++ "\n").toList
      = ss.map String.toList ++ [[]] := by
  induction ss with
  | nil => exact absurd rfl hne
  | cons s ss ih =>
    rw [List.forall_mem_cons] at h
    cases ss with
    | nil =>
      rw [String.toList_append]
      exact splitFrom_append [] h.1 []
    | cons t ss =>
      rw [String.intercalate_cons_of_ne_nil (List.cons_ne_nil t ss), String.append_assoc,
        String.append_assoc, String.toList_append, String.toList_append]
      refine (splitFrom_append [] h.1 _).trans ?_
      exact congrArg (s.toList :: ·) (ih (List.cons_ne_nil t ss) h.2)

/-- The lines of a file are those that it was made of, and an empty one after the last line feed. -/
theorem feeds_fileText {ls : List Line} (hne : ls ≠ []) (h : ∀ l ∈ ls, Lacks '\n' l.render) :
    feeds (Line.fileText ls) = ls.map Line.render ++ [""] := by
  have hsplit := splitFrom_intercalate (List.map_eq_nil_iff.not.mpr hne) (List.forall_mem_map.mpr h)
  rw [feeds, split, Line.fileText, hsplit]
  simp

/-- A comment, a part that holds everything, and nothing else. -/
theorem guarded_fileText {comment body : List Line} {symbol tail : String}
    (hcomment : ∀ l ∈ comment, Plain l) (hsymbol : Lacks '\n' symbol) (hbody : Nested body)
    (hfeed : Lacks '\n' tail) (htail : IsTail tail) :
    Guarded (comment.map Line.render) (Line.fileText
      (comment ++ [.ifUndefined symbol, .define symbol] ++ body ++ [.endIf tail])) := by
  have hall :
      Nested (comment ++ [.ifUndefined symbol, .define symbol] ++ body ++ [.endIf tail]) := by
    have hdefine : Plain (.define symbol) := ⟨hsymbol, by decide, by decide⟩
    have hpart : Nested (.ifUndefined symbol :: (.define symbol :: body) ++ [.endIf tail]) :=
      .part hsymbol (.cons hdefine hbody) hfeed htail
    rw [List.append_assoc, List.append_assoc]
    exact (Nested.of_plain hcomment).append hpart
  refine ⟨List.forall_mem_map.mpr fun l hl => (hcomment l hl).mark,
    symbol, body.map Line.render, tail, ?_, (hbody []).run, mark_endif htail⟩
  rw [feeds_fileText (by simp) (hall []).lacks]
  simp [Line.render, Line.definition]

end ChipSupport.Conditional
