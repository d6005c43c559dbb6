import ChipSupport.Line
import ChipSupport.Proofs.Comment
import ChipSupport.Proofs.Text.Column
import ChipSupport.Proofs.Text.Integer

/-!
# Definitions are read back

The parts of a definition are kept apart by spaces, whatever their lengths are: a part that does not
end before the column of the next one is followed by the spaces up to the next stop, and a part that
ends at a stop by those up to the stop behind it.  So its name, its value and its comment can be
read from the line, as long as no blank or comment stands in the name and no comment in the value.

## Main definitions

* `Text.Uncommented` — texts in which no comment begins.
* `Text.splitComment` — a text in front of its first comment, and the rest of it.
* `Line.remark` — the comment of a definition.
* `Line.Parts`, `Line.parts?` — the parts of a definition, and how they are read from its line.

## Main results

* `Text.splitComment_append` — a comment begins where none began before.
* `Line.exists_definition_eq` — how a definition is spelled.
* `Line.definition_shows_parts` — **the parts of a definition are read from its line.**
-/

namespace ChipSupport

namespace Text

/-! ### Values -/

/-- What stands between spaces and has no blanks at its ends is left when it is trimmed. -/
theorem trimChars_spacing {s : List Char} (hhead : ∀ c ∈ s.head?, isBlank c = false)
    (hlast : ∀ c ∈ s.getLast?, isBlank c = false) (k l : Nat) :
    trimChars ((spacing k).toList ++ s ++ (spacing l).toList) = s :=
  dropEnds_of_ends isBlank_of_mem_spacing hhead hlast isBlank_of_mem_spacing

/-! ### Comments -/

/-- Texts in which no comment begins. -/
def Uncommented (s : List Char) : Prop := ¬ ['/', '*'] <:+: s

instance (s : List Char) : Decidable (Uncommented s) :=
  inferInstanceAs (Decidable (¬ ['/', '*'] <:+: s))

/-- The characters in front of the first comment, and those from its beginning on. -/
def splitComment : List Char → List Char × List Char
  | [] => ([], [])
  | c :: rest =>
    if ['/', '*'] <+: c :: rest then ([], c :: rest)
    else (c :: (splitComment rest).1, (splitComment rest).2)

theorem Uncommented.tail {c : Char} {s : List Char} (h : Uncommented (c :: s)) : Uncommented s :=
  fun hinfix => h (List.infix_cons hinfix)

/-- What is appended takes part in the beginning of a comment only with a star. -/
theorem prefix_of_prefix_append {c d : Char} {s t : List Char} (hd : d ≠ '*')
    (h : ['/', '*'] <+: c :: (s ++ d :: t)) : ['/', '*'] <+: c :: s := by
  rw [List.cons_prefix_cons] at h ⊢
  refine ⟨h.1, ?_⟩
  cases s with
  | nil => exact absurd (List.cons_prefix_cons.mp h.2).1.symm hd
  | cons b s => exact List.cons_prefix_cons.mpr ⟨(List.cons_prefix_cons.mp h.2).1, List.nil_prefix⟩

/-- No comment begins where a space stands between two texts. -/
theorem Uncommented.append_space {s t : List Char} (hs : Uncommented s) (ht : Uncommented t) :
    Uncommented (s ++ ' ' :: t) := by
  induction s with
  | nil =>
    intro h
    rcases List.infix_cons_iff.mp h with hprefix | hinfix
    · exact absurd (List.cons_prefix_cons.mp hprefix).1 (by decide)
    · exact ht hinfix
  | cons c s ih =>
    intro h
    rcases List.infix_cons_iff.mp h with hprefix | hinfix
    · exact hs (prefix_of_prefix_append (by decide) hprefix).isInfix
    · exact ih hs.tail hinfix

theorem Uncommented.spacing_append {t : List Char} (ht : Uncommented t) (k : Nat) :
    Uncommented ((spacing k).toList ++ t) := by
  induction k with
  | zero => exact ht
  | succ k ih =>
    rw [toList_spacing_succ]
    exact Uncommented.append_space (s := []) (by decide) ih

theorem Uncommented.append_spacing {s : List Char} (hs : Uncommented s) (k : Nat) :
    Uncommented (s ++ (spacing k).toList) := by
  cases k with
  | zero => rwa [toList_spacing_zero, List.append_nil]
  | succ k =>
    rw [toList_spacing_succ]
    have hnil : Uncommented [] := by decide
    have hspaces := hnil.spacing_append k
    rw [List.append_nil] at hspaces
    exact hs.append_space hspaces

theorem splitComment_of_uncommented {s : List Char} (h : Uncommented s) :
    splitComment s = (s, []) := by
  induction s with
  | nil => rfl
  | cons c s ih => rw [splitComment, if_neg fun hprefix => h hprefix.isInfix, ih h.tail]

/-- A comment begins where none began before. -/
theorem splitComment_append {s : List Char} (h : Uncommented s) (rest : List Char) :
    splitComment (s ++ '/' :: '*' :: rest) = (s, '/' :: '*' :: rest) := by
  induction s with
  | nil => rw [List.nil_append, splitComment, if_pos ⟨rest, rfl⟩]
  | cons c s ih =>
    have hc : ¬ ['/', '*'] <+: c :: (s ++ '/' :: '*' :: rest) := fun hprefix =>
      h (prefix_of_prefix_append (by decide) hprefix).isInfix
    rw [List.cons_append, splitComment, if_neg hc, ih h.tail]

end Text

namespace Line

open Text

/-! ### The spelling of a definition -/

/-- The comment of a definition, which an empty note does not give. -/
def remark (note : String) : String := if note.isEmpty then "" else "/* " ++ note ++ " */"

/-- A definition with a value is spelled with at least one space between its parts. -/
theorem exists_definition_eq (name : String) {value : String} (hvalue : value ≠ "")
    (note : String) :
    ∃ k l, 0 < k ∧ (0 < l ↔ note ≠ "") ∧
      definition name value note
        = "#define " ++ name ++ spacing k ++ value ++ spacing l ++ remark note := by
  have hempty : value.isEmpty = false := String.isEmpty_eq_false_iff.mpr hvalue
  obtain ⟨k, hk, hvalued⟩ := exists_padTo_eq ("#define " ++ name) 44
  simp only [definition, hempty, Bool.false_eq_true, if_false, hvalued]
  cases hnote : note.isEmpty with
  | true =>
    have hnone : note = "" := String.isEmpty_iff.mp hnote
    refine ⟨k, 0, hk, by simp [hnone], ?_⟩
    rw [if_pos rfl, remark, hnote, if_pos rfl]
    exact (String.append_empty.trans String.append_empty).symm
  | false =>
    obtain ⟨l, hl, hnoted⟩ := exists_padTo_eq ("#define " ++ name ++ spacing k ++ value) 64
    have hsome : note ≠ "" := String.isEmpty_eq_false_iff.mp hnote
    refine ⟨k, l, hk, by simp [hsome, hl], ?_⟩
    rw [if_neg Bool.false_ne_true, hnoted, remark, hnote, if_neg Bool.false_ne_true]
    simp only [String.append_assoc]

/-- The comment of a definition is the first one, if none begins in front of it. -/
theorem splitComment_remark {s : List Char} (h : Uncommented s) (note : String) :
    splitComment (s ++ (remark note).toList) = (s, (remark note).toList) := by
  rw [remark]
  split
  · rw [String.toList_empty, List.append_nil, splitComment_of_uncommented h]
  · have hbegins : ("/* " ++ note ++ " */").toList
        = '/' :: '*' :: (' ' :: note.toList ++ " */".toList) := by simp
    rw [hbegins, splitComment_append h]

/-! ### Reading a definition -/

/-- The parts of the line of a definition. -/
structure Parts where
  /-- What is defined. -/
  name : String
  /-- What it stands for. -/
  value : String
  /-- The comment at the end of the line, if there is one. -/
  comment : String
  deriving DecidableEq, Repr

/-- The parts of a line that is a definition.  From its first comment on nothing but the comment is
read.  The name ends in front of the first blank, and the value stands between blanks. -/
def parts? (line : String) : Option Parts := do
  let (code, comment) := splitComment line.toList
  let body ← code.dropPrefix? "#define ".toList
  let name := body.takeWhile (!isBlank ·)
  if name.isEmpty then none
  else return ⟨String.ofList name, String.ofList (trimChars (body.drop name.length)),
    String.ofList comment⟩

/-- What stands behind the name is read as the value, without the blanks around it. -/
theorem parts?_of_splitComment {name line : String} {behind comment : List Char} (hname : name ≠ "")
    (hblank : ∀ c ∈ name.toList, isBlank c = false)
    (hsplit : splitComment line.toList
      = (("#define " ++ name).toList ++ ' ' :: behind, comment)) :
    parts? line
      = some ⟨name, String.ofList (trimChars (' ' :: behind)), String.ofList comment⟩ := by
  have hdrop : (("#define " ++ name).toList ++ ' ' :: behind).dropPrefix? "#define ".toList
      = some (name.toList ++ ' ' :: behind) := by
    rw [String.toList_append, List.append_assoc, Comment.dropPrefix?_append]
  have htake : (name.toList ++ ' ' :: behind).takeWhile (!isBlank ·) = name.toList := by
    rw [List.takeWhile_append_of_pos fun c hc => by rw [hblank c hc]; rfl,
      List.takeWhile_cons_of_neg (by decide), List.append_nil]
  have hempty : name.toList.isEmpty = false := by
    rw [List.isEmpty_eq_false_iff, Ne, String.toList_eq_nil_iff]
    exact hname
  simp only [parts?, hsplit, hdrop, htake, hempty, Option.bind_eq_bind, Option.bind_some,
    Bool.false_eq_true, if_false, List.drop_left, String.ofList_toList]
  rfl

/-- **The parts of a definition are read from its line.**  The line is spelled `#define`, the name,
the value and the comment, with at least one space between any two of them.  Behind the name and a
space, what stands in front of the first comment is the value with blanks around it, and the comment
encloses the note, if there is one.  So all three parts are read from the line alone. -/
theorem definition_shows_parts {name value : String} (hname : name ≠ "")
    (hblank : ∀ c ∈ name.toList, isBlank c = false) (hnamed : Uncommented name.toList)
    (hvalue : value ≠ "") (hhead : ∀ c ∈ value.toList.head?, isBlank c = false)
    (hlast : ∀ c ∈ value.toList.getLast?, isBlank c = false) (hvalued : Uncommented value.toList)
    (note : String) :
    (∃ k l, 0 < k ∧ (0 < l ↔ note ≠ "") ∧ definition name value note
      = "#define " ++ name ++ spacing k ++ value ++ spacing l ++ remark note) ∧
    (∃ rest, (definition name value note).toList = ("#define " ++ name ++ " ").toList ++ rest ∧
      trimChars (splitComment rest).1 = value.toList ∧
      (splitComment rest).2 = (remark note).toList) ∧
    parts? (definition name value note) = some ⟨name, value, remark note⟩ := by
  obtain ⟨k, l, hk, hl, hline⟩ := exists_definition_eq name hvalue note
  refine ⟨⟨k, l, hk, hl, hline⟩, ?_⟩
  obtain ⟨k, rfl⟩ := Nat.exists_eq_succ_of_ne_zero hk.ne'
  let behind := (spacing k).toList ++ value.toList ++ (spacing l).toList
  have hbehind : Uncommented behind := (hvalued.spacing_append k).append_spacing l
  have hfront : Uncommented ("#define " ++ name).toList := by
    have hdefine : Uncommented "#define".toList := by decide
    simpa using hdefine.append_space hnamed
  have hchars : (definition name value note).toList
      = ("#define " ++ name).toList ++ ' ' :: behind ++ (remark note).toList := by
    simp [hline, behind]
  constructor
  · refine ⟨behind ++ (remark note).toList, by simp [hchars], ?_⟩
    rw [splitComment_remark hbehind]
    exact ⟨trimChars_spacing hhead hlast k l, rfl⟩
  · have hsplit := splitComment_remark (hfront.append_space hbehind) note
    have htrim : trimChars (' ' :: behind) = value.toList := by
      have hspaced := trimChars_spacing hhead hlast (k + 1) l
      rwa [toList_spacing_succ] at hspaced
    rw [← hchars] at hsplit
    rw [parts?_of_splitComment hname hblank hsplit, htrim, String.ofList_toList,
      String.ofList_toList]

/-- The parts of a definition are kept apart where they end at stops, the name in column `44` and
the value in column `64`, and where they begin or end with characters that comments are made of. -/
theorem definition_shows_parts_stops :
    let name := "REG_SERCOM0_USART_INT_TXPO_PAD0_MASK"
    let value := "*(volatile int)/"
    let note := "*/ /* on"
    (name ≠ "" ∧ (∀ c ∈ name.toList, isBlank c = false) ∧ Uncommented name.toList) ∧
    (value ≠ "" ∧ (∀ c ∈ value.toList.head?, isBlank c = false) ∧
      (∀ c ∈ value.toList.getLast?, isBlank c = false) ∧ Uncommented value.toList) ∧
    definition name value note = "#define REG_SERCOM0_USART_INT_TXPO_PAD0_MASK    "
      ++ "*(volatile int)/    /* */ /* on */" ∧
    parts? (definition name value note) = some ⟨name, value, "/* */ /* on */"⟩ := by
  intro name value note
  have hblank : ∀ c ∈ name.toList, isBlank c = false := by
    have hall : (name.toList.all fun c => !isBlank c) = true := by decide
    simpa using hall
  have hhead : ∀ c ∈ value.toList.head?, isBlank c = false := by
    have hstar : value.toList.head? = some '*' := by decide
    intro c hc
    obtain rfl := Option.some.inj (hstar.symm.trans hc)
    decide
  have hlast : ∀ c ∈ value.toList.getLast?, isBlank c = false := by
    have hslash : value.toList.getLast? = some '/' := by decide
    intro c hc
    obtain rfl := Option.some.inj (hslash.symm.trans hc)
    decide
  have hname : name ≠ "" ∧ Uncommented name.toList := by decide
  have hvalue : value ≠ "" ∧ Uncommented value.toList := by decide
  obtain ⟨-, -, hparts⟩ := definition_shows_parts hname.1 hblank hname.2 hvalue.1 hhead hlast
    hvalue.2 note
  have hline : definition name value note = "#define REG_SERCOM0_USART_INT_TXPO_PAD0_MASK    "
      ++ "*(volatile int)/    /* */ /* on */" := by decide +kernel
  exact ⟨⟨hname.1, hblank, hname.2⟩, ⟨hvalue.1, hhead, hlast, hvalue.2⟩, hline, hparts⟩

end Line

end ChipSupport
