import ChipSupport.Comment
import ChipSupport.Proofs.Text.Column
import ChipSupport.Proofs.Text.Wrap

/-!
# Comments keep their text

A comment has a decoration in front of each line, and its last line is a decoration only.  Without
the decorations the lines have all characters of the text but white space, in their order, and no
line is wider than a hundred columns.

## Main definitions

* `Comment.content?` — the characters of a comment without its decorations.

## Main results

* `Comment.exists_blockText_eq` — the lines of a comment and their texts.
* `Comment.length_of_mem_blockText` — the width of a line.
* `Comment.exists_laterContent?` — the decorations of the later lines.
* `Comment.block_keeps_text` — **a comment fits into a hundred columns and keeps its text.**
-/

namespace ChipSupport.Comment

open Text

/-! ### Decorations -/

/-- The characters of the lines after the first one, of which the last one closes the comment. -/
def laterContent? (spaces : String) : List String → Option (List Char)
  | [] => none
  | [last] => if last = spaces ++ " */" then some [] else none
  | line :: rest => do
    let front ← line.toList.dropPrefix? (spaces ++ " *").toList
    let later ← laterContent? spaces rest
    return front ++ later

/-- The characters of a comment without its decorations, if it has them: the spaces and `/*` in
front of the first line, the spaces and ` *` in front of the others, and ` */` in the last one. -/
def content? (spaces : String) : List String → Option (List Char)
  | [] => none
  | first :: rest => do
    let front ← first.toList.dropPrefix? (spaces ++ "/*").toList
    let later ← laterContent? spaces rest
    return front ++ later

theorem dropPrefix?_append (p s : List Char) : (p ++ s).dropPrefix? p = some s :=
  List.dropPrefix?_eq_some_iff.mpr ⟨p, rfl, beq_self_eq_true p⟩

/-! ### Single lines -/

theorem margin_add_room (indent : Int) : margin indent + room indent = 97 := by
  unfold room margin
  omega

theorem exists_firstLine_eq (spaces line : String) :
    ∃ content, (firstLine spaces line).toList = (spaces ++ "/*").toList ++ content ∧
      ink content = ink line.toList ∧ content.length ≤ line.length + 1 := by
  have hsplit : (spaces ++ "/* " ++ line).toList
      = (spaces.toList ++ ['/']) ++ '*' :: (' ' :: line.toList) := by simp
  rw [firstLine]
  split
  · next hempty =>
    refine ⟨[' '], by simp, ?_, by simp⟩
    rw [String.isEmpty_iff.mp hempty]
    rfl
  · refine ⟨trimEndChars (' ' :: line.toList), ?_, ?_, ?_⟩
    · rw [trimEnd, String.toList_ofList, hsplit, trimEndChars_append (by decide)]
      simp
    · rw [ink_trimEndChars, ink_cons_of_isBlank (by decide)]
    · exact length_trimEndChars_le _

theorem exists_laterLine_eq (spaces line : String) :
    ∃ content, (laterLine spaces line).toList = (spaces ++ " *").toList ++ content ∧
      ink content = ink line.toList ∧ content.length ≤ line.length + 1 := by
  rw [laterLine]
  split
  · next hempty =>
    refine ⟨[], by simp, ?_, by simp⟩
    rw [String.isEmpty_iff.mp hempty]
    rfl
  · exact ⟨' ' :: line.toList, by simp, ink_cons_of_isBlank (by decide) _, le_rfl⟩

/-- A line whose text fits into the room left fits into a hundred columns. -/
theorem length_le_of_content {indent : Int} {decoration : String}
    (hdecoration : decoration.length = 2)
    {line text : String} {content : List Char}
    (hline : line.toList = (spacing (margin indent) ++ decoration).toList ++ content)
    (hcontent : content.length ≤ text.length + 1) (htext : text.length ≤ room indent) :
    line.length ≤ 100 := by
  have hlength := congrArg List.length hline
  have hwidth := margin_add_room indent
  rw [List.length_append, String.length_toList, String.length_toList, String.length_append,
    length_spacing, hdecoration] at hlength
  omega

/-! ### The lines of a comment -/

/-- The later lines of a comment have their decorations, and the text that is left of them. -/
theorem exists_laterContent? (spaces : String) (lines : List String) :
    ∃ content,
      laterContent? spaces (lines.map (laterLine spaces) ++ [spaces ++ " */"]) = some content ∧
      ink content = ink (lines.flatMap String.toList) := by
  induction lines with
  | nil => exact ⟨[], if_pos rfl, rfl⟩
  | cons line rest ih =>
    obtain ⟨later, hlater, hrest⟩ := ih
    obtain ⟨front, hfront, hink, -⟩ := exists_laterLine_eq spaces line
    have hne : rest.map (laterLine spaces) ++ [spaces ++ " */"] ≠ [] := by simp
    refine ⟨front ++ later, ?_, ?_⟩
    · rw [List.map_cons, List.cons_append, laterContent?, hfront, dropPrefix?_append, hlater]
      · rfl
      · exact fun h => hne h
    · rw [ink_append, hink, hrest, List.flatMap_cons, ink_append]

/-- The lines of a comment are a first one, later ones and the one that closes it.  Their texts fit
into the room that the comment leaves, and have the characters of its text. -/
theorem exists_blockText_eq (text : String) (indent : Int) :
    ∃ first rest, blockText text indent = firstLine (spacing (margin indent)) first
        :: (rest.map (laterLine (spacing (margin indent))) ++ [spacing (margin indent) ++ " */"]) ∧
      (∀ line ∈ first :: rest, line.length ≤ room indent) ∧
      ink ((first :: rest).flatMap String.toList) = ink text.toList := by
  have hlength := length_le_of_mem_wrapText (room_pos indent) text
  have hink := ink_wrapText (room_pos indent) text
  rw [blockText]
  cases hwrap : wrapText (room indent) (room_pos indent) text with
  | nil =>
    -- a text without lines is shown as an empty line
    rw [hwrap] at hink
    exact ⟨"", [], rfl, by simp, hink⟩
  | cons first rest =>
    rw [hwrap] at hlength hink
    exact ⟨first, rest, rfl, hlength, hink⟩

theorem length_of_mem_blockText {text : String} {indent : Int} :
    ∀ line ∈ blockText text indent, line.length ≤ 100 := by
  obtain ⟨first, rest, hlines, hroom, -⟩ := exists_blockText_eq text indent
  rw [List.forall_mem_cons] at hroom
  rw [hlines, List.forall_mem_cons, List.forall_mem_append, List.forall_mem_map,
    List.forall_mem_singleton]
  refine ⟨?_, fun line hline => ?_, ?_⟩
  · obtain ⟨content, hcontent, -, hlength⟩ :=
      exists_firstLine_eq (spacing (margin indent)) first
    exact length_le_of_content rfl hcontent hlength hroom.1
  · obtain ⟨content, hcontent, -, hlength⟩ :=
      exists_laterLine_eq (spacing (margin indent)) line
    exact length_le_of_content rfl hcontent hlength (hroom.2 line hline)
  · have hwidth := margin_add_room indent
    have hroom := room_pos indent
    have hclose : " */".length = 3 := rfl
    rw [String.length_append, length_spacing, hclose]
    omega

theorem render_block (text : String) (indent : Int) :
    (block text indent).map Line.render = blockText text indent := by
  rw [block, List.map_map]
  exact List.map_id _

/-- **A comment fits into a hundred columns and keeps its text.**  All its lines are indented by as
many spaces as are asked for, but no fewer than none and no more than sixty.  The first one begins
with `/*` and the last one is ` */`.  Without the decorations in front of them the lines have the
characters of the text that are not white space, each once and in their order. -/
theorem block_keeps_text (text : String) (indent : Int) :
    (∀ line ∈ (block text indent).map Line.render, line.length ≤ 100) ∧
    (∃ first ∈ ((block text indent).map Line.render).head?,
      (spacing (max 0 (min indent 60)).toNat ++ "/*").toList <+: first.toList) ∧
    ((block text indent).map Line.render).getLast?
      = some (spacing (max 0 (min indent 60)).toNat ++ " */") ∧
    ∃ content, content? (spacing (max 0 (min indent 60)).toNat)
        ((block text indent).map Line.render) = some content ∧
      ink content = ink text.toList := by
  have hmargin : (max 0 (min indent 60)).toNat = margin indent := rfl
  obtain ⟨first, rest, hlines, -, hink⟩ := exists_blockText_eq text indent
  obtain ⟨front, hfront, hfirst, -⟩ := exists_firstLine_eq (spacing (margin indent)) first
  obtain ⟨later, hlater, hrest⟩ := exists_laterContent? (spacing (margin indent)) rest
  rw [render_block, hmargin]
  refine ⟨length_of_mem_blockText, ?_, ?_, front ++ later, ?_, ?_⟩
  · rw [hlines]
    exact ⟨_, rfl, front, hfront.symm⟩
  · rw [hlines, ← List.cons_append, List.getLast?_concat]
  · rw [hlines, content?, hfront, dropPrefix?_append, hlater]
    rfl
  · rw [ink_append, hfirst, hrest, ← ink_append, ← List.flatMap_cons, hink]

/-- A comment that is indented by four spaces. -/
theorem block_keeps_text_indented :
    (block "Control A\n\nenables" 4).map Line.render
      = ["    /* Control A", "     *", "     * enables", "     */"] ∧
    ∃ content, content? "    " ["    /* Control A", "     *", "     * enables", "     */"]
        = some content ∧
      ink content = "ControlAenables".toList := by
  have hlines : (block "Control A\n\nenables" 4).map Line.render
      = ["    /* Control A", "     *", "     * enables", "     */"] := by decide +kernel
  obtain ⟨-, -, -, content, hcontent, hink⟩ := block_keeps_text "Control A\n\nenables" 4
  rw [hlines] at hcontent
  exact ⟨hlines, content, hcontent, hink⟩

end ChipSupport.Comment
