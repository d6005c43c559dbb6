import ChipSupport.Mips.Header
import ChipSupport.Proofs.Device.Config
import ChipSupport.Proofs.Register.Layout
import ChipSupport.Proofs.Sorting

/-!
# Structs of fields by position and by mask

The struct of a mode is written by counting bits: each field moves the count behind it, and what the
count is short of the next position is padding.  A layout restarts from the highest bit of each
mask, and joins gaps.  Fields without a common bit that stand by position have the same struct
either way.

## Main definitions

* `MipsHeader.padding` — the member that leads from a bit to a field.
* `MipsHeader.membersBefore` — the members in front of a field.

## Main results

* `MipsHeader.structMembers_append` — a struct goes on where its first members end.
* `MipsHeader.structMembers_eq_map_layout` — the struct is the layout of the masks.
* `MipsHeader.structMembers_agree` — **both structs are the same, and the members in front of a
  field are as wide as its position.**
-/

namespace ChipSupport.MipsHeader

/-! ### Members and widths -/

/-- The number of bits of members. -/
def totalWidth (members : List (String × Int)) : Int := (members.map Prod.snd).sum

@[simp] theorem totalWidth_nil : totalWidth [] = 0 := rfl

@[simp] theorem totalWidth_cons (m : String × Int) (rest : List (String × Int)) :
    totalWidth (m :: rest) = m.2 + totalWidth rest := List.sum_cons

@[simp] theorem totalWidth_append (front rest : List (String × Int)) :
    totalWidth (front ++ rest) = totalWidth front + totalWidth rest := by
  rw [totalWidth, List.map_append, List.sum_append]
  rfl

/-- The padding from a bit up to a position, which is a member without a name. -/
def padding (next position : Int) : List (String × Int) :=
  if 0 < position - next then [("", position - next)] else []

theorem padding_of_lt {next position : Int} (h : next < position) :
    padding next position = [("", position - next)] := if_pos (by omega)

@[simp] theorem padding_self (next : Int) : padding next next = [] := if_neg (by omega)

/-- Padding fills what is left up to a position. -/
theorem totalWidth_padding {next position : Int} (h : next ≤ position) :
    totalWidth (padding next position) = position - next := by
  rcases Int.lt_or_eq_of_le h with hlt | rfl
  · rw [padding_of_lt hlt]
    exact Int.add_zero _
  · rw [padding_self, totalWidth_nil, Int.sub_self]

theorem structMembers_cons (next : Int) (f : ConfigField) (rest : List ConfigField) :
    structMembers next (f :: rest) = padding next f.position ++ (f.name, f.width)
      :: structMembers (next + totalWidth (padding next f.position) + f.width) rest := by
  rw [structMembers, padding]
  split
  · have hposition : next + (f.position - next) = f.position := by omega
    simp only [totalWidth_cons, totalWidth_nil, Int.add_zero, hposition, List.cons_append,
      List.nil_append]
  · simp only [totalWidth_nil, Int.add_zero, List.nil_append]

/-- A struct goes on behind some of its fields at the bit where their members end. -/
theorem structMembers_append (next : Int) (before after : List ConfigField) :
    structMembers next (before ++ after) = structMembers next before
      ++ structMembers (next + totalWidth (structMembers next before)) after := by
  induction before generalizing next with
  | nil => simp only [List.nil_append, structMembers, totalWidth_nil, Int.add_zero]
  | cons f rest ih =>
    rw [List.cons_append, structMembers_cons, structMembers_cons, ih, List.append_assoc,
      List.cons_append]
    simp only [totalWidth_append, totalWidth_cons, Int.add_assoc]

/-! ### Fields that lie one behind the other -/

/-- Fields that lie one behind the other from bit `next` on. -/
structure Ascending (next : Int) (fs : List ConfigField) : Prop where
  le_position : ∀ f ∈ fs, next ≤ f.position
  pairwise_end : fs.Pairwise fun f g => f.position + f.width ≤ g.position

theorem Ascending.of_cons {next : Int} {f : ConfigField} {rest : List ConfigField}
    (h : Ascending next (f :: rest)) : Ascending (f.position + f.width) rest := by
  obtain ⟨hhead, htail⟩ := List.pairwise_cons.mp h.pairwise_end
  exact ⟨hhead, htail⟩

/-- Behind its padding a field begins at its position. -/
theorem structMembers_cons_of_ascending {next : Int} {f : ConfigField} {rest : List ConfigField}
    (h : Ascending next (f :: rest)) :
    structMembers next (f :: rest) = padding next f.position ++ (f.name, f.width)
      :: structMembers (f.position + f.width) rest := by
  have hle : next ≤ f.position := h.le_position f List.mem_cons_self
  have hposition : next + (f.position - next) = f.position := by omega
  rw [structMembers_cons, totalWidth_padding hle, hposition]

/-- The members of fields end below the position of every later field. -/
theorem totalWidth_le {next : Int} {before after : List ConfigField} {g : ConfigField}
    (h : Ascending next (before ++ g :: after)) :
    next + totalWidth (structMembers next before) ≤ g.position := by
  induction before generalizing next with
  | nil =>
    have hle : next ≤ g.position := h.le_position g List.mem_cons_self
    rw [structMembers, totalWidth_nil]
    omega
  | cons f rest ih =>
    have hle : next ≤ f.position := h.le_position f List.mem_cons_self
    have hfront : Ascending next (f :: rest) :=
      ⟨fun k hk => h.le_position k (List.mem_append_left _ hk),
        (List.pairwise_append.mp h.pairwise_end).1⟩
    have hrest := ih h.of_cons
    rw [structMembers_cons_of_ascending hfront, totalWidth_append, totalWidth_cons,
      totalWidth_padding hle]
    omega

/-! ### The layout of the masks -/

/-- A member of a layout in the form in which structs list theirs. -/
def nameAndWidth (m : Field) : String × Int := (m.name, m.width)

/-- The layout from a bit on has the members of the struct, and no gap behind the last one. -/
theorem structMembers_eq_layout {next : Int} (hnext : 0 ≤ next) {fs : List ConfigField}
    (hplaced : ∀ f ∈ fs, f.Placed) (h : Ascending next fs) :
    (Field.mergeGaps (Field.padded next 0 (fs.map ConfigField.toMember))).map nameAndWidth
      = structMembers next fs := by
  induction fs generalizing next with
  | nil =>
    rw [List.map_nil, Field.mergeGaps_padded_nil, Field.gapTo, if_neg (by omega)]
    rfl
  | cons f rest ih =>
    have hf : f.Placed := hplaced f List.mem_cons_self
    have hle : next ≤ f.position := h.le_position f List.mem_cons_self
    have hwidth := hf.width_pos
    -- the layout goes on behind the highest bit of the mask
    have hend : f.toMember.msb + 1 = f.position + f.width := by
      rw [ConfigField.msb_toMember hf]
      omega
    have hnext' : 0 ≤ f.position + f.width := by omega
    have hrest := ih hnext' (fun g hg => hplaced g (List.mem_cons_of_mem f hg)) h.of_cons
    have hmember : nameAndWidth f.toMember = (f.name, f.width) := by
      rw [nameAndWidth, ConfigField.name_toMember, ConfigField.width_toMember hf]
    rw [List.map_cons, Field.mergeGaps_padded_cons, ConfigField.lsb_toMember hf, hend,
      structMembers_cons_of_ascending h, ← hrest, ← hmember, Field.gapTo]
    rcases Int.lt_or_eq_of_le hle with hlt | rfl
    · rw [if_pos hlt, padding_of_lt hlt]
      rfl
    · rw [if_neg (by omega), padding_self]
      rfl

/-- **Fields by position, of at least one bit and without common bits, have the struct that their
masks are laid out in, without a gap behind the last one.** -/
theorem structMembers_eq_map_layout {fs : List ConfigField} (hplaced : ∀ f ∈ fs, f.Placed)
    (hsorted : fs.Pairwise fun f g => f.position ≤ g.position) (h : Ascending 0 fs) :
    structMembers 0 fs = (Field.layout (fs.map ConfigField.toMember) 0).map nameAndWidth := by
  -- the fields are sorted by their lowest bits already
  have hlsb : Field.sorted (fs.map ConfigField.toMember) = fs.map ConfigField.toMember := by
    refine List.mergeSort_of_pairwise (List.pairwise_map.mpr ?_)
    refine hsorted.imp_of_mem fun {f g} hf hg hle => ?_
    rw [ConfigField.lsb_toMember (hplaced f hf), ConfigField.lsb_toMember (hplaced g hg)]
    exact decide_eq_true hle
  rw [Field.layout, hlsb, structMembers_eq_layout le_rfl hplaced h]

/-! ### Modes -/

/-- The members in front of a field: those of the fields before it, and the padding to it. -/
def membersBefore (before : List ConfigField) (f : ConfigField) : List (String × Int) :=
  structMembers 0 before ++ padding (totalWidth (structMembers 0 before)) f.position

/-- The fields of a mode are shown by position. -/
theorem pairwise_position_of_mem_shownModes {r : ConfigRegister} {fs : List ConfigField}
    (hfs : fs ∈ shownModes r) : fs.Pairwise fun f g => f.position ≤ g.position := by
  obtain ⟨m, -, rfl⟩ := List.mem_map.mp (List.mem_filter.mp hfs).1
  exact Sorting.pairwise_mergeSort ConfigField.position m.visibleFields

/-- The position of each field that is shown is defined. -/
theorem position_mem_registerFieldLines {r : ConfigRegister} {fs : List ConfigField}
    (hfs : fs ∈ shownModes r) {f : ConfigField} (hf : f ∈ fs) :
    Line.defineWide ("_" ++ r.name ++ "_" ++ f.name ++ "_POSITION") (hexValue f.position)
      ∈ registerFieldLines r := by
  refine List.mem_append_left _ (List.mem_flatMap.mpr ⟨f, ?_, ?_⟩)
  · exact List.mem_flatten.mpr ⟨fs, hfs, hf⟩
  · simp only [fieldLines, String.append_assoc]
    exact List.mem_cons_self

/-- The struct of a mode that is shown is written in the definition of the register. -/
theorem structLines_infix_registerLines {r : ConfigRegister} {fs : List ConfigField}
    (hfs : fs ∈ shownModes r) : structLines fs <:+: registerLines r := by
  have hstructs : structLines fs <:+: (shownModes r).flatMap structLines :=
    List.infix_of_mem_flatten (List.mem_map_of_mem hfs)
  have hunion : (shownModes r).flatMap structLines <:+: unionLines r := by
    rw [unionLines]
    cases hmodes : shownModes r with
    | nil =>
      rw [hmodes] at hfs
      cases hfs
    | cons mode modes =>
      refine List.infix_append_of_infix_left (List.infix_append_of_infix_left ?_)
      exact (List.suffix_cons _ _).isInfix
  have hregister : unionLines r <:+: registerLines r :=
    List.infix_append_of_infix_left (List.infix_append_of_infix_left
      (List.infix_append_of_infix_left (List.suffix_cons _ _).isInfix))
  exact (hstructs.trans hunion).trans hregister

/-- **Fields by position, of at least one bit and without common bits, have the struct that their
masks are laid out in, without a gap behind the last one.**  This struct is written in the
definition of every register that has a mode with these fields.  The members in front of a field are
as wide as its position, the number that is defined for it. -/
theorem structMembers_agree {fs : List ConfigField} (hplaced : ∀ f ∈ fs, f.Placed)
    (hdisjoint : fs.Pairwise fun f g => Bits.conj f.mask g.mask = 0)
    (hsorted : fs.Pairwise fun f g => f.position ≤ g.position) :
    structMembers 0 fs
        = (Field.layout (fs.map fun f => .named ⟨f.name, f.mask, ""⟩) 0).map
            (fun m => (m.name, m.width))
      ∧ (∀ r, fs ∈ shownModes r →
        (.text "  struct \x7b"
          :: ((Field.layout (fs.map fun f => .named ⟨f.name, f.mask, ""⟩) 0).map fun m =>
            memberLine (m.name, m.width))
          ++ [.text "  \x7d;"]) <:+: registerLines r)
      ∧ ∀ before f after, fs = before ++ f :: after →
        structMembers 0 fs = membersBefore before f ++ (f.name, f.width)
            :: structMembers (f.position + f.width) after
          ∧ totalWidth (membersBefore before f) = f.position
          ∧ ∀ r, fs ∈ shownModes r →
            Line.defineWide ("_" ++ r.name ++ "_" ++ f.name ++ "_POSITION")
                (hexValue (totalWidth (membersBefore before f)))
              ∈ registerFieldLines r := by
  have hends := ConfigField.pairwise_end_le hplaced hdisjoint hsorted
  have hascending : Ascending 0 fs := ⟨fun f hf => (hplaced f hf).position_nonneg, hends⟩
  have hmembers := structMembers_eq_map_layout hplaced hsorted hascending
  refine ⟨hmembers, fun r hr => ?_, ?_⟩
  · have hinfix := structLines_infix_registerLines hr
    rwa [structLines, hmembers, List.map_map] at hinfix
  rintro before f after rfl
  have hle : 0 + totalWidth (structMembers 0 before) ≤ f.position := totalWidth_le hascending
  rw [Int.zero_add] at hle
  have hwidth : totalWidth (membersBefore before f) = f.position := by
    rw [membersBefore, totalWidth_append, totalWidth_padding hle]
    omega
  refine ⟨?_, hwidth, fun r hr => ?_⟩
  · have hfront : structMembers 0 (before ++ f :: after) = membersBefore before f
        ++ (f.name, f.width) :: structMembers (totalWidth (membersBefore before f) + f.width)
          after := by
      rw [structMembers_append, structMembers_cons, Int.zero_add, membersBefore,
        totalWidth_append, List.append_assoc]
    rw [hfront, hwidth]
  · rw [hwidth]
    exact position_mem_registerFieldLines hr (List.mem_append_right _ List.mem_cons_self)

/-- A register of two fields, described with the upper one first: two unused bits lie below the
lower one and three between them. -/
theorem structMembers_agree_pair :
    let low : ConfigField := ⟨"ON", 2, 1, "", false, [], .digits, .digits⟩
    let high : ConfigField := ⟨"SRC", 6, 4, "", false, [], .digits, .digits⟩
    let register : ConfigRegister := { name := "T1CON", address := 0, modes := [⟨"", [high, low]⟩] }
    structMembers 0 [low, high] = [("", 2), ("ON", 1), ("", 3), ("SRC", 4)]
      ∧ [.text "  struct \x7b", .text "    uint32_t :2;", .text "    uint32_t ON:1;",
          .text "    uint32_t :3;", .text "    uint32_t SRC:4;", .text "  \x7d;"]
        <:+: registerLines register
      ∧ totalWidth (membersBefore [low] high) = 6
      ∧ Line.defineWide "_T1CON_SRC_POSITION" "(0x00000006)" ∈ registerFieldLines register := by
  intro low high register
  have hplaced : ∀ f ∈ [low, high], f.Placed := by
    intro f hf
    rcases List.mem_pair.mp hf with rfl | rfl
    · exact ⟨by decide, by decide⟩
    · exact ⟨by decide, by decide⟩
  have hshown : [low, high] ∈ shownModes register := by
    simp [shownModes, shownFields, ConfigMode.visibleFields, List.mergeSort, register, low, high]
  obtain ⟨hmembers, hstruct, hbefore⟩ := structMembers_agree hplaced (by decide)
    (pairwise_position_of_mem_shownModes hshown)
  obtain ⟨-, hwidth, hdefined⟩ := hbefore [low] high [] rfl
  have hlist : structMembers 0 [low, high] = [("", 2), ("ON", 1), ("", 3), ("SRC", 4)] := by decide
  refine ⟨hlist, ?_, hwidth, ?_⟩
  · have hwritten := hstruct register hshown
    have hlines : (Field.layout ([low, high].map fun f => .named ⟨f.name, f.mask, ""⟩) 0).map
        (fun m => memberLine (m.name, m.width))
          = [.text "    uint32_t :2;", .text "    uint32_t ON:1;", .text "    uint32_t :3;",
            .text "    uint32_t SRC:4;"] := by
      have hmap := congrArg (List.map memberLine) (hlist.symm.trans hmembers)
      rw [List.map_map] at hmap
      exact hmap.symm.trans (by cbv)
    rwa [hlines] at hwritten
  · have hvalue : hexValue 6 = "(0x00000006)" := by cbv
    have hmem := hdefined register hshown
    rw [hwidth] at hmem
    exact hvalue ▸ hmem

end ChipSupport.MipsHeader
