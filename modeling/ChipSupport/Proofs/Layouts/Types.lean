import ChipSupport.Line
import ChipSupport.Proofs.Layouts
import ChipSupport.Proofs.Text.Column

/-!
# Spellings of type definitions

A type definition begins with `typedef` and the kind of the type, has a member in each of the lines
that follow, and ends with the name of the type.  The lines of members are indented, so that a
definition ends where the first line is that is not.

## Main definitions

* `Text.Indented` — texts that begin with a space.
* `TypeKind`, `TypeDefinition` — a type definition as it stands in a header.

## Main results

* `Layouts.structOpen_eq`, `Layouts.typedefClose_eq` — how a type definition begins and ends.
* `Layouts.exists_member` — the line of a register in a group's struct names the type.
-/

namespace ChipSupport

namespace Text

/-- Texts that begin with a space. -/
def Indented (s : String) : Prop := s.toList.head? = some ' '

theorem Indented.of_prefix {s t : String} (h : Indented s) (hbegins : s.toList <+: t.toList) :
    Indented t := by
  obtain ⟨rest, hrest⟩ := hbegins
  rw [Indented] at h ⊢
  rw [← hrest, List.head?_append, h]
  rfl

theorem prefix_append (s t : String) : s.toList <+: (s ++ t).toList := by
  rw [String.toList_append]
  exact List.prefix_append _ _

/-- A text is only added to when it is filled up to a column. -/
theorem prefix_padTo (s : String) (column : Int) : s.toList <+: (padTo s column).toList := by
  obtain ⟨k, -, hpadded⟩ := exists_padTo_eq s column
  rw [hpadded]
  exact prefix_append s _

end Text

namespace Template

/-- What is spelled by a template that begins with a space is indented. -/
theorem indented_fill {template : String} {values : List (String × String)} {s : String}
    (hspace : (pieces template).head? = some (.literal ' ')) (h : fill template values = .ok s) :
    Text.Indented s := by
  obtain ⟨rest, hpieces⟩ : ∃ rest, pieces template = .literal ' ' :: rest :=
    List.head?_eq_some_iff.mp hspace
  rw [fill, hpieces, fillPieces] at h
  cases hrest : fillPieces values rest with
  | error e =>
    rw [hrest] at h
    cases h
  | ok cs =>
    rw [hrest] at h
    rw [← Except.ok.inj h, Text.Indented, String.toList_ofList]
    rfl

end Template

/-! ### Type definitions -/

/-- The kinds of types that headers define. -/
inductive TypeKind where
  /-- Members one behind the other. -/
  | struct
  /-- Members over each other. -/
  | union
  deriving DecidableEq, Repr

/-- The first line of a type definition. -/
def TypeKind.opening : TypeKind → String
  | struct => "typedef struct \x7b"
  | union => "typedef union \x7b"

/-- A type definition as it stands in a header. -/
structure TypeDefinition where
  /-- The kind of the type. -/
  kind : TypeKind
  /-- The lines of the members. -/
  members : List String
  /-- The name of the type. -/
  name : String
  /-- The alignment in bytes, or zero. -/
  alignment : Int := 0
  /-- A line that is not indented ends the definition. -/
  indented : ∀ line ∈ members, Text.Indented line

namespace TypeDefinition

/-- The attribute for an alignment. -/
def alignedText (alignment : Int) : String :=
  if 0 < alignment then " __attribute__((aligned(" ++ Numeral.decimal alignment ++ ")))" else ""

/-- The last line of a type definition. -/
def ending (name : String) (alignment : Int) : String :=
  "\x7d " ++ name ++ alignedText alignment ++ ";"

/-- The lines of a type definition, which only compilers read. -/
def lines (t : TypeDefinition) : List Line :=
  [Line.compilerOnly, .text t.kind.opening] ++ t.members.map Line.text
    ++ [.text (ending t.name t.alignment), Line.endCompilerOnly, Line.blank]

end TypeDefinition

namespace Layouts

open Template

section Standard

variable {ls : Layouts} (h : ls.Standard)
include h

/-! ### Beginning and end -/

theorem structOpen_eq : ls.structOpen = .ok TypeKind.struct.opening := by
  have hpieces : pieces Layout.structOpen.standard
      = "typedef struct \x7b".toList.map .literal := by cbv
  rw [structOpen, spell_eq_fill h (by decide) (by decide), fill, hpieces]
  simp [fillPieces, Except.map, TypeKind.opening]

theorem unionOpen_eq : ls.unionOpen = .ok TypeKind.union.opening := by
  have hpieces : pieces Layout.unionOpen.standard
      = "typedef union \x7b".toList.map .literal := by cbv
  rw [unionOpen, spell_eq_fill h (by decide) (by decide), fill, hpieces]
  simp [fillPieces, Except.map, TypeKind.opening]

theorem aligned_eq {alignment : Int} (halignment : 0 < alignment) :
    ls.spell .aligned [("alignment", Numeral.decimal alignment)]
      = .ok (TypeDefinition.alignedText alignment) := by
  have hpieces : pieces Layout.aligned.standard
      = " __attribute__((aligned(".toList.map .literal ++ .hole "alignment"
        :: ")))".toList.map .literal := by cbv
  rw [TypeDefinition.alignedText, if_pos halignment, spell_eq_fill h (by decide) (by decide), fill,
    hpieces]
  simp [fillPieces, Except.map, ← String.toList_inj]

theorem typedefClose_eq (name : String) (alignment : Int) :
    ls.typedefClose name alignment = .ok (TypeDefinition.ending name alignment) := by
  have hpieces : pieces Layout.typedefClose.standard
      = "\x7d ".toList.map .literal ++ [.hole "name", .hole "attributes", .literal ';'] := by cbv
  have hattributes : ∀ attributes : String, List.lookup "attributes"
      [("name", name), ("attributes", attributes)] = some attributes := fun _ => rfl
  have hclose : ∀ attributes : String, ls.spell .typedefClose
      [("name", name), ("attributes", attributes)]
        = .ok ("\x7d " ++ name ++ attributes ++ ";") := by
    intro attributes
    rw [spell_eq_fill h (by decide) (by decide), fill, hpieces]
    simp [fillPieces, hattributes, Except.map, ← String.toList_inj]
  rw [TypeDefinition.ending, ← hclose, typedefClose]
  by_cases halignment : 0 < alignment
  · rw [if_pos halignment, aligned_eq h halignment]
    rfl
  · rw [if_neg halignment, TypeDefinition.alignedText, if_neg halignment]
    rfl

/-! ### Members of unions -/

theorem indented_regMember {type line : String} (hline : ls.regMember type = .ok line) :
    Text.Indented line := by
  rw [regMember, spell_eq_fill h (by decide) (by decide)] at hline
  exact indented_fill (by cbv) hline

theorem indented_bitfield {field : Field} {type line : String}
    (hline : ls.bitfield field type = .ok line) : Text.Indented line := by
  cases field with
  | gap lsb width =>
    rw [bitfield, spell_eq_fill h (by decide) (by decide)] at hline
    exact indented_fill (by cbv) hline
  | named f =>
    rw [bitfield] at hline
    obtain ⟨declaration, hdeclaration, hline⟩ := Steps.bind_eq_ok_iff.mp hline
    rw [spell_eq_fill h (by decide) (by decide)] at hdeclaration
    have hindented : Text.Indented declaration := indented_fill (by cbv) hdeclaration
    -- the remark stands behind the declaration, be it on a range of bits or on one bit
    have hline : ∃ remark, Text.padTo declaration 36 ++ remark = line := by
      dsimp only at hline
      split at hline
      all_goals
        obtain ⟨remark, -, hline⟩ := Steps.bind_eq_ok_iff.mp hline
        exact ⟨remark, Except.ok.inj hline⟩
    obtain ⟨remark, rfl⟩ := hline
    exact hindented.of_prefix ((Text.prefix_padTo _ 36).trans (Text.prefix_append _ _))

theorem indented_bitfieldStruct {members : List Field} {type name : String} {lines : List String}
    (hlines : ls.bitfieldStruct members type name = .ok lines) :
    ∀ line ∈ lines, Text.Indented line := by
  rw [bitfieldStruct] at hlines
  obtain ⟨first, hfirst, hlines⟩ := Steps.bind_eq_ok_iff.mp hlines
  obtain ⟨body, hbody, hlines⟩ := Steps.bind_eq_ok_iff.mp hlines
  obtain ⟨last, hlast, hlines⟩ := Steps.bind_eq_ok_iff.mp hlines
  rw [spell_eq_fill h (by decide) (by decide)] at hfirst hlast
  rw [← Except.ok.inj hlines]
  intro line hline
  rw [List.mem_cons, List.mem_append, List.mem_singleton] at hline
  rcases hline with rfl | hline | rfl
  · exact indented_fill (by cbv) hfirst
  · obtain ⟨field, -, hfield⟩ := Steps.exists_of_mem_mapM hbody hline
    exact indented_bitfield h hfield
  · exact indented_fill (by cbv) hlast

/-! ### Members of structs -/

/-- The line of a register in a group's struct begins with the qualifier and the type. -/
theorem exists_member (qualifier type variable_ : String) (count column : Int) (r : Register) :
    ∃ line, ls.member qualifier type variable_ count column r = .ok line ∧
      ("  " ++ qualifier ++ " " ++ type).toList <+: line.toList := by
  have hpieces : pieces Layout.member.standard
      = "  ".toList.map .literal ++ [.hole "io", .literal ' ', .hole "type"] := by cbv
  have htype : List.lookup "type" [("io", qualifier), ("type", type)] = some type := rfl
  have hdeclaration : ls.spell .member [("io", qualifier), ("type", type)]
      = .ok ("  " ++ qualifier ++ " " ++ type) := by
    rw [spell_eq_fill h (by decide) (by decide), fill, hpieces]
    simp [fillPieces, htype, Except.map, ← String.toList_inj]
  have hremark : ∃ s, ls.spell .memberComment [("offset", Numeral.hex r.offset 2), ("rw", r.rw),
      ("bits", Numeral.decimal (8 * r.size)), ("caption", r.caption)] = .ok s :=
    exists_spell h (by decide) (by decide) ["offset", "rw", "bits", "caption"] rfl (by cbv)
  obtain ⟨remark, hremark⟩ := hremark
  refine ⟨_, by rw [member, hdeclaration, hremark]; rfl, ?_⟩
  -- the variable, the number of elements and the remark stand behind it
  refine (Text.prefix_padTo _ 36).trans (.trans ?_ (Text.prefix_append _ _))
  refine .trans ?_ (Text.prefix_padTo _ column)
  refine (Text.prefix_append _ _).trans (.trans (Text.prefix_append _ _) (Text.prefix_append _ _))

theorem exists_count (value : Int) : ∃ s, ls.count value = .ok s :=
  exists_spell h (by decide) (by decide) ["count"] rfl (by cbv)

theorem exists_section (name : String) : ∃ s, ls.section_ name = .ok s :=
  exists_spell h (by decide) (by decide) ["section"] rfl (by cbv)

end Standard

/-- A layout that begins with a space is filled by what is known about its names. -/
theorem exists_spell_indented {ls : Layouts} {l : Layout} {values : List (String × String)}
    (names : List String) (hnames : values.map Prod.fst = names)
    (hknown : (pieces (ls.template l)).all (Piece.known names) = true)
    (hspace : (pieces (ls.template l)).head? = some (.literal ' ')) :
    ∃ s, ls.spell l values = .ok s ∧ Text.Indented s := by
  obtain ⟨s, hs⟩ := exists_fill (hnames ▸ hknown)
  exact ⟨s, hs, indented_fill hspace hs⟩

variable {style : Style} (hstyle : style ∈ Style.presets)
include hstyle

/-- The presets spell reserved bytes in their own ways. -/
theorem exists_reserved (number bytes : Int) :
    ∃ line, style.layouts.reserved number bytes = .ok line ∧ Text.Indented line := by
  have htype : ∃ s, style.layouts.spell .reserved [] = .ok s ∧ Text.Indented s := by
    simp only [Style.presets, List.mem_cons, List.not_mem_nil, or_false] at hstyle
    rcases hstyle with rfl | rfl | rfl
    all_goals exact exists_spell_indented [] rfl (by cbv) (by cbv)
  have hname : ∃ s, style.layouts.spell .reservedName
      [("number", Numeral.decimal number), ("bytes", Numeral.decimal bytes)] = .ok s :=
    exists_spell (Style.standard_of_mem_presets hstyle) (by decide) (by decide)
      ["number", "bytes"] rfl (by cbv)
  obtain ⟨type, htype, hindented⟩ := htype
  obtain ⟨name, hname⟩ := hname
  refine ⟨Text.padTo type 36 ++ name, by rw [reserved, htype, hname]; rfl, ?_⟩
  exact hindented.of_prefix ((Text.prefix_padTo type 36).trans (Text.prefix_append _ _))

/-- The presets spell the members of the union of modes in their own ways. -/
theorem exists_modeMember (type mode : String) :
    ∃ line, style.layouts.modeMember type mode = .ok line ∧ Text.Indented line := by
  have hdeclaration : ∃ s, style.layouts.spell .modeMember [("type", type)] = .ok s
      ∧ Text.Indented s := by
    simp only [Style.presets, List.mem_cons, List.not_mem_nil, or_false] at hstyle
    rcases hstyle with rfl | rfl | rfl
    all_goals exact exists_spell_indented ["type"] rfl (by cbv) (by cbv)
  obtain ⟨declaration, hdeclaration, hindented⟩ := hdeclaration
  refine ⟨Text.padTo declaration 36 ++ mode ++ ";", by rw [modeMember, hdeclaration]; rfl, ?_⟩
  refine hindented.of_prefix ((Text.prefix_padTo declaration 36).trans ?_)
  exact (Text.prefix_append _ _).trans (Text.prefix_append _ _)

end Layouts

end ChipSupport
