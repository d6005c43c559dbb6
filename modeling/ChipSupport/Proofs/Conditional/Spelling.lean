import ChipSupport.Proofs.Conditional.Nest
import ChipSupport.Proofs.Conditional.Unbroken
import ChipSupport.Proofs.Naming

/-!
# Spelled lines

What a layout spells has the characters of its template and of the values, so that a line that is
spelled is one line.  It begins as its template does: with a character of the template or, where a
placeholder stands in front, with the value of the placeholder.

## Main definitions

* `Template.leads` — templates that begin with another character than `#`, apart from blanks.

## Main results

* `Template.lacks_fill`, `Template.begins_fill` — filled templates.
* `Layouts.lacks_spell`, `Layouts.begins_spell` — what the presets spell.
-/

namespace ChipSupport

open Text Conditional

namespace Template

/-! ### Characters of filled templates -/

variable {c : Char}

theorem splitName_snd_subset (s : List Char) : (splitName s).2 ⊆ s := by
  unfold splitName
  split
  · exact List.Subset.refl _
  · split
    · exact (List.dropWhile_sublist _).subset
    · exact List.Subset.refl _

/-- What stands behind a placeholder, and what a dollar sign is written for, are in the template. -/
theorem splitHole_subset {s tail : List Char} {piece : Piece}
    (h : splitHole s = some (piece, tail)) : tail ⊆ s ∧ ∀ d, piece = .literal d → d ∈ s := by
  unfold splitHole at h
  split at h
  · cases h
    refine ⟨List.subset_cons_self _ _, fun d hd => ?_⟩
    cases hd
    exact List.mem_cons_self
  · next rest =>
    have hrest := splitName_snd_subset rest
    split at h
    · cases h
    · next name tail' hsplit =>
      cases h
      rw [hsplit] at hrest
      refine ⟨fun d hd => ?_, fun d hd => by cases hd⟩
      exact List.mem_cons_of_mem _ (hrest (List.mem_cons_of_mem _ hd))
    · cases h
  · have hrest := splitName_snd_subset s
    split at h
    · cases h
    · next name tail' _ hsplit =>
      cases h
      rw [hsplit] at hrest
      exact ⟨hrest, fun d hd => by cases hd⟩

theorem mem_of_literal_mem_piecesFrom {seen s : List Char} {d : Char}
    (h : .literal d ∈ piecesFrom seen s) : d ∈ s := by
  fun_induction piecesFrom seen s with
  | case1 seen => cases h
  | case2 seen rest piece tail hhole ih =>
    obtain ⟨htail, hliteral⟩ := splitHole_subset hhole
    rcases List.mem_cons.mp h with h | h
    · exact List.mem_cons_of_mem _ (hliteral d h.symm)
    · exact List.mem_cons_of_mem _ (htail (ih h))
  | case3 seen rest hhole at_ => cases List.mem_singleton.mp h
  | case4 seen c rest hc ih =>
    rcases List.mem_cons.mp h with h | h
    · cases h
      exact List.mem_cons_self
    · exact List.mem_cons_of_mem _ (ih h)

/-- A piece that is filled has the characters of the piece or of a value. -/
theorem fillPieces_cons_eq_ok {values : List (String × String)} {p : Piece} {ps : List Piece}
    {cs : List Char} (h : fillPieces values (p :: ps) = .ok cs) :
    ∃ front back, cs = front ++ back ∧ fillPieces values ps = .ok back ∧
      ((∃ d, p = .literal d ∧ front = [d]) ∨
        ∃ name v, p = .hole name ∧ values.lookup name = some v ∧ front = v.toList) := by
  cases p with
  | literal d =>
    obtain ⟨back, hback, rfl⟩ := Steps.map_eq_ok_iff.mp h
    exact ⟨[d], back, rfl, hback, .inl ⟨d, rfl, rfl⟩⟩
  | hole name =>
    rw [fillPieces] at h
    split at h
    · next v hv =>
      obtain ⟨back, hback, rfl⟩ := Steps.map_eq_ok_iff.mp h
      exact ⟨v.toList, back, rfl, hback, .inr ⟨name, v, rfl, hv, rfl⟩⟩
    · cases h
  | malformed line column => cases h

/-- A filled template has the characters of the template and of the values. -/
theorem lacks_fill {template s : String} {values : List (String × String)}
    (htemplate : Lacks c template) (hvalues : ∀ v ∈ values, Lacks c v.2)
    (h : fill template values = .ok s) : Lacks c s := by
  have hpieces (ps : List Piece) : (∀ d, .literal d ∈ ps → c ≠ d) →
      ∀ cs, fillPieces values ps = .ok cs → c ∉ cs := by
    intro hps
    induction ps with
    | nil =>
      intro cs hcs
      cases hcs
      exact List.not_mem_nil
    | cons p ps ih =>
      intro cs hcs
      obtain ⟨front, back, rfl, hback, hfront⟩ := fillPieces_cons_eq_ok hcs
      have hrest := ih (fun d hd => hps d (List.mem_cons_of_mem _ hd)) back hback
      rw [List.mem_append, not_or]
      refine ⟨?_, hrest⟩
      rcases hfront with ⟨d, rfl, rfl⟩ | ⟨name, v, rfl, hv, rfl⟩
      · rw [List.mem_singleton]
        exact hps d List.mem_cons_self
      · obtain ⟨before, after, hsplit, -⟩ := List.lookup_eq_some_iff.mp hv
        exact hvalues (name, v) (by rw [hsplit]; exact List.mem_append_right _ List.mem_cons_self)
  obtain ⟨cs, hcs, rfl⟩ := Steps.map_eq_ok_iff.mp h
  rw [lacks_ofList]
  refine hpieces (pieces template) (fun d hd heq => htemplate ?_) cs hcs
  exact heq ▸ mem_of_literal_mem_piecesFrom hd

/-! ### How filled templates begin -/

/-- Whether pieces begin with another character than `#`, apart from blanks, or with one of some
placeholders. -/
def leads (names : List String) : List Piece → Bool
  | .literal c :: rest => if isBlank c then leads names rest else c != '#'
  | .hole name :: _ => names.contains name
  | _ => false

/-- A filled template begins as the template does. -/
theorem begins_fill {template s : String} {values : List (String × String)} {names : List String}
    (hleads : leads names (pieces template) = true)
    (hvalues : ∀ name ∈ names, ∀ v, values.lookup name = some v → Begins v)
    (h : fill template values = .ok s) : Begins s := by
  have hpieces (ps : List Piece) : leads names ps = true →
      ∀ cs, fillPieces values ps = .ok cs → Begins (String.ofList cs) := by
    intro hps
    induction ps with
    | nil => cases hps
    | cons p ps ih =>
      intro cs hcs
      obtain ⟨front, back, rfl, hback, hfront⟩ := fillPieces_cons_eq_ok hcs
      rcases hfront with ⟨d, rfl, rfl⟩ | ⟨name, v, rfl, hv, rfl⟩
      · rw [leads] at hps
        split at hps
        · -- a blank does not decide how the text begins, the pieces behind it do
          next hblank =>
          obtain ⟨c, rest, hdrop, hc⟩ := ih hps back hback
          rw [String.toList_ofList] at hdrop
          refine ⟨c, rest, ?_, hc⟩
          rwa [String.toList_ofList, List.singleton_append, List.dropWhile_cons_of_pos hblank]
        · next hblank =>
          refine ⟨d, back, ?_, by simpa using hps⟩
          rw [String.toList_ofList, List.singleton_append, List.dropWhile_cons_of_neg hblank]
      · have hbegins := hvalues name (List.contains_iff_mem.mp hps) v hv
        rw [String.ofList_append, String.ofList_toList]
        exact hbegins.append _
  obtain ⟨cs, hcs, rfl⟩ := Steps.map_eq_ok_iff.mp h
  exact hpieces (pieces template) hleads cs hcs

end Template

/-! ### Layouts -/

theorem Layout.lacks_standard (l : Layout) : Lacks '\n' l.standard ∧ Lacks '#' l.standard := by
  cases l <;> decide

theorem Register.begins_integerType (r : Register) : Begins r.integerType := by
  unfold Register.integerType
  split
  · decide
  · split <;> decide

section Presets

variable {style : Style} (hstyle : style ∈ Style.presets)
include hstyle

theorem Style.lacks_template (l : Layout) :
    Lacks '\n' (style.layouts.template l) ∧ Lacks '#' (style.layouts.template l) := by
  have hstandard := Style.standard_of_mem_presets hstyle
  simp only [Style.presets, List.mem_cons, List.not_mem_nil, or_false] at hstyle
  -- the presets have their own layouts for these two, and share all others
  by_cases hreserved : l = .reserved
  · subst hreserved
    rcases hstyle with rfl | rfl | rfl <;> decide
  · by_cases hmode : l = .modeMember
    · subst hmode
      rcases hstyle with rfl | rfl | rfl <;> decide
    · rw [hstandard.template l hreserved hmode]
      exact l.lacks_standard

namespace Layouts

/-- What is spelled is one line if the values are. -/
theorem lacks_spell {l : Layout} {values : List (String × String)} {s : String}
    (hvalues : ∀ v ∈ values, Lacks '\n' v.2) (h : style.layouts.spell l values = .ok s) :
    Lacks '\n' s :=
  Template.lacks_fill (Style.lacks_template hstyle l).1 hvalues h

/-- What is spelled begins as its layout does. -/
theorem begins_spell (names : List String) {l : Layout} (hreserved : l ≠ .reserved)
    (hmode : l ≠ .modeMember) {values : List (String × String)} {s : String}
    (hleads : Template.leads names (Template.pieces l.standard) = true)
    (hbegins : ∀ name ∈ names, ∀ v, values.lookup name = some v → Begins v)
    (h : style.layouts.spell l values = .ok s) : Begins s := by
  rw [spell_eq_fill (Style.standard_of_mem_presets hstyle) hreserved hmode] at h
  exact Template.begins_fill hleads hbegins h

/-- What is spelled begins with a value if its layout begins with the placeholder. -/
theorem begins_spell_head {l : Layout} (hreserved : l ≠ .reserved) (hmode : l ≠ .modeMember)
    {name value : String} {values : List (String × String)} {s : String} (hvalue : Begins value)
    (hleads : Template.leads [name] (Template.pieces l.standard) = true)
    (h : style.layouts.spell l ((name, value) :: values) = .ok s) : Begins s := by
  refine begins_spell hstyle [name] hreserved hmode hleads ?_ h
  rw [List.forall_mem_singleton, List.lookup_cons, beq_self_eq_true]
  intro v hv
  cases hv
  exact hvalue

/-- What is spelled by a layout that begins with its own text is a plain line. -/
theorem plain_spell {l : Layout} (hreserved : l ≠ .reserved) (hmode : l ≠ .modeMember)
    {values : List (String × String)} {s : String}
    (hleads : Template.leads [] (Template.pieces l.standard) = true)
    (hvalues : ∀ v ∈ values, Lacks '\n' v.2) (h : style.layouts.spell l values = .ok s) :
    Plain (.text s) :=
  plain_text (lacks_spell hstyle hvalues h)
    (begins_spell hstyle [] hreserved hmode hleads (List.forall_mem_nil _) h)

/-! ### Lines of types -/

theorem plain_structOpen {s : String} (h : style.layouts.structOpen = .ok s) : Plain (.text s) :=
  plain_spell hstyle (by decide) (by decide) (by cbv) (List.forall_mem_nil _) h

theorem plain_unionOpen {s : String} (h : style.layouts.unionOpen = .ok s) : Plain (.text s) :=
  plain_spell hstyle (by decide) (by decide) (by cbv) (List.forall_mem_nil _) h

theorem plain_typedefClose {name s : String} {alignment : Int} (hname : Lacks '\n' name)
    (h : style.layouts.typedefClose name alignment = .ok s) : Plain (.text s) := by
  have haligned : Lacks '\n' (TypeDefinition.alignedText alignment) := by
    unfold TypeDefinition.alignedText
    refine lacks_ite ?_ (by decide)
    simp +decide
  rw [typedefClose_eq (Style.standard_of_mem_presets hstyle)] at h
  cases h
  refine plain_text ?_ (.append (.append (.append (by decide) _) _) _)
  simp +decide [TypeDefinition.ending, hname, haligned]

/-! ### Lines of members -/

section Bits

variable {type : String} (htype : Lacks '\n' type) (hbegins : Begins type)
include htype hbegins

theorem plain_regMember {s : String} (h : style.layouts.regMember type = .ok s) :
    Plain (.text s) :=
  plain_text (lacks_spell hstyle (by simpa using htype) h)
    (begins_spell_head hstyle (by decide) (by decide) hbegins (by cbv) h)

theorem plain_bitfield {field : Field} {line : String}
    (hfield : ∀ f ∈ Field.namedOnly [field], f.Unbroken)
    (h : style.layouts.bitfield field type = .ok line) : Plain (.text line) := by
  cases field with
  | gap lsb width =>
    exact plain_text (lacks_spell hstyle (by simpa using htype) h)
      (begins_spell_head hstyle (by decide) (by decide) hbegins (by cbv) h)
  | named f =>
    obtain ⟨hname, hcaption⟩ := hfield f List.mem_cons_self
    obtain ⟨declaration, hdeclaration, h⟩ := Steps.bind_eq_ok_iff.mp h
    have hlead : Begins declaration :=
      begins_spell_head hstyle (by decide) (by decide) hbegins (by cbv) hdeclaration
    have hunbroken : Lacks '\n' declaration :=
      lacks_spell hstyle (by simp [htype, hname]) hdeclaration
    obtain ⟨remark, hremark, h⟩ : ∃ remark, Lacks '\n' remark ∧
        Text.padTo declaration 36 ++ remark = line := by
      dsimp only at h
      split at h
      all_goals
        obtain ⟨remark, hremark, h⟩ := Steps.bind_eq_ok_iff.mp h
        exact ⟨remark, lacks_spell hstyle (by simp [hcaption]) hremark, Except.ok.inj h⟩
    subst h
    exact plain_text (by simp [hunbroken, hremark]) ((hlead.padTo 36).append _)

theorem plain_bitfieldStruct {members : List Field} {name : String} {lines : List String}
    (hname : Lacks '\n' name) (hmembers : ∀ f ∈ Field.namedOnly members, f.Unbroken)
    (h : style.layouts.bitfieldStruct members type name = .ok lines) :
    ∀ line ∈ lines, Plain (.text line) := by
  obtain ⟨first, hfirst, h⟩ := Steps.bind_eq_ok_iff.mp h
  obtain ⟨body, hbody, h⟩ := Steps.bind_eq_ok_iff.mp h
  obtain ⟨last, hlast, h⟩ := Steps.bind_eq_ok_iff.mp h
  have hvalues : ∀ v ∈ [("name", name)], Lacks '\n' v.2 := by simpa using hname
  cases h
  rw [List.forall_mem_cons, List.forall_mem_append, List.forall_mem_singleton]
  refine ⟨plain_spell hstyle (by decide) (by decide) (by cbv) hvalues hfirst, fun line hline => ?_,
    plain_spell hstyle (by decide) (by decide) (by cbv) hvalues hlast⟩
  obtain ⟨field, hfield, hspelled⟩ := Steps.exists_of_mem_mapM hbody hline
  refine plain_bitfield hstyle htype hbegins (fun f hf => hmembers f ?_) hspelled
  rw [Field.mem_namedOnly, List.mem_singleton] at hf
  exact Field.mem_namedOnly.mpr (hf ▸ hfield)

end Bits

theorem plain_reserved {number bytes : Int} {line : String}
    (h : style.layouts.reserved number bytes = .ok line) : Plain (.text line) := by
  obtain ⟨type, htype, h⟩ := Steps.bind_eq_ok_iff.mp h
  obtain ⟨name, hname, h⟩ := Steps.bind_eq_ok_iff.mp h
  cases h
  have hlead : Begins type := by
    simp only [Style.presets, List.mem_cons, List.not_mem_nil, or_false] at hstyle
    rcases hstyle with rfl | rfl | rfl
    all_goals exact Template.begins_fill (by cbv) (List.forall_mem_nil _) htype
  have hunbroken : Lacks '\n' type := lacks_spell hstyle (List.forall_mem_nil _) htype
  have hname' : Lacks '\n' name := lacks_spell hstyle (by simp) hname
  exact plain_text (by simp [hunbroken, hname']) ((hlead.padTo 36).append _)

/-- Before the remark there are names only. -/
theorem plain_member {qualifier type variable_ line : String} {count column : Int} {r : Register}
    (hqualifier : IsName qualifier) (htype : IsName type) (hvariable : IsName variable_)
    (hr : r.Unbroken)
    (h : style.layouts.member qualifier type variable_ count column r = .ok line) :
    Plain (.text line) := by
  obtain ⟨declaration, hdeclaration, h⟩ := Steps.bind_eq_ok_iff.mp h
  obtain ⟨remark, hremark, h⟩ := Steps.bind_eq_ok_iff.mp h
  cases h
  have hdeclaration' : IsName declaration :=
    ⟨lacks_spell hstyle (by simp [hqualifier.unbroken, htype.unbroken]) hdeclaration,
      Template.lacks_fill (Style.lacks_template hstyle _).2
        (by simp [hqualifier.noHash, htype.noHash]) hdeclaration⟩
  have harray : IsName (if 1 < count then "[" ++ Numeral.decimal count ++ "]" else "") := by
    constructor
    all_goals
      refine lacks_ite ?_ (by decide)
      simp +decide
  refine plain_text ?_ (begins_append_of_lacks ?_ ?_)
  · have hremark' : Lacks '\n' remark := lacks_spell hstyle (by simp [hr.rw, hr.caption]) hremark
    simp +decide [hdeclaration'.unbroken, hvariable.unbroken, harray.unbroken, hremark']
  · simp +decide [hdeclaration'.noHash, hvariable.noHash, harray.noHash]
  · exact begins_spell hstyle [] (by decide) (by decide) (by cbv) (List.forall_mem_nil _) hremark

/-- There are names only. -/
theorem plain_modeMember {type mode line : String} (htype : IsName type) (hmode : IsName mode)
    (h : style.layouts.modeMember type mode = .ok line) : Plain (.text line) := by
  obtain ⟨declaration, hdeclaration, h⟩ := Steps.bind_eq_ok_iff.mp h
  cases h
  have hdeclaration' : IsName declaration :=
    ⟨lacks_spell hstyle (by simp [htype.unbroken]) hdeclaration,
      Template.lacks_fill (Style.lacks_template hstyle _).2 (by simp [htype.noHash]) hdeclaration⟩
  refine ⟨?_, mark_of_lacks ?_⟩
  · simp +decide [hdeclaration'.unbroken, hmode.unbroken]
  · simp +decide [hdeclaration'.noHash, hmode.noHash]

theorem plain_registerCaption {r : Register} {name s : String} (hr : r.Unbroken)
    (hname : Lacks '\n' name) (h : style.layouts.registerCaption r name = .ok s) :
    Plain (.text s) :=
  plain_spell hstyle (by decide) (by decide) (by cbv)
    (by simp [hname, hr.owner.unbroken, hr.rw, hr.caption]) h

end Layouts

end Presets

end ChipSupport
