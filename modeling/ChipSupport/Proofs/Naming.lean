import ChipSupport.Proofs.Text.Lacks

/-!
# Names without a character

The names in a header are made of those in the document.  A character that no operation on texts
brings in is in none of them unless it is in a name of the document.

## Main results

* `Convention.lacks_groupType`, `Convention.lacks_memberType`, … — the names of groups and registers
  under both conventions.
-/

namespace ChipSupport

open Text

variable {c : Char} [hc : Foreign c]

theorem lacks_qualifiedName {register owner mode start : String} (hregister : Lacks c register)
    (howner : Lacks c owner) (hmode : Lacks c mode) (hstart : Lacks c start) :
    Lacks c (qualifiedName register owner mode start) := by
  have hunderscore : Lacks c "_" := Foreign.lacks_word (by decide)
  have hnamed : Lacks c (if start = owner ++ "_" then start ++ register else register) :=
    lacks_ite (lacks_append.mpr ⟨hstart, hregister⟩) hregister
  unfold qualifiedName
  refine lacks_ite (lacks_ite ?_ ?_) (lacks_ite hnamed ?_)
  all_goals simp only [lacks_append, hregister, howner, hmode, hunderscore, hnamed, and_self]

theorem Register.lacks_integerType (r : Register) : Lacks c r.integerType :=
  lacks_ite (Foreign.lacks_word (by decide))
    (lacks_ite (Foreign.lacks_word (by decide)) (Foreign.lacks_word (by decide)))

theorem RegisterGroup.lacks_memberStart {g : RegisterGroup} (howner : Lacks c g.owner) :
    Lacks c g.memberStart :=
  lacks_ite (Foreign.lacks_word (by decide))
    (lacks_append.mpr ⟨howner, Foreign.lacks_word (by decide)⟩)

theorem Mode.lacks_of_isDefault {mode : String} (h : Mode.isDefault mode = true) :
    Lacks c mode := by
  rw [Mode.isDefault, Bool.or_eq_true, beq_iff_eq, beq_iff_eq] at h
  rcases h with rfl | rfl
  · exact List.not_mem_nil
  · exact Foreign.lacks_word (by decide)

namespace Convention

section Groups

variable {group owner mode : String} (hgroup : Lacks c group) (howner : Lacks c owner)
  (hmode : Lacks c mode)
include hgroup howner hmode

theorem lacks_pascalGroup (isType : Bool) : Lacks c (pascalGroup group owner mode isType) := by
  have hgroup' := lacks_joinCapitalized (lacks_dropOwner hgroup owner)
  have howner' := lacks_joinCapitalized howner
  have hmode' := lacks_joinCapitalized hmode
  have hending : Lacks c (if isType then "_t" else "") :=
    lacks_ite (Foreign.lacks_word (by decide)) (Foreign.lacks_word (by decide))
  unfold pascalGroup
  refine lacks_ite (lacks_ite howner' ?_) (lacks_ite ?_ ?_)
  all_goals simp only [lacks_append, hgroup', howner', hmode', hending, and_self]

theorem lacks_snakeGroup {ending : String} (hending : Lacks c ending) :
    Lacks c (snakeGroup group owner mode ending) := by
  have hunderscore : Lacks c "_" := Foreign.lacks_word (by decide)
  have hgroup' : Lacks c (lower (dropOwner group owner)) :=
    lacks_lower.mpr (lacks_dropOwner hgroup owner)
  have howner' : Lacks c (lower owner) := lacks_lower.mpr howner
  have hmode' : Lacks c (lower mode) := lacks_lower.mpr hmode
  have hstart : Lacks c (if (lower (dropOwner group owner)).isEmpty then lower owner
      else lower owner ++ "_") := lacks_ite howner' (lacks_append.mpr ⟨howner', hunderscore⟩)
  unfold snakeGroup
  refine lacks_ite ?_ (lacks_ite ?_ (lacks_ite ?_ ?_))
  all_goals
    simp only [lacks_append, hgroup', howner', hmode', hending, hunderscore, hstart, and_self]

theorem lacks_groupName (convention : Convention) (isType : Bool) :
    Lacks c (convention.groupName group owner mode isType) := by
  cases convention with
  | pascal _ => exact lacks_pascalGroup hgroup howner hmode isType
  | snake =>
    exact lacks_ite (lacks_snakeGroup hgroup howner hmode (Foreign.lacks_word (by decide)))
      (lacks_upper.mpr (lacks_dropOwner hgroup owner))

end Groups

section Registers

variable {r : Register} (hname : Lacks c r.name) (howner : Lacks c r.owner)
include hname howner

theorem lacks_registerType (convention : Convention) {mode : String} (hmode : Lacks c mode) :
    Lacks c (convention.registerType r mode) := by
  have hunderscore : Lacks c "_" := Foreign.lacks_word (by decide)
  have hending : Lacks c "_Type" := Foreign.lacks_word (by decide)
  have hname' : Lacks c (upper (dropOwner r.name r.owner)) :=
    lacks_upper.mpr (lacks_dropOwner hname _)
  unfold registerType
  refine lacks_ite (lacks_groupName hname howner hmode _ _) ?_
  cases convention with
  | snake => exact r.lacks_integerType
  | pascal _ =>
    refine lacks_ite ?_ ?_
    all_goals
      simp only [lacks_append, lacks_upper, hname', howner, hmode, hunderscore, hending, and_self]

theorem lacks_memberType (convention : Convention) {mode : String} (hmode : Lacks c mode) :
    Lacks c (convention.memberType r mode) := by
  cases convention with
  | snake => exact lacks_registerType hname howner _ hmode
  | pascal _ =>
    refine lacks_registerType hname howner _ ?_
    split
    · next hdefault => exact Mode.lacks_of_isDefault hdefault
    · exact hmode

theorem lacks_snakeVariable (withOwner : Bool) : Lacks c (snakeVariable r withOwner) := by
  have hname' : Lacks c (upper r.name) := lacks_upper.mpr hname
  refine lacks_ite (lacks_ite hname' ?_) (lacks_dropOwner hname' _)
  rw [lacks_append, lacks_append]
  exact ⟨⟨howner, Foreign.lacks_word (by decide)⟩, hname'⟩

theorem lacks_registerVariable (convention : Convention) :
    Lacks c (convention.registerVariable r) := by
  have hempty : Lacks c "" := Foreign.lacks_word (by decide)
  cases convention with
  | snake => exact lacks_snakeVariable hname howner false
  | pascal _ =>
    exact lacks_ite (lacks_pascalGroup hname hempty hempty false) (lacks_upper.mpr hname)

theorem lacks_registerMacroName (convention : Convention) :
    Lacks c (convention.registerMacroName r) := by
  cases convention with
  | snake => exact lacks_snakeVariable hname howner false
  | pascal _ => exact lacks_dropOwner (lacks_registerVariable hname howner _) _

theorem lacks_memberVariable (convention : Convention) (start : String) :
    Lacks c (convention.memberVariable r start) := by
  cases convention with
  | pascal _ => exact lacks_registerVariable hname howner _
  | snake =>
    exact lacks_ite (lacks_snakeVariable hname howner _) (lacks_snakeVariable hname howner _)

theorem lacks_qualifiedRegisterName (convention : Convention) {mode start : String}
    (hmode : Lacks c mode) (hstart : Lacks c start) :
    Lacks c (convention.qualifiedRegisterName r mode start) := by
  have hregister := lacks_registerMacroName hname howner convention
  cases convention with
  | snake => exact lacks_qualifiedName hregister howner hmode hstart
  | pascal _ =>
    exact lacks_qualifiedName hregister howner hmode
      (lacks_ite hstart (Foreign.lacks_word (by decide)))

theorem lacks_sizeMacroName {convention : Convention} {mode name : String} (hmode : Lacks c mode)
    (h : convention.sizeMacroName? r mode = some name) : Lacks c name := by
  cases convention with
  | pascal _ => cases h
  | snake =>
    cases h
    rw [lacks_append, lacks_upper]
    exact ⟨lacks_snakeGroup hname howner hmode (Foreign.lacks_word (by decide)),
      Foreign.lacks_word (by decide)⟩

end Registers

end Convention

end ChipSupport
