import ChipSupport.Data.Schema
import ChipSupport.Style

/-!
# Settings of styles

A style file replaces some choices of a preset.

## Main definitions

* `StyleSettings.schema` — the rules for style files.
* `StyleSettings.apply` — a style with the settings of data.
-/

namespace ChipSupport.StyleSettings

/-- The rules for style files. -/
def schema : Schema :=
  .record []
    [("pio", .flag), ("events", .flag), ("configRegs", .flag),
      ("license", .choice ["apache", "microchip", "bsd"]),
      ("vecfieldDedup", .choice ["gap", "drop"]),
      ("componentDir", .text 1), ("instancesDir", .text 1), ("pioDir", .text 1),
      ("templates", .map (.text 0))]

/-- The layouts with one more; a layout that is there is replaced in its place. -/
def putLayout (name : Data) (layout : String) : Layouts → Layouts
  | [] => [(name, layout)]
  | entry :: rest =>
    if entry.1.sameKey name then (entry.1, layout) :: rest else entry :: putLayout name layout rest

/-- The layouts with those of a table. -/
def putLayouts (ls : Layouts) : List (Data × Data) → Layouts
  | [] => ls
  | (name, .text layout) :: rest => putLayouts (putLayout name layout ls) rest
  | _ :: rest => putLayouts ls rest

/-- A style with one setting. -/
def applyOne (s : Style) (entry : Data × Data) : Style :=
  match entry with
  | (.text "pio", .bool b) => { s with pio := b }
  | (.text "events", .bool b) => { s with events := b }
  | (.text "configRegs", .bool b) => { s with configRegs := b }
  | (.text "license", .text v) => { s with license := v }
  | (.text "vecfieldDedup", .text v) => { s with vectorDuplicates := Duplicates.ofName v }
  | (.text "componentDir", .text v) => { s with componentDir := v }
  | (.text "instancesDir", .text v) => { s with instancesDir := v }
  | (.text "pioDir", .text v) => { s with pioDir := v }
  | (.text "templates", layouts) =>
    { s with layouts := putLayouts s.layouts (layouts.entries?.getD []) }
  | _ => s

/-- The style of a name, or the fault that there is none. -/
def preset (name : String) : Except Fault Style :=
  match Style.preset? name with
  | some s => .ok s
  | none => .error (.styleUnknown name (Style.presets.map Style.name))

/-- A style with the settings of data, or what is wrong with them.  Data that count as missing are
no settings. -/
def apply (s : Style) (d : Data) (source : String) : Except Fault Style := do
  let d := if d.isEmpty then .table [] else d
  let problems ← schema.problems d
  if !problems.isEmpty then throw (.styleInvalid source problems)
  return (d.entries?.getD []).foldl applyOne s

end ChipSupport.StyleSettings
