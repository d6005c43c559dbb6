import ChipSupport.Header.RegisterBlock
import ChipSupport.Proofs.Register.Vector

/-!
# Blocks under both policies for returning names

A style says what becomes of a vector field with the name of an earlier one.  The block of a
register whose bitfields share no bit is the same under both policies.

## Main results

* `RegisterBlock.duplicates_agree` — **the policies agree on fields, structs and blocks.**
-/

namespace ChipSupport.RegisterBlock

open ChipSupport.Field Bitfield

variable (r : Register) (groupMode start : String) (style : Style)

/-- The union of a register shows the vector fields by their layout only. -/
theorem unionLines_congr (modes : List (String × List Bitfield)) {fs gs : List Field}
    (hempty : fs.isEmpty = gs.isEmpty) (hlayout : layout fs r.bitWidth = layout gs r.bitWidth) :
    unionLines r groupMode modes fs style = unionLines r groupMode modes gs style := by
  unfold unionLines structLines
  rw [hempty, hlayout]

/-- The definitions for vector fields are those for the named ones. -/
theorem vectorLines_congr (name : String) {fs gs : List Field} (hempty : fs.isEmpty = gs.isEmpty)
    (hnamed : namedOnly fs = namedOnly gs) :
    vectorLines fs name style = vectorLines gs name style := by
  unfold vectorLines
  rw [hempty, hnamed]

/-- The block depends on the policy by the vector fields only. -/
theorem lines_duplicates (policy : Duplicates) :
    lines r groupMode start { style with vectorDuplicates := policy } = do
      style.layouts.checkNames
      let name := style.convention.qualifiedRegisterName r groupMode start
      let modes := r.modeTable style.coalesceModes
      let vectors := vectorsOf modes { style with vectorDuplicates := policy }
      let title ← style.layouts.registerCaption r name
      let union ←
        if style.registerUnions then unionLines r groupMode modes vectors style else pure []
      let whole ← registerLines r name style
      let body ← modes.mapM fun m => modeLines r name (decide (1 < modes.length)) m.1 m.2 style
      let vector ← vectorLines vectors name style
      return Line.text title :: (union ++ whole ++ body.flatten ++ vector) := rfl

/-- The vector fields under both policies have the same names and the same struct. -/
theorem vectorsOf_duplicates {width : Nat} {modes : List (String × List Bitfield)}
    (h : ∀ mode fs, modes = [(mode, fs)] → Separate width fs) :
    let gap := vectorsOf modes { style with vectorDuplicates := .gap }
    let drop := vectorsOf modes { style with vectorDuplicates := .drop }
    gap.isEmpty = drop.isEmpty ∧ namedOnly gap = namedOnly drop ∧
      layout gap width = layout drop width := by
  match modes with
  | [(mode, fs)] =>
    exact ⟨isEmpty_vectorFields fs, namedOnly_vectorFields fs, layout_vectorFields (h mode fs rfl)⟩
  | [] => exact ⟨rfl, rfl, rfl⟩
  | _ :: _ :: _ => exact ⟨rfl, rfl, rfl⟩

/-- The block of a register is the same under both policies, if the bitfields of its mode share no
bit.  A register of several modes has no vector fields. -/
theorem lines_duplicates_agree {width : Nat} (hwidth : r.bitWidth = width)
    (h : ∀ mode fs, r.modeTable style.coalesceModes = [(mode, fs)] → Separate width fs) :
    lines r groupMode start { style with vectorDuplicates := .gap }
      = lines r groupMode start { style with vectorDuplicates := .drop } := by
  obtain ⟨hempty, hnamed, hlayout⟩ := vectorsOf_duplicates style h
  rw [← hwidth] at hlayout
  rw [lines_duplicates, lines_duplicates]
  simp only [unionLines_congr r groupMode style _ hempty hlayout,
    vectorLines_congr style _ hempty hnamed]

/-- **Both policies for returning names give the same named vector fields in the same order, the
same struct, and the same block of every register that has the bitfields in its only mode.** -/
theorem duplicates_agree {width : Nat} {fs : List Bitfield} (h : Separate width fs) :
    vectorFields fs .drop = (namedOnly (vectorFields fs .gap)).map .named ∧
    layout (vectorFields fs .gap) width = layout (vectorFields fs .drop) width ∧
    ∀ (r : Register) (groupMode start : String) (style : Style), r.bitWidth = width →
      (∀ mode gs, r.modeTable style.coalesceModes = [(mode, gs)] → gs = fs) →
      lines r groupMode start { style with vectorDuplicates := .gap }
        = lines r groupMode start { style with vectorDuplicates := .drop } := by
  refine ⟨vectorFields_drop fs, layout_vectorFields h, ?_⟩
  intro r groupMode start style hwidth hmode
  refine lines_duplicates_agree r groupMode start style hwidth ?_
  intro mode gs hgs
  rw [hmode mode gs hgs]
  exact h

/-- Bits of a serial line: a numbered bit, a bit of another name, and the next numbered bit. -/
def lineBits : List Bitfield :=
  [{ name := "TX0", mask := 1 }, { name := "RX0", mask := 2 }, { name := "TX1", mask := 4 }]

/-- A register with the bits of a serial line. -/
def lineControl : Register := { name := "LINE", owner := "UART", bitfields := lineBits }

theorem modeTable_lineControl :
    lineControl.modeTable Style.atmel.coalesceModes = [(Mode.default_, lineBits)] := by cbv

/-- The policies agree on the serial line, where the name `TX` returns. -/
theorem duplicates_agree_lineControl :
    Separate 8 lineBits ∧
    vectorFields lineBits .drop = (namedOnly (vectorFields lineBits .gap)).map .named ∧
    layout (vectorFields lineBits .gap) 8 = layout (vectorFields lineBits .drop) 8 ∧
    lines lineControl "" "" { Style.atmel with vectorDuplicates := .gap }
      = lines lineControl "" "" { Style.atmel with vectorDuplicates := .drop } := by
  have hseparate : Separate 8 lineBits := by decide
  obtain ⟨hdrop, hlayout, hlines⟩ := duplicates_agree hseparate
  refine ⟨hseparate, hdrop, hlayout, hlines lineControl "" "" Style.atmel rfl ?_⟩
  intro mode gs hgs
  rw [modeTable_lineControl, List.cons.injEq, Prod.mk.injEq] at hgs
  exact hgs.1.2.symm

example : dropDuplicates .gap ((vectorsFrom none 0 lineBits).map .named)
    = [.named ⟨"TX", 1, ""⟩, .named ⟨"RX", 2, ""⟩, .gap 2 1] := by decide +kernel

end ChipSupport.RegisterBlock
