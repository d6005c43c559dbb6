import ChipSupport.Header.Pins
import ChipSupport.Proofs.Document.Peripheral
import ChipSupport.Proofs.Text.Integer

/-!
# Pads and port pins

The header of the port pins defines the pins of a document, and then the signals of its instances at
their pads.  A pad is a port pin by its spelling; for a signal it is enough that an integer stands
behind the second character of its pad.  Every port pin is such a pad, but not the other way round.

## Main definitions

* `Pin.IsNumbered` — the pads at which a signal is defined.

## Main results

* `Document.mem_portPinNames_iff` — when the pad of a signal is among the port pins.
* `Pins.signalLines_ne_nil_iff`, `Pins.exists_eq_wiredLines` — when a signal is defined, and how.
* `Document.signals_at_portPins_iff` — **what the two halves of the header have in common.**
-/

namespace ChipSupport

/-! ### Spellings -/

namespace Pin

/-- An integer stands behind the second character. -/
def IsNumbered (pad : String) : Prop :=
  ∃ c port digits, pad.toList = c :: port :: digits ∧ Numeral.IsInteger digits

theorem exists_ofName_iff (name : String) : (∃ pin, ofName name = .ok pin) ↔ IsNumbered name := by
  unfold ofName IsNumbered
  split
  next c port digits hchars =>
    have hpin : (∃ pin, (Numeral.parse 10 digits).map (fun n => (⟨port, n⟩ : Pin)) = .ok pin)
        ↔ ∃ n, Numeral.parse 10 digits = .ok n := by
      cases Numeral.parse 10 digits <;> simp [Except.map]
    rw [hpin, Numeral.exists_parse_iff]
    simp [hchars]
  next hshort =>
    constructor
    · rintro ⟨pin, hpin⟩
      cases hpin
    · rintro ⟨c, port, digits, hchars, -⟩
      exact absurd hchars (hshort c port digits)

/-- A pad is read as the name of a pin is. -/
theorem ofPad?_eq_some_iff {pad : String} {pin : Pin} :
    ofPad? pad = some pin ↔ ofName pad = .ok pin := by
  unfold ofPad? ofName
  split
  next c port digits _ => cases Numeral.parse 10 digits <;> simp [Except.map, Except.toOption]
  next => simp

end Pin

namespace Document

/-- A port pin is the letter `P`, a letter and digits, with a line feed behind them or not. -/
theorem exists_of_isPortPin {pad : List Char} (h : isPortPin pad = true) :
    ∃ port ds tail, pad = 'P' :: port :: (ds ++ tail) ∧ Text.isDecimal port = false ∧ ds ≠ [] ∧
      (∀ c ∈ ds, Text.isDecimal c = true) ∧ (tail = [] ∨ tail = ['\n']) := by
  unfold isPortPin at h
  split at h
  next port rest =>
    simp only [Bool.and_eq_true, decide_eq_true_eq] at h
    obtain ⟨⟨hport, hfirst⟩, htail⟩ := h
    have hletter : Text.isDecimal port = false := by
      rw [Bool.eq_false_iff]
      intro hdecimal
      have hrange : 65 ≤ port.toNat ∧ port.toNat ≤ 90 := hport
      rcases Text.toNat_of_isDecimal hdecimal with hdigit | hlarge <;> omega
    refine ⟨port, rest.takeWhile Text.isDecimal, rest.dropWhile Text.isDecimal,
      by rw [List.takeWhile_append_dropWhile], hletter, ?_,
      fun c hc => List.mem_takeWhile_imp hc, ?_⟩
    · cases rest with
      | nil => exact absurd hfirst Bool.false_ne_true
      | cons c rest =>
        rw [List.takeWhile_cons_of_pos (by simpa using hfirst)]
        exact List.cons_ne_nil c _
    · split at htail
      next heq => exact .inl heq
      next heq => exact .inr heq
      next => cases htail
  next => cases h

/-- A port pin has a number unless its digits are too many. -/
theorem isNumbered_iff_of_isPortPin {pad : String} (h : isPortPin pad.toList = true) :
    Pin.IsNumbered pad ↔ (pad.toList.filter Text.isDecimal).length ≤ Numeral.longest := by
  obtain ⟨port, ds, tail, hpad, hport, hne, hds, htail⟩ := exists_of_isPortPin h
  have hmargin : ∀ c ∈ tail, Numeral.isMargin c = true := by
    rcases htail with rfl | rfl
    · exact List.forall_mem_nil _
    · exact List.forall_mem_singleton.mpr rfl
  have hletter : Text.isDecimal 'P' = false := by decide
  have hnone : tail.filter Text.isDecimal = [] := by
    rcases htail with rfl | rfl
    · rfl
    · rfl
  have hdigits : pad.toList.filter Text.isDecimal = ds := by
    rw [hpad, List.filter_cons_of_neg (by rw [hletter]; exact Bool.false_ne_true),
      List.filter_cons_of_neg (by rw [hport]; exact Bool.false_ne_true), List.filter_append, hnone,
      List.append_nil, List.filter_eq_self.mpr hds]
  rw [hdigits, ← Numeral.isInteger_append_iff hne hds hmargin, Pin.IsNumbered]
  simp [hpad]

end Document

/-! ### Signals -/

namespace Pins

variable (i : Instance) (s : Signal)

/-- A signal is defined if it is not wired without a pin function, and has a function and a pin. -/
theorem signalLines_ne_nil_iff :
    signalLines i s ≠ [] ↔ isFixed s = false ∧ s.function ≠ "" ∧ Pin.IsNumbered s.pad := by
  rw [← Pin.exists_ofName_iff]
  unfold signalLines wiring?
  cases isFixed s with
  | true => simp
  | false =>
    rw [if_neg Bool.false_ne_true, ne_eq s.function, ← String.toList_eq_nil_iff]
    cases hpad : Pin.ofPad? s.pad with
    | none =>
      have hnone : ¬ ∃ pin, Pin.ofName s.pad = .ok pin := by
        rintro ⟨pin, hpin⟩
        rw [← Pin.ofPad?_eq_some_iff, hpad] at hpin
        cases hpin
      simp [hnone]
    | some pin =>
      have hsome : ∃ pin, Pin.ofName s.pad = .ok pin := ⟨pin, Pin.ofPad?_eq_some_iff.mp hpad⟩
      cases s.function.toList <;> simp [wiredLines, hsome]

/-- The definitions of a signal use the pin of its pad. -/
theorem exists_eq_wiredLines {i : Instance} {s : Signal} (h : signalLines i s ≠ []) :
    ∃ pin mux, namedPinLines s.pad = .ok (pinLines s.pad pin) ∧
      signalLines i s = wiredLines i s pin mux := by
  unfold signalLines at h ⊢
  split at h
  · exact absurd rfl h
  · next hfixed =>
    rw [if_neg hfixed]
    split at h
    next pin mux hwiring =>
      unfold wiring? at hwiring
      split at hwiring
      next hpad hfunction =>
        cases hwiring
        refine ⟨pin, _, ?_, rfl⟩
        rw [namedPinLines, Pin.ofPad?_eq_some_iff.mp hpad]
        rfl
      next => cases hwiring
    next => exact absurd rfl h

end Pins

/-! ### Nodes -/

namespace Node

/-- A signal of an instance is read from a child of the node of its signals. -/
theorem exists_of_mem_signals {node : Data} {i : Instance} (h : inst node = .ok i) {s : Signal}
    (hs : s ∈ i.signals) :
    ∃ signals, node.get? "signals" = some signals ∧
      ∃ child ∈ children signals "signal", attr child "pad" = s.pad := by
  obtain ⟨base, -, h⟩ := Steps.bind_eq_ok_iff.mp h
  split at h
  · next signals _ hsignals _ =>
    obtain ⟨instanceId, -, h⟩ := Steps.bind_eq_ok_iff.mp h
    obtain ⟨baseAddress, -, h⟩ := Steps.bind_eq_ok_iff.mp h
    cases h
    obtain ⟨child, hchild, rfl⟩ := List.mem_map.mp hs
    exact ⟨signals, hsignals, child, hchild, rfl⟩
  · cases h

theorem part_of_get? {node d : Data} {tag : String} (h : node.get? tag = some d) :
    part node tag = .ok d := by
  have htable : node.isTable = true := by
    rw [Data.isTable]
    rw [Data.get?] at h
    obtain ⟨entries, hentries, -⟩ := Option.bind_eq_some_iff.mp h
    rw [hentries, Option.isSome_some]
  rw [part, if_pos htable, h, Option.getD_some]

end Node

/-! ### Documents -/

namespace Document

open Node

variable {doc : Document} {names : List String} {name : Data} {p : Peripheral} {i : Instance}
  {s : Signal}

/-- The pad of a signal is among the port pins exactly if it is spelled like one. -/
theorem mem_portPinNames_iff (hnames : doc.portPinNames = .ok names)
    (hp : doc.peripheral name = .ok p) (hi : i ∈ p.usableInstances) (hs : s ∈ i.signals) :
    s.pad ∈ names ↔ isPortPin s.pad.toList = true := by
  obtain ⟨nodes, node, module_, hnodes, hnamed, -, hperipheral⟩ := exists_named hp
  obtain ⟨child, hchild, hinst⟩ := exists_of_mem_usableInstances hperipheral hi
  obtain ⟨signals, hsignals, signal, hsignal, hpad⟩ := exists_of_mem_signals hinst hs
  obtain ⟨nodes', hnodes', hnames⟩ := Steps.bind_eq_ok_iff.mp hnames
  obtain ⟨all, hall, hnames⟩ := Steps.bind_eq_ok_iff.mp hnames
  cases hnames
  cases hnodes.symm.trans hnodes'
  -- the pads of the instance are among all pads, and the pad of the signal among those
  obtain ⟨found, hfound, hpads⟩ := Steps.exists_mem_of_mapM hall
    (List.mem_flatMap.mpr ⟨node, mem_of_find? hnamed, hchild⟩)
  obtain ⟨signals', hsignals', hpads⟩ := Steps.bind_eq_ok_iff.mp hpads
  cases (part_of_get? hsignals).symm.trans hsignals'
  obtain ⟨pad, hmem, hread⟩ := Steps.exists_mem_of_mapM hpads hsignal
  have hlisted : s.pad ∈ all.flatten := by
    split at hread
    next pad' hdata =>
      cases hread
      rw [← hpad, attr_eq_of_attributeData hdata]
      exact List.mem_flatten.mpr ⟨found, hfound, hmem⟩
    next => cases hread
  rw [List.mem_eraseDups, List.mem_filter, and_iff_right hlisted]

/-- **The signals that are defined are those at numbered pads, and the port pins are some of these
pads.**  A signal is defined exactly if it is not wired without a pin function, has a function, and
an integer stands behind the second character of its pad.  The pad is among the port pins exactly if
it is spelled like one.  What is defined uses the number and the mask of the pin that the pad has as
a name.  At a port pin, every signal with a pin function is defined unless the digits are too
many. -/
theorem signals_at_portPins_iff (hnames : doc.portPinNames = .ok names)
    (hp : doc.peripheral name = .ok p) (hi : i ∈ p.usableInstances) (hs : s ∈ i.signals) :
    (Pins.signalLines i s ≠ [] ↔
      Pins.isFixed s = false ∧ s.function ≠ "" ∧ Pin.IsNumbered s.pad) ∧
    (s.pad ∈ names ↔ isPortPin s.pad.toList = true) ∧
    (Pins.signalLines i s ≠ [] → ∃ pin mux,
      Pins.namedPinLines s.pad = .ok (Pins.pinLines s.pad pin) ∧
      Pins.signalLines i s = Pins.wiredLines i s pin mux) ∧
    (s.pad ∈ names → (Pins.signalLines i s ≠ [] ↔ Pins.isFixed s = false ∧ s.function ≠ "" ∧
      (s.pad.toList.filter Text.isDecimal).length ≤ Numeral.longest)) := by
  have hmem := mem_portPinNames_iff hnames hp hi hs
  refine ⟨Pins.signalLines_ne_nil_iff i s, hmem, Pins.exists_eq_wiredLines, ?_⟩
  intro hpin
  rw [Pins.signalLines_ne_nil_iff, isNumbered_iff_of_isPortPin (hmem.mp hpin)]

/-- An input of a converter at a port pin. -/
def portInput : Signal := { group := "AIN", index := "0", function := "B", pad := "PA05" }

/-- An input of a converter at a pad of its own. -/
def analogInput : Signal := { group := "AIN", index := "1", function := "B", pad := "AD12" }

/-- The node of a signal. -/
def signalNode (s : Signal) : Data :=
  .table [(.text "@group", .text s.group), (.text "@index", .text s.index),
    (.text "@function", .text s.function), (.text "@pad", .text s.pad)]

/-- The converter in the device. -/
def converterDevice : Data :=
  .table [(.text "@name", .text "ADC"),
    (.text "instance", .table [(.text "@name", .text "ADC0"),
      (.text "register-group", .table [(.text "@name", .text "ADC0")]),
      (.text "signals", .table [(.text "signal", .list ([portInput, analogInput].map signalNode))]),
      (.text "parameters", .table [])])]

/-- A document with the converter. -/
def converterDocument : Document :=
  { source := "adc.atdf"
    deviceNode := .table [(.text "peripherals", .table [(.text "module", converterDevice)])]
    modulesNode := .table [(.text "module", .table [(.text "@name", .text "ADC")])] }

/-- The converter as an instance. -/
def converterInstance : Instance := { name := "ADC0", signals := [portInput, analogInput] }

/-- The converter as it is read. -/
def converterRead : Peripheral := { name := "ADC", instances := some [converterInstance] }

theorem portPinNames_converter : converterDocument.portPinNames = .ok ["PA05"] := by cbv

theorem peripheral_converter :
    converterDocument.peripheral (.text "ADC") = .ok converterRead := by cbv

/-- The input at the port pin is defined, with the number and the mask of that pin. -/
theorem signals_at_portPins_converter :
    converterDocument.portPinNames = .ok ["PA05"] ∧
    converterDocument.peripheral (.text "ADC") = .ok converterRead ∧
    converterInstance ∈ converterRead.usableInstances ∧ portInput ∈ converterInstance.signals ∧
    portInput.pad ∈ ["PA05"] ∧
    ∃ pin mux, Pins.namedPinLines portInput.pad = .ok (Pins.pinLines portInput.pad pin) ∧
      Pins.signalLines converterInstance portInput
        = Pins.wiredLines converterInstance portInput pin mux := by
  have hi : converterInstance ∈ converterRead.usableInstances := List.mem_cons_self
  have hs : portInput ∈ converterInstance.signals := List.mem_cons_self
  have hmem : portInput.pad ∈ ["PA05"] := List.mem_cons_self
  have hfixed : Pins.isFixed portInput = false := by decide +kernel
  have hlength : (portInput.pad.toList.filter Text.isDecimal).length ≤ Numeral.longest := by
    decide +kernel
  obtain ⟨-, -, hlines, hdefined⟩ :=
    signals_at_portPins_iff portPinNames_converter peripheral_converter hi hs
  exact ⟨portPinNames_converter, peripheral_converter, hi, hs, hmem,
    hlines ((hdefined hmem).mpr ⟨hfixed, by decide, hlength⟩)⟩

/-- The input at the pad `AD12` is defined as if that were the pin 12 of the port `D`, but the only
port pin of the document is `PA05`. -/
theorem converter_not_at_portPin :
    converterDocument.portPinNames = .ok ["PA05"] ∧
    converterDocument.peripheral (.text "ADC") = .ok converterRead ∧
    converterInstance ∈ converterRead.usableInstances ∧ analogInput ∈ converterInstance.signals ∧
    analogInput.pad ∉ ["PA05"] ∧
    .define "PIN_AD12B_ADC0_AIN1" "_L_(108)" "ADC0 signal: AIN on AD12 mux B"
      ∈ Pins.signalLines converterInstance analogInput ∧
    .define "PORT_AD12B_ADC0_AIN1" "(_UL_(1) << 12)"
      ∈ Pins.signalLines converterInstance analogInput :=
  ⟨portPinNames_converter, peripheral_converter, List.mem_cons_self,
    List.mem_cons_of_mem _ List.mem_cons_self, by decide, by decide +kernel, by decide +kernel⟩

end Document

end ChipSupport
