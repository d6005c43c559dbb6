import ChipSupport.Device.Peripheral
import ChipSupport.Line
import ChipSupport.Note
import ChipSupport.Text.Numeral.Parse

/-!
# Port pins

Definitions for the pins of the ports, and for the signals of instances that can be connected to
them.  A pin is named by the letter of its port and its number, such as `PB12`.

## Main definitions

* `Pin` — the port and number of a pin.
* `Pin.ofName`, `Pin.ofPad?` — a pin from its name, and a pad as a pin if it is one.
* `Pins.pinLines`, `Pins.signalLines` — the definitions of pins and signals.
* `Pins.lines` — all of them.
-/

namespace ChipSupport

/-- A pin of a port. -/
structure Pin where
  /-- The letter of the port. -/
  port : Char
  /-- The number of the pin. -/
  number : Int
  deriving DecidableEq, Repr, Inhabited

namespace Pin

/-- The pin of a name.  Without a port, that is the fault that is found first. -/
def ofName (name : String) : Except Fault Pin :=
  match name.toList with
  | _ :: port :: digits => (Numeral.parse 10 digits).map fun n => ⟨port, n⟩
  | _ => .error .positionOutside

/-- The pin at a pad, if the pad is a port pin. -/
def ofPad? (pad : String) : Option Pin :=
  match pad.toList with
  | _ :: port :: digits => (Numeral.parse 10 digits).toOption.map fun n => ⟨port, n⟩
  | _ => none

/-- A letter as a number, from zero for `A`. -/
def letterIndex (c : Char) : Int := (c.toNat : Int) - 65

/-- The number of a pin among those of all ports. -/
def index (p : Pin) : Int := 32 * letterIndex p.port + p.number

/-- Whether a pin does not come after another. -/
def le (p q : Pin) : Bool :=
  decide (p.port.toNat < q.port.toNat) || (p.port == q.port && decide (p.number ≤ q.number))

end Pin

namespace Pins

/-- The mask of a pin within its port. -/
def maskText (p : Pin) : String := "(_UL_(1) << " ++ Numeral.decimal p.number ++ ")"

/-- The definitions of a pin. -/
def pinLines (name : String) (p : Pin) : List Line :=
  [.define ("PIN_" ++ name) ("(" ++ Numeral.decimal p.index ++ ")") ("Pin number for " ++ name),
    .define ("PORT_" ++ name) (maskText p) ("Port mask for " ++ name)]

/-- The definitions of a pin of a name. -/
def namedPinLines (name : String) : Except Fault (List Line) :=
  (Pin.ofName name).map (pinLines name)

/-- Whether a signal is wired without a pin function. -/
def isFixed (s : Signal) : Bool := Text.lower s.function == "default"

/-- The pin of a signal and the number of its pin function, if it has both. -/
def wiring? (s : Signal) : Option (Pin × Int) :=
  match Pin.ofPad? s.pad, s.function.toList with
  | some pin, function :: _ => some (pin, Pin.letterIndex function)
  | _, _ => none

/-- The definitions of a signal at a pin. -/
def wiredLines (inst : Instance) (s : Signal) (pin : Pin) (mux : Int) : List Line :=
  let name := s.pad ++ s.function ++ "_" ++ inst.name ++ "_" ++ s.group ++ s.index
  let note := inst.name ++ " signal: " ++ s.group ++ " on " ++ s.pad ++ " mux " ++ s.function
  [.define ("PIN_" ++ name) ("_L_(" ++ Numeral.decimal pin.index ++ ")") note,
    .define ("MUX_" ++ name) ("_L_(" ++ Numeral.decimal mux ++ ")"),
    .define ("PINMUX_" ++ name) ("((PIN_" ++ name ++ " << 16) | MUX_" ++ name ++ ")"),
    .define ("PORT_" ++ name) (maskText pin),
    .define ("PIO_" ++ name) (maskText pin),
    Line.blank]

/-- The definitions of a signal; none if it has no pin. -/
def signalLines (inst : Instance) (s : Signal) : List Line :=
  if isFixed s then []
  else match wiring? s with
    | some (pin, mux) => wiredLines inst s pin mux
    | none => []

/-- The definitions of the signals of an instance. -/
def instanceLines (inst : Instance) : List Line :=
  .text ("/*********** Pio macros for peripheral instance " ++ inst.name ++ " ***********/")
    :: inst.signals.flatMap (signalLines inst)

/-- The names of pins in the order of ports and numbers. -/
def sortedNames (names : List String) : Except Fault (List (String × Pin)) := do
  let pins ← names.mapM fun name => (Pin.ofName name).map fun p => (name, p)
  return pins.mergeSort fun a b => a.2.le b.2

/-- The definitions of all pins and signals. -/
def lines (names : List String) (ps : List Peripheral) : Except Fault (List Line) := do
  let pins ← sortedNames names
  return pins.flatMap (fun p => pinLines p.1 p.2)
    ++ (ps.flatMap Peripheral.usableInstances).flatMap fun i => Line.blank :: instanceLines i

/-- The notes on what has no definitions. -/
def notes (ps : List Peripheral) : List Note :=
  ps.flatMap fun p =>
    match p.instances with
    | none => [⟨.detail, .instances, "skipping instances: " ++ p.problem⟩]
    | some instances => instances.flatMap fun i => i.signals.filterMap fun s =>
      if !isFixed s && (wiring? s).isNone then
        some ⟨.detail, .instances, i.name ++ ": pad " ++ s.pad ++ " is not a port pin"⟩
      else none

end Pins

end ChipSupport
