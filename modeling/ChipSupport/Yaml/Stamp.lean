import ChipSupport.Fault

/-!
# Days and moments in scalars

A day is spelled from the year to the day; a moment goes on with the time, possibly with a fraction
of a second and a distance from world time.

## Main definitions

* `Yaml.Stamp`, `Yaml.Stamp.read?` — the parts of a spelling.
* `Yaml.Stamp.value` — the day or moment, or what is wrong with it.
-/

namespace ChipSupport.Yaml

/-- A time of a day as it is spelled. -/
structure Clock where
  /-- The hour. -/
  hour : Nat
  /-- The minute. -/
  minute : Nat
  /-- The second. -/
  second : Nat
  /-- The digits of the fraction of a second. -/
  fraction : List Nat := []
  /-- The distance from world time. -/
  zone : Option Zone := none
  deriving DecidableEq, Repr, Inhabited

/-- A day or moment as it is spelled. -/
structure Stamp where
  /-- The day. -/
  date : Date
  /-- Whether month and day have two digits. -/
  isFull : Bool
  /-- The time. -/
  clock : Option Clock := none
  deriving DecidableEq, Repr, Inhabited

namespace Stamp

/-- The value of a digit. -/
def digit (c : Char) : Nat := c.toNat - 48

/-- The number of some digits at the beginning of a text, at least and at most as many as stated,
with their count and the rest. -/
def digits? (least most : Nat) (s : List Char) : Option (Nat × Nat × List Char) :=
  let run := (s.take most).takeWhile Char.isDigit
  if run.length < least then none
  else some (run.foldl (fun n c => n * 10 + digit c) 0, run.length, s.drop run.length)

/-- The rest of a text after a character. -/
def after? (x : Char) : List Char → Option (List Char)
  | c :: rest => if c = x then some rest else none
  | [] => none

/-- Whether a character is a blank between the parts of a moment. -/
def isGap (c : Char) : Bool := c == ' ' || c == '\t'

/-- Whether nothing but a line feed is left of a text. -/
def isEnd (s : List Char) : Bool := s.isEmpty || s == ['\n']

/-- The minutes after the hours of a distance from world time, with the rest. -/
def zoneMinutes? : List Char → Option (Nat × List Char)
  | ':' :: rest => (digits? 2 2 rest).map fun m => (m.1, m.2.2)
  | rest => some (0, rest)

/-- The distance from world time that is all that is left of a text, if there is one. -/
def zone? (s : List Char) : Option (Option Zone) :=
  match s.dropWhile isGap with
  | 'Z' :: rest => if isEnd rest then some (some ⟨0, "Z"⟩) else none
  | sign :: body =>
    if sign == '+' || sign == '-' then do
      let (hours, _, rest) ← digits? 1 2 body
      let (minutes, rest) ← zoneMinutes? rest
      let offset : Int := (hours * 60 + minutes : Nat)
      let name := String.ofList (sign :: body.takeWhile (· != '\n'))
      if isEnd rest then some (some ⟨if sign == '-' then -offset else offset, name⟩) else none
    else if isEnd s then some none
    else none
  | [] => if s.isEmpty then some none else none

/-- The time that is all that is left of a text. -/
def clock? (s : List Char) : Option Clock := do
  let (hour, _, rest) ← digits? 1 2 s
  let (minute, _, rest) ← digits? 2 2 (← after? ':' rest)
  let (second, _, rest) ← digits? 2 2 (← after? ':' rest)
  let fraction := match rest with
    | '.' :: more => more.takeWhile Char.isDigit
    | _ => []
  let rest := match rest with
    | '.' :: more => more.drop fraction.length
    | rest => rest
  let zone ← zone? rest
  return { hour, minute, second, fraction := fraction.map digit, zone }

/-- The parts of a spelling. -/
def read? (s : List Char) : Option Stamp := do
  let (year, _, rest) ← digits? 4 4 s
  let (month, n, rest) ← digits? 1 2 (← after? '-' rest)
  let (day, k, rest) ← digits? 1 2 (← after? '-' rest)
  let stamp : Stamp := { date := ⟨year, month, day⟩, isFull := n == 2 && k == 2 }
  match rest with
  | [] | ['\n'] => return stamp
  | c :: more =>
    let clock ←
      if c == 'T' || c == 't' then clock? more
      else if isGap c then clock? (more.dropWhile isGap)
      else none
    return { stamp with clock := some clock }

/-- Whether a text is spelled like a day or moment: without a time, month and day have two
digits. -/
def isSpelled (s : List Char) : Bool := (read? s).any fun t => t.isFull || t.clock.isSome

/-- A fraction of a second in microseconds, rounded by its seventh digit. -/
def micros (fraction : List Nat) : Nat :=
  let shown := (fraction ++ List.replicate 6 0).take 6
  shown.foldl (fun n d => n * 10 + d) 0 + if 4 < (fraction[6]?).getD 0 then 1 else 0

/-- The moment of a day and time.  A fraction that rounds to a whole second is one. -/
def moment (date : Date) (c : Clock) : Except Fault Moment :=
  let micro := micros c.fraction
  let m : Moment :=
    { date, hour := c.hour, minute := c.minute, second := c.second, zone := c.zone
      micro := if micro < 1000000 then micro else 0 }
  match m.problem? with
  | some p => .error (.dateInvalid p)
  | none =>
    if micro < 1000000 then .ok m
    else match m.next? with
      | some m => .ok m
      | none => .error .dateTooLate

end Stamp

end ChipSupport.Yaml
