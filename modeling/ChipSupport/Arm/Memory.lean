import ChipSupport.Device
import ChipSupport.Note
import ChipSupport.Script.Region

/-!
# Memory plan of an Arm device

Main flash becomes the region `rom` and main memory the region `ram`, which every script needs.
Tightly coupled memories and external memories have regions as well, and other segments have none.
Of several segments for one region the first one counts.

## Main definitions

* `planSegment?` — the region of a segment.
* `Device.memoryPlan` — the regions by address, or the fault that one is missing.
-/

namespace ChipSupport

/-- The regions of segments with fixed names. -/
def namedRegions : List (String × String × Access) :=
  [("IFLASH", "rom", Access.execute + Access.read),
    ("FLASH", "rom", Access.execute + Access.read),
    ("ITCM", "itcm", Access.all),
    ("IRAM", "ram", Access.all),
    ("HSRAM", "ram", Access.all),
    ("HMCRAMC0", "ram", Access.all),
    ("DTCM", "dtcm", Access.all)]

/-- What the names of external memories start with. -/
def externalMemories : List String := ["EBI", "SQI", "QSPI", "SDRAM"]

/-- The region of a segment, unless the script ignores it. -/
def planSegment? (s : MemorySegment) : Option Region :=
  let name := Text.upper s.name
  match namedRegions.lookup name with
  | some (region, access) => some ⟨region, s.start, s.size, access⟩
  | none =>
    if externalMemories.any fun m => m.toList.isPrefixOf name.toList then
      some ⟨Text.lower s.name, s.start, s.size, 0⟩
    else none

/-- The note on a segment that the script ignores. -/
def segmentNote? (s : MemorySegment) : Option Note :=
  if (planSegment? s).isNone then
    some ⟨.detail, .armScripts,
      "memory segment " ++ s.name ++ " is not used by the linker script"⟩
  else none

/-- The regions whose names are not among those seen before. -/
def firstOfEachName (seen : List String) : List Region → List Region
  | [] => []
  | r :: rest =>
    if seen.contains r.name then firstOfEachName seen rest
    else r :: firstOfEachName (r.name :: seen) rest

namespace Device

/-- The regions of the segments in their order, the first of each name. -/
def plannedRegions (d : Device) : List Region :=
  firstOfEachName [] (d.segments.filterMap planSegment?)

/-- The regions that every script needs. -/
def neededRegions : List String := ["rom", "ram"]

/-- The regions of the device by address, or the fault that one is missing. -/
def memoryPlan (d : Device) : Except Fault (List Region) :=
  let regions := d.plannedRegions
  match neededRegions.find? fun n => !(regions.map Region.name).contains n with
  | some missing => .error (.regionMissing d.name missing)
  | none => .ok (Region.sorted regions)

/-- The notes on segments without a region. -/
def planNotes (d : Device) : List Note := d.segments.filterMap segmentNote?

end Device

end ChipSupport
