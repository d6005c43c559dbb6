import ChipSupport.Device.Peripheral
import ChipSupport.Device.Interrupt

/-!
# Devices

What a device document says of the device as a whole.
-/

namespace ChipSupport

/-- A segment of the memory of a device. -/
structure MemorySegment where
  /-- The name. -/
  name : String
  /-- The first address. -/
  start : Int
  /-- The number of bytes. -/
  size : Int
  /-- The size of a page in bytes, or zero. -/
  pageSize : Int := 0
  /-- The kind of memory. -/
  kind : String := ""
  deriving DecidableEq, Repr, Inhabited

/-- An event that peripherals can send or receive. -/
structure Event where
  /-- The name. -/
  name : String
  /-- The number. -/
  index : Int
  /-- The instance that sends or receives it. -/
  instanceName : String := ""
  deriving DecidableEq, Repr, Inhabited

/-- A device. -/
structure Device where
  /-- The name. -/
  name : String
  /-- The processor core. -/
  architecture : String := ""
  /-- The family. -/
  family : String := ""
  /-- The series. -/
  series : String := ""
  /-- The parameters of the processor core. -/
  parameters : List NamedValue := []
  /-- The signatures. -/
  signatures : List NamedValue := []
  /-- The electrical characteristics. -/
  electrical : List NamedValue := []
  /-- The memory segments of the main address space. -/
  segments : List MemorySegment := []
  deriving DecidableEq, Repr, Inhabited

end ChipSupport
