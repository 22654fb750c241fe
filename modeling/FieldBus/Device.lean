import FieldBus.Parameter
import FieldBus.Value

/-!
# Devices

A `Device` is what a station has behind its bus connection: something that can be asked for the
value of a parameter, told a new one, and asked whether it is there.  It may change with each of
these.  `FixedAnswers` is the simplest one: it gives the same answers for ever.
-/

namespace FieldBus

/-- What a station controls or measures. -/
class Device (D : Type) where
  onRead : D → Parameter → Except Fault Value × D
  onWrite : D → Parameter → Value → Except Fault Unit × D
  /-- Whether the device is there when its station is selected. -/
  onSelect : D → Bool × D := fun device => (true, device)

/-- A device that gives the same answers for ever and takes over nothing. -/
structure FixedAnswers where
  read : Except Fault Value
  write : Except Fault Unit
  select : Bool

instance : Device FixedAnswers where
  onRead device _ := (device.read, device)
  onWrite device _ _ := (device.write, device)
  onSelect device := (device.select, device)

end FieldBus
