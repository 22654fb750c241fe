import FieldBus.Wire.Decimal

/-!
# Stations

A bus has up to a hundred stations, numbered 0 to 99.
-/

namespace FieldBus

/-- A station on the bus, by its number. -/
structure Station where
  number : Nat
  number_le : number ≤ 99
  deriving DecidableEq

namespace Station

/-- The station with this number, if there can be one. -/
def ofInt (n : Int) : Except Fault Station :=
  if h : 0 ≤ n ∧ n ≤ 99 then .ok ⟨n.toNat, by omega⟩ else .error .invalidAddress

/-- The two digits that stand for the station on the wire. -/
def field (station : Station) : Bytes := Decimal.padded 2 station.number

end Station

end FieldBus
