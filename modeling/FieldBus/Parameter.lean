import FieldBus.Wire.Decimal

/-!
# Parameters

A station offers up to a thousand parameters, numbered 0 to 999 and ordered by their numbers.
-/

namespace FieldBus

/-- A parameter of a station, by its number. -/
structure Parameter where
  number : Nat
  number_le : number ≤ 999
  deriving DecidableEq

namespace Parameter

/-- The parameter with this number, if there can be one. -/
def ofInt (n : Int) : Except Fault Parameter :=
  if h : 0 ≤ n ∧ n ≤ 999 then .ok ⟨n.toNat, by omega⟩ else .error .invalidParameter

/-- The three digits that stand for the parameter on the wire. -/
def field (parameter : Parameter) : Bytes := Decimal.padded 3 parameter.number

instance : LT Parameter := ⟨fun p q => p.number < q.number⟩

instance (p q : Parameter) : Decidable (p < q) := inferInstanceAs (Decidable (p.number < q.number))

end Parameter

end FieldBus
