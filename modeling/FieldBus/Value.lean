import FieldBus.Wire.Decimal

/-!
# Parameter values

A value is a whole number of at most five digits with its sign.  Where the decimal point belongs
is agreed per parameter and does not travel; `Value.scaled` puts it back.
-/

namespace FieldBus

/-- A signed value of at most five digits. -/
structure Value where
  number : Int
  le_number : -99999 ≤ number
  number_le : number ≤ 99999
  deriving DecidableEq

namespace Value

/-- The value of an integer, if it has at most five digits. -/
def ofInt (n : Int) : Except Fault Value :=
  if h : -99999 ≤ n ∧ n ≤ 99999 then .ok ⟨n, h.1, h.2⟩ else .error .valueOutOfRange

/-- The value of a parameter that was never written. -/
def zero : Value := ⟨0, by decide, by decide⟩

/-- The sign of a value on the wire; zero counts as positive. -/
def sign (value : Value) : UInt8 := if value.number < 0 then Byte.minus else Byte.plus

/-- The sign and the digits that stand for the value on the wire. -/
def field (value : Value) : Bytes := value.sign :: Decimal.shortest 5 value.number.natAbs

/-- `x` divided by ten, `n` times over; each quotient is rounded. -/
def tenth : (n : Nat) → (x : Float) → Float
  | 0, x => x
  | n + 1, x => tenth n (x / 10.0)

/-- The reading with so many decimals, of which there can be no more than five.  The point moves
by one place at a time, so the reading carries the rounding of each division. -/
def scaled (value : Value) (decimals : Nat) : Except Fault Float :=
  if decimals ≤ 5 then .ok (tenth decimals (Float.ofInt value.number)) else .error .valueOutOfRange

end Value

end FieldBus
