import FieldBus.Frame.Basic

/-!
# Orders

A host may write a request with plain integers.  Such an `Order` becomes a request when every
number is in range; otherwise the first that is not decides the fault, in the order station,
parameter, value.
-/

namespace FieldBus

/-- A request with numbers that nobody has checked. -/
inductive Order where
  | read (station parameter : Int)
  | write (station parameter value : Int)
  | select (station : Int)
  deriving DecidableEq

/-- The request that an order stands for. -/
def Order.check : Order → Except Fault Request
  | .read station parameter => do
    let s ← Station.ofInt station
    let p ← Parameter.ofInt parameter
    return .read s p
  | .write station parameter value => do
    let s ← Station.ofInt station
    let p ← Parameter.ofInt parameter
    let v ← Value.ofInt value
    return .write s p v
  | .select station => do
    let s ← Station.ofInt station
    return .select s

end FieldBus
