import FieldBus.Wire.Byte

/-!
# What was written

The writing side of a link that lives in memory: an `Outbox` collects the bytes and may take no
more than so many of each write.
-/

namespace FieldBus

/-- The bytes that were written, and the most that one write may add. -/
structure Outbox where
  written : Bytes
  limit? : Option Nat
  deriving DecidableEq

namespace Outbox

def empty : Outbox := ⟨[], none⟩

/-- The part of a message that one write takes. -/
def accepted (outbox : Outbox) (message : Bytes) : Bytes :=
  match outbox.limit? with
  | none => message
  | some limit => message.take limit

/-- Writes a message, and tells how many of its bytes were taken. -/
def write (outbox : Outbox) (message : Bytes) : Nat × Outbox :=
  ((outbox.accepted message).length,
    { outbox with written := outbox.written ++ outbox.accepted message })

def clear (outbox : Outbox) : Outbox := { outbox with written := [] }

def limit (outbox : Outbox) (n : Nat) : Outbox := { outbox with limit? := some n }

end Outbox

end FieldBus
