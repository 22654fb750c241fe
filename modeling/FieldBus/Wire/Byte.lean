import FieldBus.Fault

/-!
# The alphabet of the wire

Frames are built from ASCII decimal digits, the two signs and six control bytes.  `Byte` names
the bytes that carry structure and sorts all others into classes.

* `Byte.stx` … `Byte.nak` — the control bytes; `Byte.isControl` holds of exactly these six.
* `Byte.plus`, `Byte.minus` — the signs in front of a value.
* `Byte.ofDigit`, `Byte.digit` — a decimal digit as a byte, and back.
-/

namespace FieldBus

/-- A run of bytes, in the order in which they travel. -/
abbrev Bytes := List UInt8

namespace Byte

/-- Start of text: opens a checked frame. -/
def stx : UInt8 := 0x02

/-- End of text: closes the body of a checked frame; the check byte follows. -/
def etx : UInt8 := 0x03

/-- End of transmission: opens a select sequence, or, as a reply, refuses the parameter. -/
def eot : UInt8 := 0x04

/-- Enquiry: closes a select sequence. -/
def enq : UInt8 := 0x05

def ack : UInt8 := 0x06

def nak : UInt8 := 0x15

/-- The sign of a value that is not negative. -/
def plus : UInt8 := 0x2B

/-- The sign of a negative value. -/
def minus : UInt8 := 0x2D

def isDigit (b : UInt8) : Bool := 0x30 ≤ b && b ≤ 0x39

def isSign (b : UInt8) : Bool := b == plus || b == minus

/-- Whether the byte is one of the six control bytes. -/
def isControl (b : UInt8) : Bool :=
  b == stx || b == etx || b == eot || b == enq || b == ack || b == nak

/-- Whether a frame that opens with this byte may interrupt another one. -/
def opensFrame (b : UInt8) : Bool := b == stx || b == eot

/-- The byte for the last decimal digit of a number. -/
def ofDigit (n : Nat) : UInt8 := UInt8.ofNat (0x30 + n % 10)

def digit (b : UInt8) : Except Fault Nat :=
  if isDigit b then .ok (b.toNat - 0x30) else .error .invalidDigit

end Byte

end FieldBus
