import FieldBus.Wire.Byte

/-!
# The check byte

A checked frame ends with one byte computed from its body, which is every byte behind the opening
STX up to and including the ETX.  The plain check byte is the exclusive or of the body.  The
printable one is moved up by 0x20 if it would fall among the control bytes; two bodies whose plain
check bytes differ by 0x20 can then share one.
-/

namespace FieldBus

/-- How the check byte is finished. -/
inductive CheckMode where
  | plain
  /-- The exclusive or, moved up by 0x20 if it is below 0x20. -/
  | printable
  deriving DecidableEq

/-- The exclusive or of all bytes. -/
def parity (body : Bytes) : UInt8 := body.foldl (· ^^^ ·) 0

/-- The check byte that comes out of an exclusive or. -/
def CheckMode.finish : CheckMode → UInt8 → UInt8
  | plain, x => x
  | printable, x => if x < 0x20 then x + 0x20 else x

/-- The check byte of a body. -/
def checkByte (mode : CheckMode) (body : Bytes) : UInt8 := mode.finish (parity body)

/-- Whether a received check byte belongs to the body. -/
def checks (mode : CheckMode) (body : Bytes) (received : UInt8) : Bool :=
  checkByte mode body == received

end FieldBus
