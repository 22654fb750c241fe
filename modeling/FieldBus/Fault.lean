/-!
# What can go wrong on the bus

Every operation that can fail fails with a `Fault`, which names the cause.  A fault has a number
and a line of text, so that a host system can carry it among its own error numbers.

* `Fault` — the eleven causes.
* `Fault.code`, `Fault.ofCode?` — the numbering, from 1 to 11.
* `Fault.text` — the line of text.
* `Status` — a host error number within the domain of this protocol.  Zero means that nothing is
  wrong; only the low eight bits select the text.
-/

namespace FieldBus

/-- The cause of a failure. -/
inductive Fault where
  /-- A control byte where the frame layout has no place for one, or a frame out of turn. -/
  | framing
  /-- The check byte does not match the frame body. -/
  | checksum
  /-- A byte that should have been a decimal digit. -/
  | invalidDigit
  /-- A station number outside 0 to 99. -/
  | invalidAddress
  /-- A parameter number outside 0 to 999, or a parameter that does not exist. -/
  | invalidParameter
  /-- A value outside -99999 to 99999. -/
  | valueOutOfRange
  /-- More bytes than the place for them holds. -/
  | overflow
  /-- An operation that the current state of the exchange does not allow. -/
  | sequence
  /-- No answer in time. -/
  | timedOut
  /-- The other side refused the request. -/
  | rejected
  /-- The link failed to carry bytes. -/
  | transport
  deriving DecidableEq

namespace Fault

/-- The number of a fault, from 1 to 11. -/
def code : Fault → Nat
  | framing => 1
  | checksum => 2
  | invalidDigit => 3
  | invalidAddress => 4
  | invalidParameter => 5
  | valueOutOfRange => 6
  | overflow => 7
  | sequence => 8
  | timedOut => 9
  | rejected => 10
  | transport => 11

/-- The fault that a number stands for, if it stands for one. -/
def ofCode? : Nat → Option Fault
  | 1 => some framing
  | 2 => some checksum
  | 3 => some invalidDigit
  | 4 => some invalidAddress
  | 5 => some invalidParameter
  | 6 => some valueOutOfRange
  | 7 => some overflow
  | 8 => some sequence
  | 9 => some timedOut
  | 10 => some rejected
  | 11 => some transport
  | _ => none

theorem ofCode?_code (fault : Fault) : ofCode? fault.code = some fault := by
  cases fault <;> rfl

def text : Fault → String
  | framing => "framing error"
  | checksum => "checksum error"
  | invalidDigit => "invalid digit"
  | invalidAddress => "invalid address"
  | invalidParameter => "invalid parameter"
  | valueOutOfRange => "value out of range"
  | overflow => "buffer overflow"
  | sequence => "sequence error"
  | timedOut => "timed out"
  | rejected => "rejected by peer"
  | transport => "transport error"

/-- The line of text for a number, also for one that stands for no fault. -/
def textOfCode (code : Nat) : String :=
  ((ofCode? code).map text).getD "unknown error"

end Fault

/-- An error number as a host system carries it, in the domain of this protocol. -/
structure Status where
  number : Int
  deriving DecidableEq

namespace Status

/-- The name under which a host system lists the error numbers of this protocol. -/
def domain : String := "x328"

/-- The status that reports the fault with this number. -/
def ofCode (code : Nat) : Status := ⟨code⟩

/-- Whether the status reports anything at all: zero means success. -/
def isSet (status : Status) : Bool := status.number != 0

/-- The line of text.  A host number may be any integer; its low eight bits are the fault's. -/
def message (status : Status) : String :=
  Fault.textOfCode (status.number % 256).toNat

end Status

end FieldBus
