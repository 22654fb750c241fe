import FieldBus.Wire.Byte

/-!
# Links

A `Link` carries bytes between this end of a bus and the other.  It is any state at all together
with three operations, each of which may fail: read some bytes, write some bytes, and see to it
that written bytes leave.

How long a reader goes on depends on the link.  The two classes below say what it takes for reading
to come to an end, by a number that falls:

* `FiniteLink` — bytes run out: a read that gives bytes leaves less to read.  A read that gives
  none need not change anything.
* `EndingLink` — reads run out: every read leaves less to read, or fails.
-/

namespace FieldBus

/-- Something that carries bytes. -/
class Link (L : Type) where
  /-- Reads at most so many bytes that have come in, perhaps none; `none` if reading fails. -/
  read : L → Nat → Option Bytes × L
  /-- Writes bytes, and tells how many of them were taken; `none` if writing fails. -/
  write : L → Bytes → Option Nat × L
  /-- Sends what was written on its way, and tells whether that went well. -/
  flush : L → Bool × L

/-- A link on which bytes run out. -/
class FiniteLink (L : Type) extends Link L where
  /-- How much there is left to read. -/
  left : L → Nat
  left_read_lt {link next : L} {limit : Nat} {bytes : Bytes} :
    read link limit = (some bytes, next) → bytes ≠ [] → left next < left link

/-- A link on which reads run out. -/
class EndingLink (L : Type) extends Link L where
  /-- How many reads there are left, at most. -/
  reads : L → Nat
  reads_read_lt {link next : L} {limit : Nat} {bytes : Bytes} :
    0 < limit → read link limit = (some bytes, next) → reads next < reads link

namespace Link

/-- The most bytes that one read asks for. -/
def readLimit : Nat := 128

/-- Writes a message in one piece and sends it on its way.  A message that is not taken whole is
not sent on. -/
def send {L : Type} [Link L] (link : L) (message : Bytes) : Bool × L :=
  let (taken?, written) := write link message
  if taken? = some message.length then flush written else (false, written)

end Link

end FieldBus
