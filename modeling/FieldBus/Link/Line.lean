import FieldBus.Link.Basic
import FieldBus.Link.Outbox

/-!
# A line in memory

A `Line` is a link without a wire, for trying out the ends of a bus.  Reading serves bytes that
were queued beforehand; writing collects bytes in an outbox, apart from the queue.  Served bytes
are remembered, so that the queue can be wound back.

* `Line.load`, `Line.queue`, `Line.rewind` — replace the queue, add to its end, serve it again.
* `Line.read` — serves queued bytes.  What was served and what is left, one after the other, are
  always the queue (`queued_read`).
* `Line.readInto` — the same into a destination; what lies behind the bytes stays as it is.
-/

namespace FieldBus

/-- A queue of bytes to read, part of it already served, and an outbox for what is written. -/
structure Line where
  served : Bytes
  unread : Bytes
  outbox : Outbox
  deriving DecidableEq

namespace Line

def empty : Line := ⟨[], [], .empty⟩

/-- Everything that was queued, served or not. -/
def queued (line : Line) : Bytes := line.served ++ line.unread

def load (line : Line) (bytes : Bytes) : Line := { line with served := [], unread := bytes }

def queue (line : Line) (bytes : Bytes) : Line := { line with unread := line.unread ++ bytes }

/-- Serves the queue from its beginning again. -/
def rewind (line : Line) : Line := { line with served := [], unread := line.queued }

def hasData (line : Line) : Bool := !line.unread.isEmpty

def available (line : Line) : Nat := line.unread.length

/-- Serves the next bytes of the queue, at most so many. -/
def read (line : Line) (limit : Nat) : Bytes × Line :=
  (line.unread.take limit,
    { line with
      served := line.served ++ line.unread.take limit
      unread := line.unread.drop limit })

/-- Serves as many bytes as the destination holds, puts them at its front, and tells how many
there were. -/
def readInto (line : Line) (destination : Bytes) : Nat × Bytes × Line :=
  let (bytes, next) := line.read destination.length
  (bytes.length, bytes ++ destination.drop bytes.length, next)

/-- Writes to the outbox, and tells how many bytes it took. -/
def write (line : Line) (message : Bytes) : Nat × Line :=
  let (taken, outbox) := line.outbox.write message
  (taken, { line with outbox := outbox })

def clearWritten (line : Line) : Line := { line with outbox := line.outbox.clear }

def limitWrites (line : Line) (n : Nat) : Line := { line with outbox := line.outbox.limit n }

/-- Reading neither loses nor repeats a byte. -/
theorem queued_read (line : Line) (limit : Nat) : (line.read limit).2.queued = line.queued := by
  simp [read, queued]

instance : Link Line where
  read line limit := let (bytes, next) := line.read limit; (some bytes, next)
  write line message := let (taken, next) := line.write message; (some taken, next)
  flush line := (true, line)

instance : FiniteLink Line where
  left := available
  left_read_lt := by
    intro line next limit bytes hread hne
    obtain ⟨hbytes, rfl⟩ := Prod.mk.inj hread
    obtain rfl := Option.some.inj hbytes
    simp only [ne_eq, List.take_eq_nil_iff, not_or] at hne
    have hpos := List.length_pos_iff.mpr hne.2
    simp only [available, List.length_drop]
    omega

end Line

end FieldBus
