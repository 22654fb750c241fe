import FieldBus.Link.Basic
import FieldBus.Link.Outbox

/-!
# A scripted link

A `Script` is a link whose reads are written down beforehand: each entry is what one read gives,
bytes (perhaps none) or a failure.  An entry that is longer than the read asks for is served in
parts.  Behind the end of the script every read fails, so reads run out.
-/

namespace FieldBus

/-- The reads to come, and an outbox for what is written. -/
structure Script where
  entries : List (Option Bytes)
  outbox : Outbox
  deriving DecidableEq

namespace Script

def ofEntries (entries : List (Option Bytes)) : Script := ⟨entries, .empty⟩

def load (script : Script) (entries : List (Option Bytes)) : Script :=
  { script with entries := entries }

/-- Serves the next entry, or as much of it as the read asks for. -/
def read (script : Script) (limit : Nat) : Option Bytes × Script :=
  match script.entries with
  | [] => (none, script)
  | none :: rest => (none, { script with entries := rest })
  | some bytes :: rest =>
    if bytes.length ≤ limit then
      (some bytes, { script with entries := rest })
    else
      (some (bytes.take limit), { script with entries := some (bytes.drop limit) :: rest })

def clearWritten (script : Script) : Script := { script with outbox := script.outbox.clear }

def limitWrites (script : Script) (n : Nat) : Script :=
  { script with outbox := script.outbox.limit n }

/-- The reads that entries are good for: at most one for each byte, and one more for each entry. -/
def readsLeft : List (Option Bytes) → Nat
  | [] => 0
  | none :: rest => readsLeft rest + 1
  | some bytes :: rest => readsLeft rest + bytes.length + 1

/-- A read that gives bytes leaves fewer reads. -/
theorem readsLeft_read_lt {script next : Script} {limit : Nat} {bytes : Bytes}
    (hlimit : 0 < limit) (h : script.read limit = (some bytes, next)) :
    readsLeft next.entries < readsLeft script.entries := by
  unfold read at h
  split at h
  · simp at h
  · simp at h
  · next served rest hentries =>
    rw [hentries]
    split at h
    · obtain ⟨_, rfl⟩ := Prod.mk.inj h
      simp only [readsLeft]
      omega
    · obtain ⟨_, rfl⟩ := Prod.mk.inj h
      simp only [readsLeft, List.length_drop]
      omega

instance : Link Script where
  read := read
  write script message :=
    let (taken, outbox) := script.outbox.write message
    (some taken, { script with outbox := outbox })
  flush script := (true, script)

instance : EndingLink Script where
  reads script := readsLeft script.entries
  reads_read_lt := readsLeft_read_lt

end Script

end FieldBus
