import FieldBus.Link.Basic

/-!
# Failing links

A `Faulty` link is another link with switches that make its operations fail.  A failing read or
write leaves the link as it is; a failing flush comes after the bytes were written.
-/

namespace FieldBus

/-- A link whose operations fail while their switches are on. -/
structure Faulty (L : Type) where
  link : L
  failRead : Bool
  failWrite : Bool
  failFlush : Bool
  deriving DecidableEq

namespace Faulty

variable {L : Type}

def sound (link : L) : Faulty L := ⟨link, false, false, false⟩

/-- Does something to the link behind the switches. -/
def modify (faulty : Faulty L) (change : L → L) : Faulty L :=
  { faulty with link := change faulty.link }

instance [Link L] : Link (Faulty L) where
  read faulty limit :=
    if faulty.failRead then
      (none, faulty)
    else
      let (bytes?, next) := Link.read faulty.link limit
      (bytes?, { faulty with link := next })
  write faulty message :=
    if faulty.failWrite then
      (none, faulty)
    else
      let (taken?, next) := Link.write faulty.link message
      (taken?, { faulty with link := next })
  flush faulty :=
    if faulty.failFlush then
      (false, faulty)
    else
      let (done, next) := Link.flush faulty.link
      (done, { faulty with link := next })

/-- A read that goes well is a read of the link behind the switches. -/
theorem read_eq_some [Link L] {faulty next : Faulty L} {limit : Nat} {bytes : Bytes}
    (h : Link.read faulty limit = (some bytes, next)) :
    Link.read faulty.link limit = (some bytes, next.link) := by
  simp only [Link.read] at h
  split at h
  · simp at h
  · obtain ⟨hbytes, rfl⟩ := Prod.mk.inj h
    rw [← hbytes]

instance [FiniteLink L] : FiniteLink (Faulty L) where
  left faulty := FiniteLink.left faulty.link
  left_read_lt h := FiniteLink.left_read_lt (read_eq_some h)

instance [EndingLink L] : EndingLink (Faulty L) where
  reads faulty := EndingLink.reads faulty.link
  reads_read_lt hlimit h := EndingLink.reads_read_lt hlimit (read_eq_some h)

end Faulty

end FieldBus
