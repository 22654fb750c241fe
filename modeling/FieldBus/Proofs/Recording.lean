import FieldBus.Proofs.Answering
import Mathlib.Tactic.Common

/-!
# Devices and links that remember

What a server asks its device, and what passes over its link, can be read off a device and a link
that remember it and otherwise do what the device and the link that they stand for do.

* `Logged` — a device with the calls that were put to it.  What it makes of calls is what the device
  makes of them, and its log grows by those that are put to a device at all (`Call.replies_logged`).
* `Tapped` — a link with what reading gave, what writing took, and whether anything failed.
* `Server.collect_tapped`, **`Link.sendEach_tapped`** — the two things that a server does with a
  link, as its tap remembers them.
-/

namespace FieldBus

/-! ## Devices -/

/-- A device and the calls that were put to it, in their order. -/
structure Logged (D : Type) where
  device : D
  log : List Call
  deriving DecidableEq

/-- Whether a device is asked about a call.  About a broken frame it is not. -/
def Call.isAsked : Call → Bool
  | malformed _ => false
  | _ => true

section Logged

variable {D : Type} [Device D]

instance : Device (Logged D) where
  onRead logged parameter :=
    let (answer, next) := Device.onRead logged.device parameter
    (answer, ⟨next, logged.log ++ [.read parameter]⟩)
  onWrite logged parameter value :=
    let (answer, next) := Device.onWrite logged.device parameter value
    (answer, ⟨next, logged.log ++ [.write parameter value]⟩)
  onSelect logged :=
    let (answer, next) := Device.onSelect logged.device
    (answer, ⟨next, logged.log ++ [.select]⟩)

lemma Call.reply_logged (logged : Logged D) (call : Call) :
    call.reply logged = ((call.reply logged.device).1,
      ⟨(call.reply logged.device).2, logged.log ++ [call].filter Call.isAsked⟩) := by
  cases call with
  | read parameter =>
      rcases h : Device.onRead logged.device parameter with ⟨_ | _, _⟩ <;>
        simp [Call.reply, Device.onRead, List.filter_cons, isAsked, h]
  | write parameter value =>
      rcases h : Device.onWrite logged.device parameter value with ⟨_ | _, _⟩ <;>
        simp [Call.reply, Device.onWrite, List.filter_cons, isAsked, h]
  | select =>
      rcases h : Device.onSelect logged.device with ⟨_ | _, _⟩ <;>
        simp [Call.reply, Device.onSelect, List.filter_cons, isAsked, h]
  | malformed fault => simp [Call.reply, isAsked]

lemma Call.replies_logged (logged : Logged D) (calls : List Call) :
    Call.replies logged calls = ((Call.replies logged.device calls).1,
      ⟨(Call.replies logged.device calls).2, logged.log ++ calls.filter Call.isAsked⟩) := by
  induction calls generalizing logged with
  | nil => simp
  | cons call rest ih =>
      rw [Call.replies_cons, Call.reply_logged, ih, Call.replies_cons, List.append_assoc,
        ← List.filter_append, List.singleton_append]

end Logged

/-! ## Links -/

/-- What passed over a link: the bytes that reading gave, those that writing took, and whether an
operation failed or a message was not taken whole. -/
structure Tap where
  taken : Bytes
  written : Bytes
  failed : Bool
  deriving DecidableEq

namespace Tap

def start : Tap := ⟨[], [], false⟩

def read (tap : Tap) : Option Bytes → Tap
  | some bytes => { tap with taken := tap.taken ++ bytes }
  | none => { tap with failed := true }

@[simp] lemma written_read (tap : Tap) (bytes? : Option Bytes) :
    (tap.read bytes?).written = tap.written := by
  cases bytes? <;> rfl

def write (tap : Tap) (message : Bytes) (taken? : Option Nat) : Tap :=
  { tap with
    written := tap.written ++ message.take (taken?.getD 0)
    failed := tap.failed || taken? != some message.length }

def flush (tap : Tap) (done : Bool) : Tap := { tap with failed := tap.failed || !done }

end Tap

/-- A link and what passed over it. -/
structure Tapped (L : Type) where
  link : L
  tap : Tap
  deriving DecidableEq

namespace Tapped

variable {L : Type}

instance [Link L] : Link (Tapped L) where
  read tapped limit :=
    let (bytes?, next) := Link.read tapped.link limit
    (bytes?, ⟨next, tapped.tap.read bytes?⟩)
  write tapped message :=
    let (taken?, next) := Link.write tapped.link message
    (taken?, ⟨next, tapped.tap.write message taken?⟩)
  flush tapped :=
    let (done, next) := Link.flush tapped.link
    (done, ⟨next, tapped.tap.flush done⟩)

instance [FiniteLink L] : FiniteLink (Tapped L) where
  left tapped := FiniteLink.left tapped.link
  left_read_lt := by
    intro tapped next limit bytes hread
    obtain ⟨hbytes, rfl⟩ := Prod.mk.inj hread
    exact FiniteLink.left_read_lt (Prod.ext hbytes rfl)

instance [EndingLink L] : EndingLink (Tapped L) where
  reads tapped := EndingLink.reads tapped.link
  reads_read_lt := by
    intro tapped next limit bytes hlimit hread
    obtain ⟨hbytes, rfl⟩ := Prod.mk.inj hread
    exact EndingLink.reads_read_lt hlimit (Prod.ext hbytes rfl)

end Tapped

variable {L : Type}

/-- A message is sent without a failure exactly if it was written whole and sent on its way. -/
lemma Link.send_tapped [Link L] (tapped : Tapped L) (message : Bytes) :
    (Link.send tapped message).2.tap.taken = tapped.tap.taken ∧
      (Link.send tapped message).2.tap.failed
        = (tapped.tap.failed || !(Link.send tapped message).1) ∧
      ((Link.send tapped message).1 = true →
        (Link.send tapped message).2.tap.written = tapped.tap.written ++ message) := by
  rcases hwrite : Link.write tapped.link message with ⟨taken?, written⟩
  by_cases hwhole : taken? = some message.length
  · rcases hflush : Link.flush written with ⟨done, next⟩
    simp [Link.send, Link.write, Link.flush, Tap.write, Tap.flush, hwrite, hwhole, hflush]
  · simp [Link.send, Link.write, Tap.write, hwrite, hwhole]

/-- **Sending messages**: a tap that shows no failure shows all of them, one after the other. -/
theorem Link.sendEach_tapped [Link L] (tapped : Tapped L) (messages : List Bytes) :
    (Link.sendEach tapped messages).2.tap.taken = tapped.tap.taken ∧
      (Link.sendEach tapped messages).2.tap.failed
        = (tapped.tap.failed || !(Link.sendEach tapped messages).1) ∧
      ((Link.sendEach tapped messages).1 = true →
        (Link.sendEach tapped messages).2.tap.written
          = tapped.tap.written ++ messages.flatten) := by
  induction messages generalizing tapped with
  | nil => simp [Link.sendEach]
  | cons message rest ih =>
      obtain ⟨htaken, hfailed, hwritten⟩ := Link.send_tapped tapped message
      rcases hsend : Link.send tapped message with ⟨_ | _, next⟩
      · rw [hsend] at htaken hfailed
        rw [Link.sendEach, hsend]
        exact ⟨htaken, hfailed, fun hall => absurd hall Bool.false_ne_true⟩
      · rw [hsend] at htaken hfailed hwritten
        obtain ⟨htakenRest, hfailedRest, hwrittenRest⟩ := ih next
        rw [Link.sendEach, hsend]
        refine ⟨htakenRest.trans htaken, ?_, ?_⟩
        · rw [hfailedRest, hfailed, Bool.not_true, Bool.or_false]
        · intro hall
          rw [hwrittenRest hall, hwritten rfl, List.append_assoc, List.flatten_cons]

/-- Collecting adds to the received bytes what the link gave, and fails exactly if reading did. -/
lemma Server.collect_tapped [FiniteLink L] (received : Bytes) (tapped : Tapped L) :
    ∃ bytes, (Server.collect received tapped).2.1 = received ++ bytes ∧
      (Server.collect received tapped).2.2.tap.taken = tapped.tap.taken ++ bytes ∧
      (Server.collect received tapped).2.2.tap.written = tapped.tap.written ∧
      (Server.collect received tapped).2.2.tap.failed
        = (tapped.tap.failed || !(Server.collect received tapped).1) := by
  fun_induction Server.collect received tapped with
  | case1 received tapped next hread =>
      obtain ⟨hbytes, rfl⟩ := Prod.mk.inj hread
      exact ⟨[], by simp [hbytes, Tap.read]⟩
  | case2 received tapped next hread =>
      obtain ⟨hbytes, rfl⟩ := Prod.mk.inj hread
      exact ⟨[], by simp [hbytes, Tap.read]⟩
  | case3 received tapped bytes next hread hne hless ih =>
      obtain ⟨hbytes, rfl⟩ := Prod.mk.inj hread
      obtain ⟨more, hreceived, htaken, hwritten, hfailed⟩ := ih
      refine ⟨bytes ++ more, ?_, ?_, ?_, ?_⟩
      · rw [hreceived, List.append_assoc]
      · rw [htaken, hbytes, Tap.read, List.append_assoc]
      · rw [hwritten, hbytes, Tap.read]
      · rw [hfailed, hbytes, Tap.read]

end FieldBus
