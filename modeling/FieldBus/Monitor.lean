import FieldBus.Receiver.Feed

/-!
# Listening to a bus

A `Monitor` hears both directions of a bus apart, sends nothing, and rebuilds what passes: each
request of the controller, and the answer to it.  It holds a receiver for each side and, while an
answer is due, whom it is due from and what was asked.

The receiver for the stations' side stays where the end of an answer leaves it, which may be within
a frame.  It starts afresh with the next request.

* `Monitor.hearController` — bytes of the controller.  If an answer was still due, the station has
  kept silent: this is told first, and no byte is taken.
* `Monitor.hearNodes` — bytes of the stations.  Without a request they belong to nothing.
* `Awaited.isAnsweredBy`, `Awaited.tells` — which frames answer a request, and what is told of the
  first report behind it.
* `Monitor.hearAllController`, `Monitor.hearAllNodes` — the same, again and again for what was not
  taken.
-/

namespace FieldBus

namespace Monitor

/-- What a monitor tells of the controller's side. -/
inductive Sent where
  | request (request : Request)
  /-- The controller sends again, and the station has not answered. -/
  | silence (station : Station)
  /-- A frame of the controller was broken. -/
  | defect (defect : Defect)
  deriving DecidableEq

/-- What a monitor tells of the stations' side. -/
inductive Answered where
  /-- The station gave a fitting answer. -/
  | reply (station : Station) (reply : Reply)
  /-- The answer of the station was broken or did not fit. -/
  | broken (station : Station) (fault : Fault)
  | unasked
  deriving DecidableEq

/-- The request that an answer is due to. -/
structure Awaited where
  station : Station
  kind : Kind
  deriving DecidableEq

namespace Awaited

/-- The answer that a request makes due. -/
def of (request : Request) : Awaited := ⟨request.station, request.kind⟩

/-- Whether a frame answers the request.  A refusal always does. -/
def isAnsweredBy (awaited : Awaited) (frame : Frame) : Bool :=
  match frame, awaited.kind with
  | .reply (.refused _), _ => true
  | .reply (.value _), .read => true
  | .reply .ack, .write => true
  | .reply .ack, .select => true
  | _, _ => false

/-- What is told of the first report behind the request.  A frame that does not answer it counts
as broken. -/
def tells (awaited : Awaited) : Report → Answered
  | .defect defect => .broken awaited.station defect.fault
  | .frame frame =>
    match frame, awaited.isAnsweredBy frame with
    | .reply reply, true => .reply awaited.station reply
    | _, _ => .broken awaited.station .framing

end Awaited

end Monitor

/-- A listener to both directions of a bus. -/
structure Monitor where
  commands : Receiver
  replies : Receiver
  awaited? : Option Monitor.Awaited
  deriving DecidableEq

namespace Monitor

def new (mode : CheckMode) : Monitor := ⟨.start .commands mode, .start .replies mode, none⟩

def awaitedStation? (monitor : Monitor) : Option Station := monitor.awaited?.map Awaited.station

/-- Drops what there is of a frame on either side, and expects no answer any more. -/
def reset (monitor : Monitor) : Monitor :=
  ⟨monitor.commands.reset, monitor.replies.reset, none⟩

/-- What came of hearing a run of bytes: the event it ended with, unless the run ended first; the
number of bytes taken; and the monitor afterwards. -/
structure Overheard (ε : Type) where
  event? : Option ε
  taken : Nat
  monitor : Monitor
  deriving DecidableEq

/-! ## The controller's side -/

/-- What a report on the controller's side is worth telling: replies are passed over. -/
def sent? : Report → Option Sent
  | .frame (.request request) => some (.request request)
  | .frame (.reply _) => none
  | .defect defect => some (.defect defect)

/-- Expects the answer to a request.  What there is of a frame of the stations is dropped. -/
def await (monitor : Monitor) (request : Request) : Monitor :=
  { monitor with replies := monitor.replies.reset, awaited? := some (.of request) }

/-- Gives up the answer that was expected, with what there is of it. -/
def giveUp (monitor : Monitor) : Monitor :=
  { monitor with replies := monitor.replies.reset, awaited? := none }

@[simp] theorem commands_giveUp (monitor : Monitor) : monitor.giveUp.commands = monitor.commands :=
  rfl

/-- The monitor behind an event on the controller's side that its receiver has found. -/
def behind (monitor : Monitor) : Option Sent → Monitor
  | some (.request request) => monitor.await request
  | _ => monitor

@[simp] theorem commands_behind (monitor : Monitor) (event? : Option Sent) :
    (monitor.behind event?).commands = monitor.commands := by
  unfold behind
  split <;> rfl

/-- Hears bytes of the controller, up to the first event. -/
def hearController (monitor : Monitor) (bytes : Bytes) : Overheard Sent :=
  if bytes = [] then
    ⟨none, 0, monitor⟩
  else
    match monitor.awaited? with
    | some awaited => ⟨some (.silence awaited.station), 0, monitor.giveUp⟩
    | none =>
      let sought := monitor.commands.seek sent? bytes
      ⟨sought.found?, sought.taken,
        { monitor with commands := sought.receiver }.behind sought.found?⟩

/-- What is left to hear of the controller.  A silence comes before the bytes it is noticed by. -/
def workController (monitor : Monitor) (bytes : Bytes) : Nat :=
  2 * monitor.commands.work bytes + if monitor.awaited?.isSome then 1 else 0

theorem workController_lt (monitor : Monitor) {bytes : Bytes} (hne : bytes ≠ []) :
    (monitor.hearController bytes).monitor.workController
        (bytes.drop (monitor.hearController bytes).taken)
      < monitor.workController bytes := by
  simp only [hearController, hne, if_false]
  cases hawaited : monitor.awaited? with
  | some awaited => simp [workController, giveUp, hawaited]
  | none =>
    have := Receiver.work_seek_lt sent? monitor.commands bytes hne
    simp only [workController, hawaited, commands_behind]
    split <;> simp <;> omega

/-- Hears bytes of the controller, and the rest again after each event, until none is left.  There
is one entry for each call: the event, if there was one, and the number of bytes taken. -/
def hearAllController (monitor : Monitor) : Bytes → List (Option Sent × Nat) × Monitor
  | [] => ([], monitor)
  | b :: rest =>
    let heard := monitor.hearController (b :: rest)
    let (calls, last) := heard.monitor.hearAllController ((b :: rest).drop heard.taken)
    ((heard.event?, heard.taken) :: calls, last)
termination_by bytes => monitor.workController bytes
decreasing_by exact workController_lt monitor (List.cons_ne_nil _ _)

/-! ## The stations' side -/

/-- Hears bytes of the stations, up to the first event. -/
def hearNodes (monitor : Monitor) (bytes : Bytes) : Overheard Answered :=
  if bytes = [] then
    ⟨none, 0, monitor⟩
  else
    match monitor.awaited? with
    | none => ⟨some .unasked, bytes.length, monitor⟩
    | some awaited =>
      let fed := monitor.replies.feed bytes
      match fed.report? with
      | none => ⟨none, fed.taken, { monitor with replies := fed.receiver }⟩
      | some report =>
        ⟨some (awaited.tells report), fed.taken,
          { monitor with replies := fed.receiver, awaited? := none }⟩

/-- What is left to hear of the stations. -/
def workNodes (monitor : Monitor) (bytes : Bytes) : Nat :=
  bytes.length + if monitor.awaited?.isSome then 1 else 0

theorem workNodes_lt (monitor : Monitor) {bytes : Bytes} (hne : bytes ≠ []) :
    (monitor.hearNodes bytes).monitor.workNodes (bytes.drop (monitor.hearNodes bytes).taken)
      < monitor.workNodes bytes := by
  have hpos : 0 < bytes.length := List.length_pos_iff.mpr hne
  simp only [hearNodes, hne, if_false]
  cases hawaited : monitor.awaited? with
  | none => simpa [workNodes, hawaited] using hpos
  | some awaited =>
    cases hreport : (monitor.replies.feed bytes).report? with
    | none =>
      have := Receiver.taken_feed_of_none hreport
      simp [workNodes, hawaited, this, hpos]
    | some report =>
      simp only [workNodes, hawaited, List.length_drop, Option.isSome_none, Option.isSome_some,
        if_true]
      exact Nat.lt_succ_of_le (Nat.sub_le _ _)

/-- Hears bytes of the stations, and the rest again after each event, until none is left.  There
is one entry for each call: the event, if there was one, and the number of bytes taken. -/
def hearAllNodes (monitor : Monitor) : Bytes → List (Option Answered × Nat) × Monitor
  | [] => ([], monitor)
  | b :: rest =>
    let heard := monitor.hearNodes (b :: rest)
    let (calls, last) := heard.monitor.hearAllNodes ((b :: rest).drop heard.taken)
    ((heard.event?, heard.taken) :: calls, last)
termination_by bytes => monitor.workNodes bytes
decreasing_by exact workNodes_lt monitor (List.cons_ne_nil _ _)

end Monitor

end FieldBus
