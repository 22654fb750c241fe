import FieldBus.Frame.Encode
import FieldBus.Receiver.Feed

/-!
# A station on the bus

A `Node` hears everything that controllers and other stations send, and tells its owner only of
what concerns its own station: a request for it, or a broken frame that named it.  The owner then
answers.  While a request waits for its answer the node takes in nothing more.

* `Node.feed` — takes in bytes up to the first `Call` for this station.
* `Node.giveValue`, `Node.giveInt`, `Node.acknowledge`, `Node.refuse` — the answers; each gives the
  bytes to send, and each is refused where it does not answer what was asked.
* `Due` — which answers are allowed.

Each operation gives the node that comes after it, also when it is refused; a refused one leaves
the node as it was.
-/

namespace FieldBus

/-- What a node tells its owner of. -/
inductive Call where
  | read (parameter : Parameter)
  | write (parameter : Parameter) (value : Value)
  | select
  /-- A frame for this station was broken. -/
  | malformed (fault : Fault)
  deriving DecidableEq

/-- The answers that a node may give. -/
inductive Due where
  | nothing
  /-- A refusal of the frame that was just reported as broken. -/
  | refusal
  /-- The answer to a request of this kind. -/
  | answer (kind : Kind)
  deriving DecidableEq

/-- What a request asks of the station that it names. -/
def Request.call : Request → Call
  | read _ p => .read p
  | write _ p v => .write p v
  | select _ => .select

/-- The answers that a call allows. -/
def Call.due : Call → Due
  | read _ => .answer .read
  | write _ _ => .answer .write
  | select => .answer .select
  | malformed _ => .refusal

/-- What a report means for a station: nothing, unless it names that station. -/
def Report.call? (station : Station) : Report → Option Call
  | frame (.request request) => if request.station = station then some request.call else none
  | frame (.reply _) => none
  | defect ⟨fault, named⟩ => if named = some station then some (.malformed fault) else none

/-- The answering end of a bus, for one station. -/
structure Node where
  station : Station
  mode : CheckMode
  receiver : Receiver
  due : Due
  deriving DecidableEq

namespace Node

def new (station : Station) (mode : CheckMode) : Node :=
  ⟨station, mode, .start .commands mode, .nothing⟩

/-- Whether a request waits for its answer. -/
def isCalled (node : Node) : Bool :=
  match node.due with
  | .answer _ => true
  | _ => false

/-- What a node is busy with. -/
inductive Activity where
  /-- Nothing: it is between frames, or within one that is broken. -/
  | idle
  /-- A frame has begun and has not yet named a station. -/
  | matching
  /-- A frame is coming in that has named a station. -/
  | receiving
  /-- A request waits for its answer. -/
  | answering
  deriving DecidableEq

/-- What the node is busy with. -/
def activity (node : Node) : Activity :=
  if node.isCalled then
    .answering
  else
    match node.receiver.phase with
    | .idle | .skipping | .skippingCheck => .idle
    | phase => if phase.station?.isSome then .receiving else .matching

/-- What came of taking in bytes: the call, unless the bytes ended first, and the number of bytes
taken. -/
structure Heard where
  call? : Option Call
  taken : Nat
  deriving DecidableEq

/-- Takes in bytes up to the first call for this station. -/
def feed (node : Node) (bytes : Bytes) : Except Fault Heard × Node :=
  if node.isCalled then
    (.error .sequence, node)
  else
    let sought := node.receiver.seek (Report.call? node.station) bytes
    (.ok ⟨sought.found?, sought.taken⟩,
      { node with
        receiver := sought.receiver
        due := (sought.found?.map Call.due).getD .nothing })

/-- Sends an answer, after which none is due. -/
def answer (node : Node) (reply : Reply) : Except Fault Block × Node :=
  (.ok ((Frame.reply reply).encode node.mode), { node with due := .nothing })

/-- Does not send an answer that is not due. -/
def decline (node : Node) : Except Fault Block × Node := (.error .sequence, node)

/-- Answers a read with a value. -/
def giveValue (node : Node) (value : Value) : Except Fault Block × Node :=
  match node.due with
  | .answer .read => node.answer (.value value)
  | _ => node.decline

/-- Answers a read with an integer, which must be in range; the read waits on if it is not. -/
def giveInt (node : Node) (n : Int) : Except Fault Block × Node :=
  match node.due with
  | .answer .read =>
    match Value.ofInt n with
    | .ok value => node.giveValue value
    | .error fault => (.error fault, node)
  | _ => node.decline

/-- Accepts a write or a select. -/
def acknowledge (node : Node) : Except Fault Block × Node :=
  match node.due with
  | .answer .write | .answer .select => node.answer .ack
  | _ => node.decline

/-- Refuses a request, or the broken frame that was just reported. -/
def refuse (node : Node) (why : Refusal) : Except Fault Block × Node :=
  match node.due with
  | .nothing => node.decline
  | _ => node.answer (.refused why)

/-- Drops what there is of a frame, and whatever waits for an answer. -/
def reset (node : Node) : Node := { node with receiver := node.receiver.reset, due := .nothing }

/-- Moves the node to another station number and starts afresh. -/
def assign (node : Node) (station : Station) : Node := { node with station := station }.reset

theorem work_feed_lt {node next : Node} {bytes : Bytes} {heard : Heard} (hne : bytes ≠ [])
    (h : node.feed bytes = (.ok heard, next)) :
    next.receiver.work (bytes.drop heard.taken) < node.receiver.work bytes := by
  unfold feed at h
  split at h
  · cases h
  · cases h
    exact Receiver.work_seek_lt _ _ _ hne

/-! ## Answering leaves the receiver as it is -/

@[simp] theorem receiver_answer (node : Node) (reply : Reply) :
    (node.answer reply).2.receiver = node.receiver := rfl

@[simp] theorem receiver_decline (node : Node) : node.decline.2.receiver = node.receiver := rfl

@[simp] theorem receiver_giveValue (node : Node) (value : Value) :
    (node.giveValue value).2.receiver = node.receiver := by
  unfold giveValue
  split <;> rfl

@[simp] theorem receiver_acknowledge (node : Node) :
    node.acknowledge.2.receiver = node.receiver := by
  unfold acknowledge
  split <;> rfl

@[simp] theorem receiver_refuse (node : Node) (why : Refusal) :
    (node.refuse why).2.receiver = node.receiver := by
  unfold refuse
  split <;> rfl

end Node

end FieldBus
