import FieldBus.Device
import FieldBus.Link.Basic
import FieldBus.Node

/-!
# Serving a device on a link

A `Server` answers for one station.  Polled, it reads all that has come in, and then serves one
call after the other: it asks the device, and sends the answer before it goes on.  Bytes behind a
call whose answer could not be sent wait in the server for the next poll.

* `Server.collect` — reads until nothing more comes in.
* `Server.consult` — turns a call into an answer by asking the device.
* `Server.turn` — looks for one call in the collected bytes and answers it.
* `Server.serve` — serves all calls in the collected bytes.
* **`Server.poll`** — the two together.
-/

namespace FieldBus

/-- One station of a bus, with the bytes that it has not looked at yet. -/
structure Server where
  node : Node
  received : Bytes
  deriving DecidableEq

namespace Server

def new (station : Station) (mode : CheckMode) : Server := ⟨.new station mode, []⟩

/-- Moves the server to another station number and drops what it has received. -/
def assign (server : Server) (station : Station) : Server := ⟨server.node.assign station, []⟩

/-- The refusal that a station sends when its device fails. -/
def refusalFor : Fault → Refusal
  | .invalidParameter => .invalidParameter
  | _ => .commandFailed

/-- Reads until nothing more comes in, and adds it to what was received before.  Tells whether
reading went well. -/
def collect {L : Type} [FiniteLink L] (received : Bytes) (link : L) : Bool × Bytes × L :=
  match hread : Link.read link Link.readLimit with
  | (none, next) => (false, received, next)
  | (some bytes, next) =>
    if hne : bytes = [] then
      (true, received, next)
    else
      have : FiniteLink.left next < FiniteLink.left link := FiniteLink.left_read_lt hread hne
      collect (received ++ bytes) next
termination_by FiniteLink.left link

/-- The answer to a call, and the node and the device after it. -/
def consult {D : Type} [Device D] (node : Node) (device : D) :
    Call → (Except Fault Block × Node) × D
  | .read parameter =>
    match Device.onRead device parameter with
    | (.ok value, next) => (node.giveValue value, next)
    | (.error fault, next) => (node.refuse (refusalFor fault), next)
  | .write parameter value =>
    match Device.onWrite device parameter value with
    | (.ok _, next) => (node.acknowledge, next)
    | (.error fault, next) => (node.refuse (refusalFor fault), next)
  | .select =>
    match Device.onSelect device with
    | (true, next) => (node.acknowledge, next)
    | (false, next) => (node.refuse .commandFailed, next)
  | .malformed _ => (node.refuse .commandFailed, device)

theorem receiver_consult {D : Type} [Device D] (node : Node) (device : D) (call : Call) :
    (consult node device call).1.2.receiver = node.receiver := by
  cases call <;> simp only [consult]
  case read => split <;> simp
  case write => split <;> simp
  case select => split <;> simp
  case malformed => simp

/-- What came of looking for one call and answering it. -/
inductive Turn (D L : Type) where
  | finished (server : Server)
  | answered (server : Server) (device : D) (link : L)
  /-- The server cannot go on. -/
  | stuck (fault : Fault) (server : Server) (device : D) (link : L)

/-- Looks for one call in the received bytes and answers it. -/
def turn {D L : Type} [Device D] [Link L] (server : Server) (device : D) (link : L) : Turn D L :=
  if server.received = [] then
    .finished server
  else
    match server.node.feed server.received with
    | (.error fault, node) => .stuck fault { server with node := node } device link
    | (.ok heard, node) =>
      let rest := server.received.drop heard.taken
      match heard.call? with
      | none => .finished ⟨node, rest⟩
      | some call =>
        match consult node device call with
        | ((.error fault, node), device) => .stuck fault ⟨node, rest⟩ device link
        | ((.ok block, node), device) =>
          match Link.send link block.bytes with
          | (false, link) => .stuck .transport ⟨node, rest⟩ device link
          | (true, link) => .answered ⟨node, rest⟩ device link

def work (server : Server) : Nat := server.node.receiver.work server.received

/-- **An answered call leaves less to do.** -/
theorem work_lt_of_answered {D L : Type} [Device D] [Link L] {server after : Server}
    {device device' : D} {link link' : L}
    (h : turn server device link = .answered after device' link') : after.work < server.work := by
  unfold turn at h
  split at h
  · cases h
  next hne =>
  split at h
  · cases h
  next heard node hfed =>
  simp only at h
  split at h
  · cases h
  next call _ =>
  split at h
  · cases h
  next block last _ hconsult =>
  split at h
  · cases h
  · cases h
    have hreceiver : last.receiver = node.receiver := by
      have h := receiver_consult node device call
      rw [hconsult] at h
      exact h
    simpa only [work, hreceiver] using Node.work_feed_lt hne hfed

/-- What came of a poll: the number of answers sent, or what kept the server from going on; and
the server, the device and the link afterwards. -/
structure Polled (D L : Type) where
  result : Except Fault Nat
  server : Server
  device : D
  link : L

/-- Serves the calls in the received bytes; `count` is the number of answers sent so far. -/
def serve {D L : Type} [Device D] [Link L] (server : Server) (device : D) (link : L)
    (count : Nat) : Polled D L :=
  match hturn : turn server device link with
  | .finished server => ⟨.ok count, server, device, link⟩
  | .stuck fault server device link => ⟨.error fault, server, device, link⟩
  | .answered after device link =>
    have : after.work < server.work := work_lt_of_answered hturn
    serve after device link (count + 1)
termination_by server.work

/-- Reads what has come in and serves it. -/
def poll {D L : Type} [Device D] [FiniteLink L] (server : Server) (device : D) (link : L) :
    Polled D L :=
  match collect server.received link with
  | (false, received, link) =>
    ⟨.error .transport, { server with received := received }, device, link⟩
  | (true, received, link) => serve { server with received := received } device link 0

end Server

end FieldBus
