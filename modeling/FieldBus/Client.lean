import FieldBus.Controller
import FieldBus.Link.Basic

/-!
# Calling stations over a link

A `Client` carries out one order at a time and waits for its end: it sends the request, reads until
the answer is complete, and gives up when reading fails or the time is over.

The client measures no time.  A time limit of zero or less is over as soon as one read has come
back without completing the answer; any other limit is taken to outlast the link, whose reads run
out by themselves.

* `Client.await` — reads until the exchange is over.
* `Client.call` — carries out an order.
* `Client.read`, `Client.write`, `Client.select` — the same for each kind of order.
-/

namespace FieldBus

/-- A controller that waits for its answers.  `refusal?` is there if the last order was refused. -/
structure Client where
  controller : Controller
  timeout : Int
  refusal? : Option Refusal
  deriving DecidableEq

namespace Client

/-- How long a client waits for an answer unless it is told otherwise, in milliseconds. -/
def defaultTimeout : Int := 500

def new (mode : CheckMode) (timeout : Int) : Client := ⟨.new mode, timeout, none⟩

def setTimeout (client : Client) (timeout : Int) : Client := { client with timeout := timeout }

/-- Whether the time for an answer is over after a read that did not complete it. -/
def isImpatient (client : Client) : Bool := client.timeout ≤ 0

/-- Reads until the exchange of the controller is over. -/
def await {L : Type} [EndingLink L] (impatient : Bool) (controller : Controller) (link : L) :
    Except Fault Ending × Controller × L :=
  match hread : Link.read link Link.readLimit with
  | (none, next) => (.error .transport, controller.reset, next)
  | (some bytes, next) =>
    match controller.feed bytes with
    | (.error fault, controller) => (.error fault, controller, next)
    | (.ok (some ending), controller) => (.ok ending, controller, next)
    | (.ok none, controller) =>
      if impatient then
        (.error .timedOut, controller.expire.2, next)
      else
        have : EndingLink.reads next < EndingLink.reads link :=
          EndingLink.reads_read_lt (by decide) hread
        await impatient controller next
termination_by EndingLink.reads link

/-- What came of an order, and the client and the link afterwards. -/
structure Called (α L : Type) where
  result : Except Fault α
  client : Client
  link : L

/-- What an ending means for who gave the order. -/
def conclude : Ending → Except Fault Completion
  | .done completion => .ok completion
  | .refused _ => .error .rejected
  | .broken fault => .error fault

/-- The reason that an ending gives, if it is a refusal. -/
def refusalOf? : Ending → Option Refusal
  | .refused why => some why
  | _ => none

/-- Carries out an order. -/
def call {L : Type} [EndingLink L] (client : Client) (order : Order) (link : L) :
    Called Completion L :=
  match client.controller.order order with
  | (.error fault, controller) =>
    ⟨.error fault, { client with controller := controller, refusal? := none }, link⟩
  | (.ok block, controller) =>
    match Link.send link block.bytes with
    | (false, link) =>
      ⟨.error .transport, { client with controller := controller.reset, refusal? := none }, link⟩
    | (true, link) =>
      match await client.isImpatient controller link with
      | (.error fault, controller, link) =>
        ⟨.error fault, { client with controller := controller, refusal? := none }, link⟩
      | (.ok ending, controller, link) =>
        ⟨conclude ending, { client with controller := controller, refusal? := refusalOf? ending },
          link⟩

/-- The value in a completion; a completion without one does not answer a read. -/
def valueOf : Completion → Except Fault Value
  | .value value => .ok value
  | _ => .error .framing

/-- A completion without a value; one with a value does not answer a write or a select. -/
def doneOf : Completion → Except Fault Unit
  | .value _ => .error .framing
  | _ => .ok ()

def read {L : Type} [EndingLink L] (client : Client) (station parameter : Int) (link : L) :
    Called Value L :=
  let called := client.call (.read station parameter) link
  ⟨called.result >>= valueOf, called.client, called.link⟩

def write {L : Type} [EndingLink L] (client : Client) (station parameter value : Int) (link : L) :
    Called Unit L :=
  let called := client.call (.write station parameter value) link
  ⟨called.result >>= doneOf, called.client, called.link⟩

def select {L : Type} [EndingLink L] (client : Client) (station : Int) (link : L) :
    Called Unit L :=
  let called := client.call (.select station) link
  ⟨called.result >>= doneOf, called.client, called.link⟩

end Client

end FieldBus
