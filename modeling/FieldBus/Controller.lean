import FieldBus.Exchange
import FieldBus.Frame.Encode
import FieldBus.Order

/-!
# The controller of a bus

A `Controller` has at most one exchange under way.  Starting one gives the bytes to send; feeding
the bytes that come back tells how the exchange ended, and what comes behind the end is dropped.
The controller has no clock: whoever owns it says when the time for an answer is over.

* `Controller.start`, `Controller.order` — begin an exchange, from a request or from an order.
* `Controller.feed` — take in received bytes.
* `Controller.expire` — give up waiting.
* `Controller.reset` — forget the exchange, which then has no outcome.

Each operation gives the controller that comes after it, also when it is refused; a refused one
leaves the controller as it was.
-/

namespace FieldBus

/-- What an exchange achieved. -/
inductive Completion where
  | value (value : Value)
  | written
  | selected
  deriving DecidableEq

/-- How an exchange ended on the bus. -/
inductive Ending where
  | done (completion : Completion)
  | refused (why : Refusal)
  /-- The answer was broken or did not fit the request. -/
  | broken (fault : Fault)
  deriving DecidableEq

inductive Outcome where
  | completed
  | refused
  | timedOut
  | broken
  deriving DecidableEq

def Ending.outcome : Ending → Outcome
  | done _ => .completed
  | refused _ => .refused
  | broken _ => .broken

/-- What an acknowledgement achieves. -/
def Kind.acknowledged : Kind → Completion
  | .select => .selected
  | _ => .written

/-- How a judged answer ends an exchange of this kind. -/
def Kind.ending (kind : Kind) : Except Fault Reply → Ending
  | .ok (.value v) => .done (.value v)
  | .ok .ack => .done kind.acknowledged
  | .ok (.refused why) => .refused why
  | .error fault => .broken fault

/-- The sending end of a bus. -/
structure Controller where
  mode : CheckMode
  exchange? : Option Exchange
  outcome? : Option Outcome
  deriving DecidableEq

namespace Controller

def new (mode : CheckMode) : Controller := ⟨mode, none, none⟩

/-- What a controller is waiting for. -/
inductive Stage where
  | idle
  | awaitingSelect
  | awaitingAnswer
  deriving DecidableEq

def stage (controller : Controller) : Stage :=
  match controller.exchange? with
  | none => .idle
  | some ⟨.select, _⟩ => .awaitingSelect
  | some ⟨_, _⟩ => .awaitingAnswer

def isIdle (controller : Controller) : Bool := controller.exchange?.isNone

/-- Begins an exchange, and gives the bytes to send. -/
def start (controller : Controller) (request : Request) : Except Fault Block × Controller :=
  if controller.isIdle then
    (.ok ((Frame.request request).encode controller.mode),
      { controller with exchange? := some (.start request.kind controller.mode) })
  else
    (.error .sequence, controller)

/-- Begins an exchange from an order.  A busy controller refuses before it looks at a number. -/
def order (controller : Controller) (order : Order) : Except Fault Block × Controller :=
  if controller.isIdle then
    match order.check with
    | .ok request => controller.start request
    | .error fault => (.error fault, controller)
  else
    (.error .sequence, controller)

/-- Takes in received bytes, and tells how the exchange ended, unless the bytes ended first.  Once
the exchange is over the controller is free for the next. -/
def feed (controller : Controller) (bytes : Bytes) : Except Fault (Option Ending) × Controller :=
  match controller.exchange? with
  | none => (.error .sequence, controller)
  | some exchange =>
    let progress := exchange.feed bytes
    match progress.verdict? with
    | none => (.ok none, { controller with exchange? := some progress.exchange })
    | some verdict =>
      let ending := exchange.kind.ending verdict
      (.ok (some ending), { controller with exchange? := none, outcome? := some ending.outcome })

/-- Gives up waiting, and tells whether there was anything to wait for. -/
def expire (controller : Controller) : Bool × Controller :=
  if controller.isIdle then
    (false, controller)
  else
    (true, { controller with exchange? := none, outcome? := some .timedOut })

/-- Forgets the exchange under way.  The outcome stays that of the last one that had one. -/
def reset (controller : Controller) : Controller := { controller with exchange? := none }

end Controller

end FieldBus
