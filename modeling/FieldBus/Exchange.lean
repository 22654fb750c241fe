import FieldBus.Receiver.Feed

/-!
# One request and its answer

An `Exchange` is what who sent a request has of it: its kind, and a receiver for the answer.  It is
over with the first report of the receiver, whatever that is.

* `Kind.judge` — what a report means as the answer to a request: a fitting reply, or a fault.
* `Exchange.feed` — follows the answer through a run of bytes.
-/

namespace FieldBus

/-- What a report means as the answer to a request of this kind.  A frame that is whole but does
not fit is as wrong as a broken one. -/
def Kind.judge (kind : Kind) : Report → Except Fault Reply
  | .frame (.reply reply) => if kind.admits reply then .ok reply else .error .framing
  | .frame (.request _) => .error .framing
  | .defect defect => .error defect.fault

/-- A request that waits for its answer. -/
structure Exchange where
  kind : Kind
  replies : Receiver
  deriving DecidableEq

namespace Exchange

/-- The exchange right after the request was sent: nothing of the answer is there. -/
def start (kind : Kind) (mode : CheckMode) : Exchange := ⟨kind, .start .replies mode⟩

/-- What came of following the answer: how the exchange ended, unless the bytes ended first, and
the exchange afterwards. -/
structure Progress where
  verdict? : Option (Except Fault Reply)
  exchange : Exchange

/-- Follows the answer through a run of bytes. -/
def feed (exchange : Exchange) (bytes : Bytes) : Progress :=
  let fed := exchange.replies.feed bytes
  ⟨fed.report?.map exchange.kind.judge, { exchange with replies := fed.receiver }⟩

end Exchange

end FieldBus
