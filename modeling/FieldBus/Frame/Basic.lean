import FieldBus.Station
import FieldBus.Parameter
import FieldBus.Value

/-!
# Frames

Two kinds of frame travel on the bus.  The controller sends a `Request`, which names the station
it is meant for; the station answers with a `Reply`, which names nobody: it answers the request
that came just before.

* `Kind` — what a request asks for, without its operands.
* `Kind.admits` — which replies can answer a request of that kind.
-/

namespace FieldBus

/-- What the controller asks a station to do. -/
inductive Request where
  /-- Send the value of a parameter. -/
  | read (station : Station) (parameter : Parameter)
  /-- Change a parameter to a value. -/
  | write (station : Station) (parameter : Parameter) (value : Value)
  /-- Show that the station is there. -/
  | select (station : Station)
  deriving DecidableEq

/-- Why a station did not do what it was asked. -/
inductive Refusal where
  | commandFailed
  | invalidParameter
  deriving DecidableEq

/-- What a station answers. -/
inductive Reply where
  | value (value : Value)
  | ack
  | refused (why : Refusal)
  deriving DecidableEq

/-- Anything that travels on the bus as a unit. -/
inductive Frame where
  | request (request : Request)
  | reply (reply : Reply)
  deriving DecidableEq

/-- What a request asks for, without its operands. -/
inductive Kind where
  | read
  | write
  | select
  deriving DecidableEq

namespace Request

def station : Request → Station
  | read station _ => station
  | write station _ _ => station
  | select station => station

def kind : Request → Kind
  | read .. => .read
  | write .. => .write
  | select .. => .select

end Request

/-- The station that a frame names: a request names one, a reply none. -/
def Frame.station? : Frame → Option Station
  | .request r => some r.station
  | .reply _ => none

/-- Whether a reply can answer a request of this kind.  A value answers a read and an
acknowledgement the other two; a refusal answers anything. -/
def Kind.admits : Kind → Reply → Bool
  | .read, .value _ => true
  | .write, .ack => true
  | .select, .ack => true
  | _, .refused _ => true
  | _, _ => false

end FieldBus
