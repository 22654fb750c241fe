import FieldBus.Frame.Basic
import FieldBus.Wire.Block
import FieldBus.Wire.Checksum

/-!
# Receiving frames, byte by byte

A `Receiver` listens to one direction of the bus and rebuilds frames from the bytes.  Bytes
between frames are skipped.  A byte that breaks a frame gives a `Defect`, and the frame is dropped.

What the receiver has of a frame is its `Phase`.  Each phase carries exactly what the bytes since
the opening byte determine, so a phase between frames carries nothing.

* `Traffic` — the direction listened to; it decides what a lone EOT means.
* `Phase.begin` — what a byte does between frames.
* `Phase.step` — what a byte does in any phase.
* `Phase.fail` — what a byte does that breaks a frame.  One that may open a frame itself is left
  for the next step, which then finds the receiver between frames.  Any other is taken, and what
  remains of a checked frame is skipped: up to its ETX, and the check byte behind it.
-/

namespace FieldBus

/-- The direction of the bus that a receiver listens to. -/
inductive Traffic where
  /-- What stations hear: an EOT may open a select sequence and is no frame by itself. -/
  | commands
  /-- What the controller hears: an EOT is a reply. -/
  | replies
  deriving DecidableEq

/-- A broken frame: what was wrong with it, and the station it named, if it had got that far. -/
structure Defect where
  fault : Fault
  station? : Option Station
  deriving DecidableEq

inductive Report where
  | frame (frame : Frame)
  | defect (defect : Defect)
  deriving DecidableEq

/-- How far a receiver is within a frame.  `body` is what came behind the STX. -/
inductive Phase where
  | idle
  /-- Behind an STX, within the two digits of the station field; a sign in their place opens a
  value reply. -/
  | address (body : Bytes) (field : Numeral)
  /-- Within the three digits of the parameter field. -/
  | parameter (body : Bytes) (station : Station) (field : Numeral)
  /-- Behind the parameter field: a sign makes this a write, an ETX a read. -/
  | terminator (body : Bytes) (station : Station) (parameter : Parameter)
  /-- Behind the sign of a value, within its one to five digits; the value belongs to a write of
  the target, or to a value reply if there is none. -/
  | value (body : Bytes) (target : Option (Station × Parameter)) (negative : Bool)
      (field : Numeral)
  /-- Behind the ETX of what will be this frame, if the check byte matches the body. -/
  | checksum (body : Bytes) (frame : Frame)
  /-- Behind an EOT, within the two digits of the station field of a select sequence.  Without a
  digit the EOT was the end of something else, and the byte counts as one between frames. -/
  | selectAddress (field : Numeral)
  /-- Behind the station field of a select sequence. -/
  | selectTerminator (station : Station)
  /-- Within a broken frame, before its ETX. -/
  | skipping
  /-- Behind the ETX of a broken frame, before its check byte. -/
  | skippingCheck
  deriving DecidableEq

/-- What one byte does. -/
inductive Step where
  /-- The byte is taken, and there is nothing to tell. -/
  | silent (next : Phase)
  /-- The byte is taken, and it completes or breaks a frame. -/
  | report (report : Report) (next : Phase)
  /-- The byte breaks a frame and is left, because it may open the next one; the receiver is then
  between frames. -/
  | leave (defect : Defect)
  deriving DecidableEq

namespace Phase

def isIdle : Phase → Bool
  | idle => true
  | _ => false

/-- Whether the receiver is behind an STX and before the ETX that belongs to it. -/
def inBody : Phase → Bool
  | address .. | parameter .. | terminator .. | value .. => true
  | _ => false

/-- The station that the frame names, once both its digits are in. -/
def station? : Phase → Option Station
  | parameter _ station _ => some station
  | terminator _ station _ => some station
  | value _ target _ _ => target.map Prod.fst
  | checksum _ frame => frame.station?
  | selectTerminator station => some station
  | _ => none

/-- What a byte does between frames. -/
def begin (traffic : Traffic) (b : UInt8) : Step :=
  if b = Byte.stx then
    .silent (.address [] .empty)
  else if b = Byte.eot then
    match traffic with
    | .commands => .silent (.selectAddress .empty)
    | .replies => .report (.frame (.reply (.refused .invalidParameter))) .idle
  else if b = Byte.ack then
    .report (.frame (.reply .ack)) .idle
  else if b = Byte.nak then
    .report (.frame (.reply (.refused .commandFailed))) .idle
  else
    .silent .idle

/-- What a byte does that breaks the frame with this fault. -/
def fail (phase : Phase) (fault : Fault) (b : UInt8) : Step :=
  let defect : Defect := ⟨fault, phase.station?⟩
  if Byte.opensFrame b then
    .leave defect
  else if phase.inBody then
    .report (.defect defect) (if b = Byte.etx then .skippingCheck else .skipping)
  else
    .report (.defect defect) .idle

/-- What a byte does for which the layout has no place here. -/
def reject (phase : Phase) (b : UInt8) : Step :=
  phase.fail (if Byte.isControl b then .framing else .invalidDigit) b

/-- Adds a byte to the body and goes on, as long as the body stays within a block. -/
def extend (phase : Phase) (body : Bytes) (b : UInt8) (next : Bytes → Phase) : Step :=
  if body.length < Block.capacity then .silent (next (body ++ [b])) else phase.fail .overflow b

/-- What to do with a number that has been read in full. -/
def complete {α : Type} (phase : Phase) (b : UInt8) (number : Except Fault α)
    (next : α → Step) : Step :=
  match number with
  | .ok a => next a
  | .error fault => phase.fail fault b

/-- What one byte does in a phase. -/
def step (traffic : Traffic) (mode : CheckMode) (phase : Phase) (b : UInt8) : Step :=
  match phase with
  | idle => begin traffic b
  | address body field =>
    if field.count = 0 ∧ Byte.isSign b then
      phase.extend body b (value · none (b == Byte.minus) .empty)
    else
      match Byte.digit b with
      | .error _ => phase.reject b
      | .ok d =>
        let field := field.push d
        if field.count = 2 then
          phase.complete b (Station.ofInt field.value) fun station =>
            phase.extend body b (parameter · station .empty)
        else
          phase.extend body b (address · field)
  | parameter body station field =>
    match Byte.digit b with
    | .error _ => phase.reject b
    | .ok d =>
      let field := field.push d
      if field.count = 3 then
        phase.complete b (Parameter.ofInt field.value) fun p =>
          phase.extend body b (terminator · station p)
      else
        phase.extend body b (parameter · station field)
  | terminator body s p =>
    if b = Byte.etx then
      phase.extend body b (checksum · (.request (.read s p)))
    else if Byte.isSign b then
      phase.extend body b (value · (some (s, p)) (b == Byte.minus) .empty)
    else
      phase.reject b
  | value body target negative field =>
    if b = Byte.etx then
      if field.count = 0 then
        phase.fail .framing b
      else
        let number : Int := if negative then -field.value else field.value
        phase.complete b (Value.ofInt number) fun v =>
          phase.extend body b (checksum · (match target with
            | some (s, p) => .request (.write s p v)
            | none => .reply (.value v)))
    else
      match Byte.digit b with
      | .error _ => phase.reject b
      | .ok d =>
        if field.count = 5 then
          phase.fail .overflow b
        else
          phase.extend body b (value · target negative (field.push d))
  | checksum body frame =>
    if checks mode body b then .report (.frame frame) .idle else phase.fail .checksum b
  | selectAddress field =>
    match Byte.digit b with
    | .error _ => if field.count = 0 then begin traffic b else phase.reject b
    | .ok d =>
      let field := field.push d
      if field.count = 2 then
        phase.complete b (Station.ofInt field.value) fun station =>
          .silent (selectTerminator station)
      else
        .silent (selectAddress field)
  | selectTerminator station =>
    if b = Byte.enq then .report (.frame (.request (.select station))) .idle else phase.reject b
  | skipping =>
    if Byte.opensFrame b then
      begin traffic b
    else if b = Byte.etx then
      .silent skippingCheck
    else
      .silent skipping
  | skippingCheck => .silent idle

end Phase

/-- A receiver for one direction of the bus. -/
structure Receiver where
  traffic : Traffic
  mode : CheckMode
  phase : Phase
  deriving DecidableEq

namespace Receiver

def start (traffic : Traffic) (mode : CheckMode) : Receiver := ⟨traffic, mode, .idle⟩

/-- Drops what there is of a frame. -/
def reset (receiver : Receiver) : Receiver := { receiver with phase := .idle }

def station? (receiver : Receiver) : Option Station := receiver.phase.station?

def isIdle (receiver : Receiver) : Bool := receiver.phase.isIdle

end Receiver

end FieldBus
