import FieldBus.Receiver.Feed
import FieldBus.Wire.Block

/-!
# A receiver in registers

Every phase of a receiver has contents of its own, and its numbers are as large as they need to be.
A small device has neither: it keeps one set of registers of fixed width, which all phases share.
Three things can go wrong there that cannot go wrong with phases.  A number may outgrow its
register; what one field or one frame has left behind may be taken for part of the next; and
something may be used that nothing has put there.

This file writes the receiver down in this way, with nothing to keep any of it from happening.

* `Registers` — the set of registers, and `Stage`, which says how far the receiver is.
* `Registers.step` — what one byte does.  Arithmetic is that of the registers and wraps around;
  using what is not there is `Outcome.stuck`.
* `Registers.feed` — up to the first report, as `Receiver.feed` does it.
-/

namespace FieldBus

/-- How far a receiver is within a frame, apart from what it has of it. -/
inductive Stage where
  | idle
  | address
  | parameter
  | terminator
  | value
  | checksum
  | selectAddress
  | selectTerminator
  | skipping
  | skippingCheck
  deriving DecidableEq

/-- Whether the receiver is behind an STX and before the ETX that belongs to it. -/
def Stage.inBody : Stage → Bool
  | address | parameter | terminator | value => true
  | _ => false

/-- What a receiver remembers, whatever the stage. -/
structure Registers where
  stage : Stage
  /-- What came behind the STX. -/
  body : Block
  station? : Option Station
  /-- The number of digits of the field that is coming in. -/
  count : UInt8
  address : UInt8
  parameter : UInt16
  magnitude : Int32
  negative : Bool
  hasValue : Bool
  isReply : Bool

namespace Registers

/-- What one byte does. -/
inductive Outcome where
  /-- The byte is taken, and there is nothing to tell. -/
  | silent (next : Registers)
  /-- The byte is taken, and it completes or breaks a frame. -/
  | report (report : Report) (next : Registers)
  /-- The byte breaks a frame and is left. -/
  | leave (defect : Defect) (next : Registers)
  /-- Something is used that is not there, and the receiver cannot go on. -/
  | stuck

/-- Nothing but a body. -/
def blank (stage : Stage) (body : Block) : Registers where
  stage
  body
  station? := none
  count := 0
  address := 0
  parameter := 0
  magnitude := 0
  negative := false
  hasValue := false
  isReply := false

/-- The registers before the first byte. -/
def start : Registers := blank .idle .empty

/-- Forgets everything; the cells of the block keep what was last stored in them. -/
def clear (r : Registers) : Registers := blank .idle r.body.clear

/-! ## What one byte does -/

/-- What a byte does between frames. -/
def begin (traffic : Traffic) (r : Registers) (b : UInt8) : Outcome :=
  if b = Byte.stx then
    .silent { r.clear with stage := .address }
  else if b = Byte.eot then
    match traffic with
    | .commands => .silent { r.clear with stage := .selectAddress }
    | .replies => .report (.frame (.reply (.refused .invalidParameter))) r
  else if b = Byte.ack then
    .report (.frame (.reply .ack)) r
  else if b = Byte.nak then
    .report (.frame (.reply (.refused .commandFailed))) r
  else
    .silent r

/-- What a byte does that breaks the frame with this fault. -/
def fail (r : Registers) (fault : Fault) (b : UInt8) : Outcome :=
  let defect : Defect := ⟨fault, r.station?⟩
  if Byte.opensFrame b then
    .leave defect r.clear
  else if r.stage.inBody then
    .report (.defect defect)
      { r.clear with stage := if b = Byte.etx then .skippingCheck else .skipping }
  else
    .report (.defect defect) r.clear

/-- What a byte does for which the layout has no place here. -/
def reject (r : Registers) (b : UInt8) : Outcome :=
  r.fail (if Byte.isControl b then .framing else .invalidDigit) b

/-- Adds a byte to the body and goes on, if the block has a cell left. -/
def store (r : Registers) (b : UInt8) (next : Registers → Outcome) : Outcome :=
  match r.body.push b with
  | some body => next { r with body := body }
  | none => r.fail .overflow b

/-- One more digit of a station.  Behind the second, the station is taken without a look whether
there is one with this number. -/
def pushStation (r : Registers) (digit : Nat) (next : Stage) : Outcome :=
  let r : Registers :=
    { r with address := r.address * 10 + UInt8.ofNat digit, count := r.count + 1 }
  if r.count = 2 then
    match Station.ofInt r.address.toNat with
    | .ok station => .silent { r with station? := some station, count := 0, stage := next }
    | .error _ => .stuck
  else
    .silent r

/-- One more digit of a parameter.  Whether there is such a parameter is left for later. -/
def pushParameter (r : Registers) (digit : Nat) : Registers :=
  let r : Registers :=
    { r with parameter := r.parameter * 10 + UInt16.ofNat digit, count := r.count + 1 }
  if r.count = 3 then { r with count := 0, stage := .terminator } else r

/-- One more digit of a value. -/
def pushValue (r : Registers) (digit : Nat) : Registers :=
  { r with magnitude := r.magnitude * 10 + Int32.ofNat digit, count := r.count + 1 }

def stepAddress (r : Registers) (b : UInt8) : Outcome :=
  if r.count = 0 ∧ Byte.isSign b then
    r.store b fun r =>
      .silent { r with isReply := true, negative := b == Byte.minus, stage := .value }
  else
    match Byte.digit b with
    | .error _ => r.reject b
    | .ok d => r.store b fun r => r.pushStation d .parameter

def stepParameter (r : Registers) (b : UInt8) : Outcome :=
  match Byte.digit b with
  | .error _ => r.reject b
  | .ok d => r.store b fun r => .silent (r.pushParameter d)

def stepTerminator (r : Registers) (b : UInt8) : Outcome :=
  if b = Byte.etx then
    r.store b fun r => .silent { r with stage := .checksum }
  else if Byte.isSign b then
    r.store b fun r =>
      .silent { r with hasValue := true, negative := b == Byte.minus, stage := .value }
  else
    r.reject b

def stepValue (r : Registers) (b : UInt8) : Outcome :=
  if b = Byte.etx then
    if r.count = 0 then
      r.fail .framing b
    else
      r.store b fun r => .silent { r with stage := .checksum }
  else
    match Byte.digit b with
    | .error _ => r.reject b
    | .ok d =>
      if r.count = 5 then
        r.fail .overflow b
      else
        r.store b fun r => .silent (r.pushValue d)

/-- The number that the sign and the magnitude stand for. -/
def signed (r : Registers) : Int := (if r.negative then -r.magnitude else r.magnitude).toInt

/-- The frame that the registers hold.  The parameter and the station of a request are taken without
a look whether they are there. -/
def frame? (r : Registers) (value : Value) : Option Frame :=
  if r.isReply then
    some (.reply (.value value))
  else
    match Parameter.ofInt r.parameter.toNat, r.station? with
    | .ok parameter, some station =>
      some (.request (if r.hasValue then .write station parameter value
        else .read station parameter))
    | _, _ => none

/-- The value is looked at in any frame, if only to find that it is still zero. -/
def stepChecksum (mode : CheckMode) (r : Registers) (b : UInt8) : Outcome :=
  if checks mode r.body.bytes b then
    match Value.ofInt r.signed with
    | .error fault => r.fail fault b
    | .ok value =>
      match r.frame? value with
      | some frame => .report (.frame frame) r.clear
      | none => .stuck
  else
    r.fail .checksum b

def stepSelectAddress (traffic : Traffic) (r : Registers) (b : UInt8) : Outcome :=
  match Byte.digit b with
  | .error _ => if r.count = 0 then r.clear.begin traffic b else r.reject b
  | .ok d => r.pushStation d .selectTerminator

def stepSelectTerminator (r : Registers) (b : UInt8) : Outcome :=
  if b = Byte.enq then
    match r.station? with
    | some station => .report (.frame (.request (.select station))) r.clear
    | none => .stuck
  else
    r.reject b

def stepSkipping (traffic : Traffic) (r : Registers) (b : UInt8) : Outcome :=
  if Byte.opensFrame b then
    r.clear.begin traffic b
  else if b = Byte.etx then
    .silent { r with stage := .skippingCheck }
  else
    .silent r

/-- What one byte does in the stage that the registers are in. -/
def step (traffic : Traffic) (mode : CheckMode) (r : Registers) (b : UInt8) : Outcome :=
  match r.stage with
  | .idle => r.begin traffic b
  | .address => r.stepAddress b
  | .parameter => r.stepParameter b
  | .terminator => r.stepTerminator b
  | .value => r.stepValue b
  | .checksum => r.stepChecksum mode b
  | .selectAddress => r.stepSelectAddress traffic b
  | .selectTerminator => r.stepSelectTerminator b
  | .skipping => r.stepSkipping traffic b
  | .skippingCheck => .silent { r with stage := .idle }

/-! ## What runs of bytes do -/

/-- What came of feeding a run of bytes. -/
structure Fed where
  report? : Option Report
  taken : Nat
  registers : Registers

/-- Feeds bytes up to the first report; there is no result if the receiver gets stuck. -/
def feed (traffic : Traffic) (mode : CheckMode) (r : Registers) : Bytes → Option Fed
  | [] => some ⟨none, 0, r⟩
  | b :: rest =>
    match r.step traffic mode b with
    | .silent next =>
      (next.feed traffic mode rest).map fun fed => { fed with taken := fed.taken + 1 }
    | .report report next => some ⟨some report, 1, next⟩
    | .leave defect next => some ⟨some (.defect defect), 0, next⟩
    | .stuck => none

/-- A call goes through the states that shorter calls end in, as long as it has nothing to tell.  So
what is true behind every call is true in the middle of a call as well. -/
theorem feed_append {traffic : Traffic} {mode : CheckMode} {r mid : Registers} {bytes : Bytes}
    {taken : Nat} (h : r.feed traffic mode bytes = some ⟨none, taken, mid⟩) (more : Bytes) :
    r.feed traffic mode (bytes ++ more)
      = (mid.feed traffic mode more).map fun fed => { fed with taken := taken + fed.taken } := by
  induction bytes generalizing r taken with
  | nil =>
      obtain ⟨-, rfl, rfl⟩ := Fed.mk.inj (Option.some.inj h)
      simp
  | cons b rest ih =>
      rw [feed] at h
      rw [List.cons_append, feed]
      cases hstep : r.step traffic mode b with
      | silent next =>
          rw [hstep] at h
          obtain ⟨⟨report?, taken', last⟩, hrest, hfed⟩ := Option.map_eq_some_iff.mp h
          obtain ⟨rfl, rfl, rfl⟩ := Fed.mk.inj hfed
          dsimp only
          rw [ih hrest, Option.map_map]
          congr 1
          funext fed
          simp only [Function.comp_apply, Fed.mk.injEq, true_and, and_true]
          omega
      | report report next => rw [hstep] at h; cases h
      | leave defect next => rw [hstep] at h; cases h
      | stuck => rw [hstep] at h; cases h

end Registers

end FieldBus
