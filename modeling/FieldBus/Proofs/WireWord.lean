import FieldBus.Frame.Encode
import FieldBus.Proofs.CheckByte
import FieldBus.Receiver.Basic
import Mathlib.Data.List.Chain

/-!
# The words of the wire

What a run of bytes stands for is said here without a receiver and without an encoder, so that
both can be measured against it.

* `Frame.Body` — the bytes of a checked frame behind its STX, up to and including its ETX.
* `Frame.WireWord` — the words that stand for a frame.  They depend on the direction: an EOT is a
  word of the replies and opens a word of the commands.
* `Noise` — what may lie between words.  Among the commands a lone EOT is noise as well, but only
  if no digit comes right behind it.
* `Frame.IsLegible` — the frames that have a word in a direction at all, and
  **`Frame.wireWord_encode`**: what is sent for such a frame is one of its words.

A word that opens with an STX or an EOT may interrupt another; `Frame.IsOpening` tells the frames
that are sent so.
-/

namespace FieldBus

namespace Frame

/-- The bytes of a checked frame behind its STX, up to and including its ETX. -/
inductive Body : Frame → Bytes → Prop
  | read {station : Station} {parameter : Parameter} {a p : Bytes}
      (ha : station.Spelling a) (hp : parameter.Spelling p) :
      Body (.request (.read station parameter)) (a ++ p ++ [Byte.etx])
  | write {station : Station} {parameter : Parameter} {value : Value} {a p digits : Bytes}
      {sign : UInt8} (ha : station.Spelling a) (hp : parameter.Spelling p)
      (hv : value.Spelling sign digits) :
      Body (.request (.write station parameter value))
        (a ++ p ++ sign :: digits ++ [Byte.etx])
  | value {value : Value} {digits : Bytes} {sign : UInt8} (hv : value.Spelling sign digits) :
      Body (.reply (.value value)) (sign :: digits ++ [Byte.etx])

/-- A body as it travels: behind an STX, and in front of its check byte. -/
def checked (mode : CheckMode) (body : Bytes) : Bytes :=
  Byte.stx :: body ++ [checkByte mode body]

/-- The words that stand for a frame. -/
inductive WireWord (traffic : Traffic) (mode : CheckMode) : Frame → Bytes → Prop
  | checked {frame : Frame} {body : Bytes} (hbody : Body frame body) :
      WireWord traffic mode frame (checked mode body)
  | ack : WireWord traffic mode (.reply .ack) [Byte.ack]
  | nak : WireWord traffic mode (.reply (.refused .commandFailed)) [Byte.nak]
  | eot (hreplies : traffic = .replies) :
      WireWord traffic mode (.reply (.refused .invalidParameter)) [Byte.eot]
  | select {station : Station} {a : Bytes} (hcommands : traffic = .commands)
      (ha : station.Spelling a) :
      WireWord traffic mode (.request (.select station)) (Byte.eot :: a ++ [Byte.enq])

namespace Body

variable {frame : Frame} {body : Bytes}

lemma high_parity (h : Body frame body) : Byte.high (parity body) ≠ 0 := by
  have hsigned : ∀ (a digits : Bytes) (sign : UInt8) (value : Value), Decimal.AllDigits a →
      value.Spelling sign digits →
      Byte.high (parity (a ++ sign :: digits ++ [Byte.etx])) ≠ 0 := by
    intro a digits sign value ha hv
    rcases high_parity_of_sign ha hv.isSign hv.allDigits with h | h <;> rw [h] <;> decide
  cases h with
  | read ha hp =>
      rw [high_parity_of_odd (ha.allDigits_fields hp) (by rw [ha.length_fields hp])]
      decide
  | write ha hp hv => exact hsigned _ _ _ _ (ha.allDigits_fields hp) hv
  | @value value digits sign hv => exact hsigned [] digits sign value Decimal.allDigits_nil hv

/-- **The check byte of a body never opens a frame**, in either mode. -/
lemma opensFrame_checkByte (mode : CheckMode) (h : Body frame body) :
    Byte.opensFrame (checkByte mode body) = false :=
  mode.opensFrame_finish h.high_parity

end Body

lemma WireWord.ne_nil {traffic : Traffic} {mode : CheckMode} {frame : Frame} {word : Bytes}
    (h : WireWord traffic mode frame word) : word ≠ [] := by
  cases h <;> simp [Frame.checked]

/-- The frames that have a word in this direction. -/
def IsLegible (traffic : Traffic) : Frame → Prop
  | .request (.select _) => traffic = .commands
  | .reply (.refused .invalidParameter) => traffic = .replies
  | _ => True

/-- The frames that are sent, in this direction, behind a byte that may interrupt another one. -/
def IsOpening (traffic : Traffic) : Frame → Prop
  | .request (.read ..) => True
  | .request (.write ..) => True
  | .request (.select _) => traffic = .commands
  | .reply (.value _) => True
  | .reply .ack => False
  | .reply (.refused .commandFailed) => False
  | .reply (.refused .invalidParameter) => traffic = .replies

lemma IsOpening.isLegible {traffic : Traffic} {frame : Frame} (h : frame.IsOpening traffic) :
    frame.IsLegible traffic := by
  unfold IsOpening at h
  split at h <;> trivial

end Frame

/-- What may lie between words: no byte that opens or is one.  Among the commands an EOT does
neither, unless a digit comes right behind it. -/
def Noise : Traffic → Bytes → Prop
  | .replies, bytes =>
    ∀ b ∈ bytes, b ≠ Byte.stx ∧ b ≠ Byte.eot ∧ b ≠ Byte.ack ∧ b ≠ Byte.nak
  | .commands, bytes =>
    (∀ b ∈ bytes, b ≠ Byte.stx ∧ b ≠ Byte.ack ∧ b ≠ Byte.nak) ∧
      bytes.IsChain fun b next => b = Byte.eot → Byte.isDigit next = false

lemma noise_cons {traffic : Traffic} {b : UInt8} {rest : Bytes} :
    Noise traffic (b :: rest) ↔
      (b ≠ Byte.stx ∧ b ≠ Byte.ack ∧ b ≠ Byte.nak ∧
        (b = Byte.eot → traffic = .commands ∧ ∀ c ∈ rest.head?, Byte.isDigit c = false)) ∧
      Noise traffic rest := by
  cases traffic with
  | commands =>
      simp only [Noise, List.forall_mem_cons, List.isChain_cons]
      constructor
      · rintro ⟨⟨⟨hstx, hack, hnak⟩, hrest⟩, hhead, hchain⟩
        exact ⟨⟨hstx, hack, hnak, fun h => ⟨trivial, fun c hc => hhead c hc h⟩⟩, hrest, hchain⟩
      · rintro ⟨⟨hstx, hack, hnak, heot⟩, hrest, hchain⟩
        exact ⟨⟨⟨hstx, hack, hnak⟩, hrest⟩, fun c hc h => (heot h).2 c hc, hchain⟩
  | replies =>
      simp only [Noise, List.forall_mem_cons]
      constructor
      · rintro ⟨⟨hstx, heot, hack, hnak⟩, hrest⟩
        exact ⟨⟨hstx, hack, hnak, fun h => absurd h heot⟩, hrest⟩
      · rintro ⟨⟨hstx, hack, hnak, heot⟩, hrest⟩
        exact ⟨⟨hstx, fun h => (by cases (heot h).1), hack, hnak⟩, hrest⟩

/-! ## What an encoder sends -/

namespace Block

variable {block : Block} {held added : Bytes}

lemma bytes_opened (b : UInt8) : (Block.empty.append [b]).bytes = [b] := rfl

lemma bytes_append_of_le (hheld : block.bytes = held) (h : held.length + added.length ≤ 14) :
    (block.append added).bytes = held ++ added := by
  have hsize : block.size = held.length := by rw [← length_bytes, hheld]
  rw [bytes_append, hheld, List.take_of_length_le (by omega)]

/-- Closing adds the ETX and the check byte over everything behind the opening byte. -/
lemma bytes_close {mode : CheckMode} {body : Bytes} (hheld : block.bytes = Byte.stx :: body)
    (h : body.length ≤ 11) :
    (block.close mode).bytes = Frame.checked mode (body ++ [Byte.etx]) := by
  have hetx : (block.append [Byte.etx]).bytes = Byte.stx :: body ++ [Byte.etx] :=
    bytes_append_of_le hheld (by simp; omega)
  simp only [close]
  rw [bytes_append_of_le hetx (by simp; omega), hetx]
  rfl

end Block

namespace Frame

variable {mode : CheckMode}

lemma bytes_fields (station : Station) (parameter : Parameter) :
    (((Block.empty.append [Byte.stx]).append station.field).append parameter.field).bytes
      = Byte.stx :: (station.field ++ parameter.field) := by
  have ha := station.spelling_field.length_eq
  have hp := parameter.spelling_field.length_eq
  have hstation := Block.bytes_append_of_le (Block.bytes_opened Byte.stx)
    (show 1 + station.field.length ≤ 14 by omega)
  exact Block.bytes_append_of_le hstation (by simp [ha, hp])

lemma length_value_field_le (value : Value) : value.field.length ≤ 6 := by
  have := value.spelling_field.length_le
  rw [Value.field, List.length_cons]
  omega

lemma bytes_encode_read (station : Station) (parameter : Parameter) :
    ((Frame.request (.read station parameter)).encode mode).bytes
      = checked mode (station.field ++ parameter.field ++ [Byte.etx]) := by
  have ha := station.spelling_field.length_eq
  have hp := parameter.spelling_field.length_eq
  exact Block.bytes_close (bytes_fields station parameter) (by simp [ha, hp])

lemma bytes_encode_write (station : Station) (parameter : Parameter) (value : Value) :
    ((Frame.request (.write station parameter value)).encode mode).bytes
      = checked mode (station.field ++ parameter.field ++ value.field ++ [Byte.etx]) := by
  have ha := station.spelling_field.length_eq
  have hp := parameter.spelling_field.length_eq
  have hv := length_value_field_le value
  have hvalue := Block.bytes_append_of_le (bytes_fields station parameter)
    (show _ + value.field.length ≤ 14 by simp [ha, hp]; omega)
  exact Block.bytes_close hvalue (by simp [ha, hp]; omega)

lemma bytes_encode_value (value : Value) :
    ((Frame.reply (.value value)).encode mode).bytes
      = checked mode (value.field ++ [Byte.etx]) := by
  have hv := length_value_field_le value
  have hvalue := Block.bytes_append_of_le (Block.bytes_opened Byte.stx)
    (show 1 + value.field.length ≤ 14 by omega)
  exact Block.bytes_close hvalue (by omega)

lemma bytes_encode_select (station : Station) :
    ((Frame.request (.select station)).encode mode).bytes
      = Byte.eot :: station.field ++ [Byte.enq] := by
  have ha := station.spelling_field.length_eq
  have hstation := Block.bytes_append_of_le (Block.bytes_opened Byte.eot)
    (show 1 + station.field.length ≤ 14 by omega)
  exact Block.bytes_append_of_le hstation (by simp [ha])

/-- **What is sent for a frame is a word that stands for it.** -/
theorem wireWord_encode (mode : CheckMode) {traffic : Traffic} {frame : Frame}
    (h : frame.IsLegible traffic) :
    WireWord traffic mode frame (frame.encode mode).bytes := by
  match frame with
  | .request (.read station parameter) =>
      rw [bytes_encode_read]
      exact .checked (.read station.spelling_field parameter.spelling_field)
  | .request (.write station parameter value) =>
      rw [bytes_encode_write]
      exact .checked
        (.write station.spelling_field parameter.spelling_field value.spelling_field)
  | .request (.select station) =>
      rw [bytes_encode_select]
      exact .select h station.spelling_field
  | .reply (.value value) =>
      rw [bytes_encode_value]
      exact .checked (.value value.spelling_field)
  | .reply .ack => exact .ack
  | .reply (.refused .commandFailed) => exact .nak
  | .reply (.refused .invalidParameter) => exact .eot h

lemma wireWord_request (mode : CheckMode) (request : Request) :
    WireWord .commands mode (.request request) ((Frame.request request).encode mode).bytes :=
  wireWord_encode mode (by cases request <;> trivial)

lemma wireWord_reply (mode : CheckMode) (reply : Reply) :
    WireWord .replies mode (.reply reply) ((Frame.reply reply).encode mode).bytes :=
  wireWord_encode mode (by rcases reply with _ | _ | ⟨_ | _⟩ <;> trivial)

end Frame

end FieldBus
