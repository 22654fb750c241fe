import FieldBus.Proofs.WireWord

/-!
# The bytes of a frame

What is sent for a frame is written down here once more, as a string and without a block:
`Frame.wireForm`.  Numbers of a fixed width have their digits one by one, and the magnitude of a
value is the decimal numeral that everybody writes for it.

An encoder has no such string.  It pushes one byte after the other into a block of 14 cells, and
`Frame.encode` does not look at what comes of it: a byte for which there is no cell would be dropped
without a word.  It takes the magnitude apart from its last digit, and goes no further than the five
digits that it has room for: a digit too many would be cut off.  And it computes the check byte over
a part of the block that it is still filling.

* `Frame.push` — the encoder that does look.  It fails at the first byte that is refused.
* `Decimal.peeled` — the magnitude taken apart, with the limit on the digits.
* **`Frame.encode_eq_wireForm`** — nothing is refused and nothing is cut off: for every frame both
  encoders agree, and the bytes are those of the string.  A destination of the caller gets exactly
  these bytes at its front, or is left alone.
-/

namespace FieldBus

/-! ## Numbers as strings -/

namespace Decimal

/-- The decimal numeral of a number.  There is no zero in front, but zero itself is one digit. -/
def numeral (n : Nat) : Bytes := (Nat.toDigits 10 n).map Char.toUInt8

/-- The digits of a number from the last to the first, as long as there is room.  At least one is
taken if there is room for one. -/
def peeled : (room : Nat) → (n : Nat) → Bytes
  | 0, _ => []
  | room + 1, n => Byte.ofDigit n :: if n / 10 = 0 then [] else peeled room (n / 10)

lemma toUInt8_digitChar {d : Nat} (h : d < 10) : d.digitChar.toUInt8 = Byte.ofDigit d := by
  have hdigits : ∀ d : Fin 10, (Nat.digitChar d).toUInt8 = Byte.ofDigit d := by decide
  exact hdigits ⟨d, h⟩

lemma ofDigit_mod (n : Nat) : Byte.ofDigit (n % 10) = Byte.ofDigit n := by
  rw [Byte.ofDigit, Byte.ofDigit, Nat.mod_mod]

/-- The last digit comes off the end. -/
lemma numeral_eq (n : Nat) :
    numeral n = (if n / 10 = 0 then [] else numeral (n / 10)) ++ [Byte.ofDigit n] := by
  rw [numeral, Nat.toDigits_eq_if (by decide)]
  by_cases h : n < 10
  · rw [if_pos h, if_pos (by omega), List.map_singleton, toUInt8_digitChar h, List.nil_append]
  · rw [if_neg h, if_neg (by omega), List.map_append, List.map_singleton,
      toUInt8_digitChar (Nat.mod_lt n (by decide)), ofDigit_mod]
    rfl

/-- Where there is room for all digits, they are the numeral. -/
lemma reverse_peeled {room n : Nat} (h : n < 10 ^ (room + 1)) :
    (peeled (room + 1) n).reverse = numeral n := by
  induction room generalizing n with
  | zero =>
      have hlast : n / 10 = 0 := by omega
      rw [numeral_eq, peeled, if_pos hlast, if_pos hlast]
      rfl
  | succ room ih =>
      rw [numeral_eq, peeled, List.reverse_cons]
      split_ifs with hlast
      · rfl
      · rw [ih (by rw [Nat.pow_succ] at h; omega)]

/-! ### Leading zeros -/

lemma trimmed_zero_cons {rest : Bytes} (h : rest ≠ []) :
    trimmed (Byte.ofDigit 0 :: rest) = trimmed rest := by
  obtain ⟨e, tail, rfl⟩ := List.exists_cons_of_ne_nil h
  rw [trimmed, if_pos rfl]

lemma trimmed_cons_of_ne {d : UInt8} (h : d ≠ Byte.ofDigit 0) (rest : Bytes) :
    trimmed (d :: rest) = d :: rest := by
  cases rest with
  | nil => rfl
  | cons e tail => rw [trimmed, if_neg h]

/-- A zero that stays in front is the only digit. -/
lemma eq_nil_of_trimmed_eq {digits rest : Bytes}
    (h : trimmed digits = Byte.ofDigit 0 :: rest) : rest = [] := by
  fun_induction trimmed digits with
  | case1 => cases h
  | case2 d =>
      exact (List.cons.inj h).2.symm
  | case3 e tail ih => exact ih h
  | case4 d e tail hd => exact absurd (List.cons.inj h).1 hd

/-- Behind a digit that stays, all digits stay. -/
lemma trimmed_concat {digits : Bytes} {d b : UInt8} (hmem : d ∈ digits)
    (hd : d ≠ Byte.ofDigit 0) : trimmed (digits ++ [b]) = trimmed digits ++ [b] := by
  induction digits with
  | nil => cases hmem
  | cons e rest ih =>
      by_cases he : e = Byte.ofDigit 0
      · have hrest : d ∈ rest := (List.mem_cons.mp hmem).resolve_left fun h => hd (h.trans he)
        rw [he, List.cons_append, trimmed_zero_cons (by simp),
          trimmed_zero_cons (List.ne_nil_of_mem hrest), ih hrest]
      · rw [List.cons_append, trimmed_cons_of_ne he, trimmed_cons_of_ne he, List.cons_append]

lemma padded_zero (width : Nat) : padded width 0 = List.replicate width (Byte.ofDigit 0) := by
  induction width with
  | zero => rfl
  | succ width ih => rw [padded, Nat.zero_div, ih, ← List.replicate_succ']

lemma trimmed_padded_zero_concat (width : Nat) (b : UInt8) :
    trimmed (padded width 0 ++ [b]) = [b] := by
  rw [padded_zero]
  induction width with
  | zero => rfl
  | succ width ih => rw [List.replicate_succ, List.cons_append, trimmed_zero_cons (by simp), ih]

/-- A number that fits and is not zero has a digit that is not. -/
lemma exists_mem_padded {width n : Nat} (h : n < 10 ^ width) (hpos : 0 < n) :
    ∃ d ∈ padded width n, d ≠ Byte.ofDigit 0 := by
  induction width generalizing n with
  | zero =>
      rw [Nat.pow_zero] at h
      omega
  | succ width ih =>
      by_cases hlast : n % 10 = 0
      · obtain ⟨d, hmem, hd⟩ := ih (n := n / 10) (by rw [Nat.pow_succ] at h; omega) (by omega)
        exact ⟨d, List.mem_append_left _ hmem, hd⟩
      · refine ⟨Byte.ofDigit n, by simp [padded], fun heq => hlast ?_⟩
        have hnat := congrArg UInt8.toNat heq
        rw [Byte.toNat_ofDigit, Byte.toNat_ofDigit] at hnat
        omega

/-- **The shortest digits that denote a number are its numeral.** -/
lemma shortest_eq_numeral {width n : Nat} (h : n < 10 ^ (width + 1)) :
    shortest (width + 1) n = numeral n := by
  induction width generalizing n with
  | zero =>
      have hlast : n / 10 = 0 := by omega
      rw [numeral_eq, if_pos hlast]
      rfl
  | succ width ih =>
      have hfront : n / 10 < 10 ^ (width + 1) := by
        rw [Nat.pow_succ] at h
        omega
      rw [numeral_eq, shortest, padded]
      split_ifs with hlast
      · rw [hlast, trimmed_padded_zero_concat, List.nil_append]
      · obtain ⟨d, hmem, hd⟩ := exists_mem_padded hfront (Nat.pos_of_ne_zero hlast)
        rw [trimmed_concat hmem hd, ← ih hfront, shortest]

/-- The digits denote the number, there is one at least, and the first is a zero only if there is no
other. -/
structure IsNumeral (digits : Bytes) (n : Nat) : Prop where
  denotes : Denotes digits n
  ne_nil : digits ≠ []
  eq_nil : ∀ rest, digits = Byte.ofDigit 0 :: rest → rest = []

lemma isNumeral_shortest {width n : Nat} (h : n < 10 ^ (width + 1)) :
    IsNumeral (shortest (width + 1) n) n where
  denotes := denotes_shortest h
  ne_nil := trimmed_ne_nil (by simp [padded])
  eq_nil _ := eq_nil_of_trimmed_eq

end Decimal

/-! ## Frames as strings -/

/-- The digits of a station, tens first. -/
def Station.digits (station : Station) : Bytes :=
  [UInt8.ofNat (0x30 + station.number / 10), UInt8.ofNat (0x30 + station.number % 10)]

/-- The digits of a parameter, hundreds first. -/
def Parameter.digits (parameter : Parameter) : Bytes :=
  [UInt8.ofNat (0x30 + parameter.number / 100), UInt8.ofNat (0x30 + parameter.number / 10 % 10),
    UInt8.ofNat (0x30 + parameter.number % 10)]

/-- The sign of a value and the numeral of its magnitude. -/
def Value.numeral (value : Value) : Bytes :=
  (if value.number < 0 then Byte.minus else Byte.plus) :: Decimal.numeral value.number.natAbs

/-- The bytes of a frame. -/
def Frame.wireForm (mode : CheckMode) : Frame → Bytes
  | .request (.read station parameter) =>
    checked mode (station.digits ++ parameter.digits ++ [Byte.etx])
  | .request (.write station parameter value) =>
    checked mode (station.digits ++ parameter.digits ++ value.numeral ++ [Byte.etx])
  | .request (.select station) => Byte.eot :: station.digits ++ [Byte.enq]
  | .reply (.value value) => checked mode (value.numeral ++ [Byte.etx])
  | .reply .ack => [Byte.ack]
  | .reply (.refused .commandFailed) => [Byte.nak]
  | .reply (.refused .invalidParameter) => [Byte.eot]

lemma Station.digits_eq_field (station : Station) : station.digits = station.field := by
  have hle := station.number_le
  have htens : station.number / 10 % 10 = station.number / 10 := by omega
  simp [digits, field, Decimal.padded, Byte.ofDigit, htens]

lemma Parameter.digits_eq_field (parameter : Parameter) :
    parameter.digits = parameter.field := by
  have hle := parameter.number_le
  have hhundreds : parameter.number / 10 / 10 % 10 = parameter.number / 100 := by omega
  simp [digits, field, Decimal.padded, Byte.ofDigit, hhundreds]

namespace Value

lemma natAbs_lt (value : Value) : value.number.natAbs < 10 ^ 5 := by
  have hlo := value.le_number
  have hhi := value.number_le
  omega

lemma numeral_eq_field (value : Value) : value.numeral = value.field := by
  rw [numeral, field, Decimal.shortest_eq_numeral value.natAbs_lt]
  rfl

/-- The numeral of a magnitude denotes it, in one to five digits, of which the first is a zero only
if there is no other. -/
lemma isNumeral_natAbs (value : Value) :
    Decimal.IsNumeral (Decimal.numeral value.number.natAbs) value.number.natAbs ∧
      (Decimal.numeral value.number.natAbs).length ≤ 5 := by
  rw [← Decimal.shortest_eq_numeral value.natAbs_lt]
  exact ⟨Decimal.isNumeral_shortest value.natAbs_lt, Decimal.length_shortest_le _ _⟩

end Value

lemma Frame.bytes_encode (mode : CheckMode) (frame : Frame) :
    (frame.encode mode).bytes = frame.wireForm mode := by
  match frame with
  | .request (.read station parameter) =>
      rw [bytes_encode_read, wireForm, station.digits_eq_field, parameter.digits_eq_field]
  | .request (.write station parameter value) =>
      rw [bytes_encode_write, wireForm, station.digits_eq_field, parameter.digits_eq_field,
        value.numeral_eq_field]
  | .request (.select station) => rw [bytes_encode_select, wireForm, station.digits_eq_field]
  | .reply (.value value) => rw [bytes_encode_value, wireForm, value.numeral_eq_field]
  | .reply .ack => rfl
  | .reply (.refused .commandFailed) => rfl
  | .reply (.refused .invalidParameter) => rfl

/-! ## An encoder that looks -/

namespace Block

/-- Pushes the bytes one after the other, up to the first that is refused. -/
def pushAll (block : Block) (added : Bytes) : Option Block := added.foldlM push block

def pushStation (block : Block) (station : Station) : Option Block := do
  let block ← block.push (Byte.ofDigit (station.number / 10))
  block.push (Byte.ofDigit (station.number % 10))

def pushParameter (block : Block) (parameter : Parameter) : Option Block := do
  let block ← block.push (Byte.ofDigit (parameter.number / 100))
  let block ← block.push (Byte.ofDigit (parameter.number / 10 % 10))
  block.push (Byte.ofDigit (parameter.number % 10))

/-- The digits were taken from the last to the first, and are pushed from the first to the last. -/
def pushValue (block : Block) (value : Value) : Option Block := do
  let block ← block.push value.sign
  block.pushAll (Decimal.peeled 5 value.number.natAbs).reverse

def pushClose (mode : CheckMode) (block : Block) : Option Block := do
  let block ← block.push Byte.etx
  block.push (checkByte mode (block.bytes.drop 1))

variable {block : Block} {held added body : Bytes} {mode : CheckMode}

lemma append_cons {next : Block} {b : UInt8} (h : block.push b = some next) (rest : Bytes) :
    block.append (b :: rest) = next.append rest := by
  rw [append, append, pushEach, h]

/-- As long as there is room, no byte is refused. -/
lemma push_of_lt (hheld : block.bytes = held) (h : held.length < 14) (b : UInt8) :
    block.push b = some (block.append [b]) := by
  cases hpush : block.push b with
  | none =>
      have hsize : held.length = 14 := by
        rw [← hheld, length_bytes]
        exact push_eq_none_iff.mp hpush
      omega
  | some next => rw [append_cons hpush]; rfl

lemma pushAll_of_le (hheld : block.bytes = held) (h : held.length + added.length ≤ 14) :
    block.pushAll added = some (block.append added) := by
  induction added generalizing block held with
  | nil => rfl
  | cons b rest ih =>
      rw [List.length_cons] at h
      have hpush := push_of_lt hheld (by omega) b
      have hnext : (block.append [b]).bytes = held ++ [b] :=
        bytes_append_of_le hheld (by rw [List.length_singleton]; omega)
      have hrest := ih hnext (by rw [List.length_append, List.length_singleton]; omega)
      rw [pushAll, List.foldlM_cons, hpush, append_cons hpush rest]
      exact hrest

lemma pushStation_of_le (station : Station) (hheld : block.bytes = held)
    (h : held.length ≤ 12) : block.pushStation station = some (block.append station.field) := by
  have hlength := station.spelling_field.length_eq
  have hpushed : block.pushStation station = block.pushAll station.field := by
    rw [pushAll, ← station.digits_eq_field]
    have hle := station.number_le
    have htens : station.number / 10 % 10 = station.number / 10 := by omega
    simp [pushStation, Station.digits, Byte.ofDigit, htens]
  rw [hpushed, pushAll_of_le hheld (by omega)]

lemma pushParameter_of_le (parameter : Parameter) (hheld : block.bytes = held)
    (h : held.length ≤ 11) :
    block.pushParameter parameter = some (block.append parameter.field) := by
  have hlength := parameter.spelling_field.length_eq
  have hpushed : block.pushParameter parameter = block.pushAll parameter.field := by
    rw [pushAll, ← parameter.digits_eq_field]
    have hle := parameter.number_le
    have hhundreds : parameter.number / 100 % 10 = parameter.number / 100 := by omega
    simp [pushParameter, Parameter.digits, Byte.ofDigit, hhundreds]
  rw [hpushed, pushAll_of_le hheld (by omega)]

lemma pushValue_of_le (value : Value) (hheld : block.bytes = held) (h : held.length ≤ 8) :
    block.pushValue value = some (block.append value.field) := by
  have hlength := Frame.length_value_field_le value
  have hpushed : block.pushValue value = block.pushAll value.field := by
    rw [← value.numeral_eq_field, Value.numeral, ← Decimal.reverse_peeled value.natAbs_lt]
    rfl
  rw [hpushed, pushAll_of_le hheld (by omega)]

lemma pushClose_of_le (hheld : block.bytes = Byte.stx :: body) (h : body.length ≤ 11) :
    block.pushClose mode = some (block.close mode) := by
  have hbody : (block.append [Byte.etx]).bytes = Byte.stx :: body ++ [Byte.etx] :=
    bytes_append_of_le hheld (by simp; omega)
  rw [pushClose, push_of_lt hheld (by simp; omega)]
  exact push_of_lt hbody (by simp; omega) _

end Block

namespace Frame

/-- The bytes of a frame, pushed one after the other into an empty block. -/
def push (mode : CheckMode) : Frame → Option Block
  | .request (.read station parameter) => do
    let block ← Block.empty.push Byte.stx
    let block ← block.pushStation station
    let block ← block.pushParameter parameter
    block.pushClose mode
  | .request (.write station parameter value) => do
    let block ← Block.empty.push Byte.stx
    let block ← block.pushStation station
    let block ← block.pushParameter parameter
    let block ← block.pushValue value
    block.pushClose mode
  | .request (.select station) => do
    let block ← Block.empty.push Byte.eot
    let block ← block.pushStation station
    block.push Byte.enq
  | .reply (.value value) => do
    let block ← Block.empty.push Byte.stx
    let block ← block.pushValue value
    block.pushClose mode
  | .reply .ack => Block.empty.push Byte.ack
  | .reply (.refused .commandFailed) => Block.empty.push Byte.nak
  | .reply (.refused .invalidParameter) => Block.empty.push Byte.eot

variable {mode : CheckMode}

/-- The block of a checked frame with the fields of its target. -/
def opened (station : Station) (parameter : Parameter) : Block :=
  ((Block.empty.append [Byte.stx]).append station.field).append parameter.field

lemma push_opening (b : UInt8) : Block.empty.push b = some (Block.empty.append [b]) := rfl

lemma pushStation_opening (b : UInt8) (station : Station) :
    (Block.empty.append [b]).pushStation station
      = some ((Block.empty.append [b]).append station.field) :=
  Block.pushStation_of_le station (Block.bytes_opened b) (by simp)

lemma pushParameter_opening (station : Station) (parameter : Parameter) :
    ((Block.empty.append [Byte.stx]).append station.field).pushParameter parameter
      = some (opened station parameter) := by
  have hlength := station.spelling_field.length_eq
  have hheld := Block.bytes_append_of_le (Block.bytes_opened Byte.stx)
    (show 1 + station.field.length ≤ 14 by omega)
  exact Block.pushParameter_of_le parameter hheld (by simp [hlength])

lemma length_fields (station : Station) (parameter : Parameter) :
    (station.field ++ parameter.field).length = 5 :=
  station.spelling_field.length_fields parameter.spelling_field

/-- **No push is refused.** -/
lemma push_eq (mode : CheckMode) (frame : Frame) : frame.push mode = some (frame.encode mode) := by
  match frame with
  | .request (.read station parameter) =>
      have hlength := length_fields station parameter
      have hclose : (opened station parameter).pushClose mode
          = some ((opened station parameter).close mode) :=
        Block.pushClose_of_le (bytes_fields station parameter) (by omega)
      simp only [push, push_opening, pushStation_opening, pushParameter_opening, hclose,
        Option.bind_eq_bind, Option.bind_some]
      rfl
  | .request (.write station parameter value) =>
      have hlength := length_fields station parameter
      have hlengthValue := length_value_field_le value
      have hheld := bytes_fields station parameter
      have hvalue : (opened station parameter).pushValue value
          = some ((opened station parameter).append value.field) :=
        Block.pushValue_of_le value hheld (by rw [List.length_cons]; omega)
      have hheldValue : ((opened station parameter).append value.field).bytes
          = Byte.stx :: (station.field ++ parameter.field) ++ value.field :=
        Block.bytes_append_of_le hheld (by rw [List.length_cons]; omega)
      have hclose : ((opened station parameter).append value.field).pushClose mode
          = some (((opened station parameter).append value.field).close mode) :=
        Block.pushClose_of_le hheldValue (by
          change (station.field ++ parameter.field ++ value.field).length ≤ 11
          rw [List.length_append]
          omega)
      simp only [push, push_opening, pushStation_opening, pushParameter_opening, hvalue, hclose,
        Option.bind_eq_bind, Option.bind_some]
      rfl
  | .request (.select station) =>
      have hlength := station.spelling_field.length_eq
      have hheld := Block.bytes_append_of_le (Block.bytes_opened Byte.eot)
        (show 1 + station.field.length ≤ 14 by omega)
      have henq := Block.push_of_lt hheld (by simp [hlength]) Byte.enq
      simp only [push, push_opening, pushStation_opening, henq, Option.bind_eq_bind,
        Option.bind_some]
      rfl
  | .reply (.value value) =>
      have hlength := length_value_field_le value
      have hvalue : (Block.empty.append [Byte.stx]).pushValue value
          = some ((Block.empty.append [Byte.stx]).append value.field) :=
        Block.pushValue_of_le value (Block.bytes_opened Byte.stx) (by decide)
      have hheld : ((Block.empty.append [Byte.stx]).append value.field).bytes
          = Byte.stx :: value.field :=
        Block.bytes_append_of_le (Block.bytes_opened Byte.stx)
          (show 1 + value.field.length ≤ 14 by omega)
      have hclose : ((Block.empty.append [Byte.stx]).append value.field).pushClose mode
          = some (((Block.empty.append [Byte.stx]).append value.field).close mode) :=
        Block.pushClose_of_le hheld (by omega)
      simp only [push, push_opening, hvalue, hclose, Option.bind_eq_bind, Option.bind_some]
      rfl
  | .reply .ack => rfl
  | .reply (.refused .commandFailed) => rfl
  | .reply (.refused .invalidParameter) => rfl

/-! ## Destinations -/

/-- A destination shorter than a block is left alone. -/
lemma encodeInto_of_lt (mode : CheckMode) (frame : Frame) {destination : Bytes}
    (h : destination.length < 14) :
    frame.encodeInto mode destination = (.error .overflow, destination) := by
  rw [encodeInto, if_pos (show destination.length < Block.capacity from h)]

lemma encodeInto_of_le (mode : CheckMode) (frame : Frame) {destination : Bytes}
    (h : 14 ≤ destination.length) :
    frame.encodeInto mode destination = (.ok (frame.wireForm mode).length,
      frame.wireForm mode ++ destination.drop (frame.wireForm mode).length) := by
  have hcapacity : ¬ destination.length < Block.capacity := Nat.not_lt.mpr h
  rw [encodeInto, if_neg hcapacity, ← bytes_encode, Block.length_bytes]

lemma length_wireForm_le (mode : CheckMode) (frame : Frame) :
    (frame.wireForm mode).length ≤ 14 := by
  rw [← bytes_encode, Block.length_bytes]
  exact (frame.encode mode).size_le

/-- **What is sent for a frame.**  No byte of it is refused, and it is the string that the layout
gives, in which the magnitude of a value is one to five digits that denote it and no zero in front.
A destination of the caller that has fewer cells than a block is refused and left alone.  Any other
has the string at its front afterwards, and behind it what it had there before. -/
theorem encode_eq_wireForm (mode : CheckMode) (frame : Frame) :
    frame.push mode = some (frame.encode mode) ∧
      (frame.encode mode).bytes = frame.wireForm mode ∧
      (frame.wireForm mode).length ≤ 14 ∧
      (∀ value : Value,
        Decimal.IsNumeral (Decimal.numeral value.number.natAbs) value.number.natAbs ∧
          (Decimal.numeral value.number.natAbs).length ≤ 5) ∧
      (∀ destination : Bytes, destination.length < 14 →
        frame.encodeInto mode destination = (.error .overflow, destination)) ∧
      ∀ destination : Bytes, 14 ≤ destination.length →
        ∃ written, frame.encodeInto mode destination
            = (.ok (frame.wireForm mode).length, written) ∧
          written.length = destination.length ∧
          written.take (frame.wireForm mode).length = frame.wireForm mode ∧
          ∀ i, (frame.wireForm mode).length ≤ i → written[i]? = destination[i]? := by
  refine ⟨push_eq mode frame, bytes_encode mode frame, length_wireForm_le mode frame,
    Value.isNumeral_natAbs, fun _ => encodeInto_of_lt mode frame, ?_⟩
  intro destination hdestination
  have hle := (length_wireForm_le mode frame).trans hdestination
  refine ⟨_, encodeInto_of_le mode frame hdestination, ?_, List.take_left, ?_⟩
  · rw [List.length_append, List.length_drop, Nat.add_sub_cancel' hle]
  · intro i hi
    rw [List.getElem?_append_right hi, List.getElem?_drop, Nat.add_sub_cancel' hi]

/-- The longest frame, for a destination that is one cell short and for one with cells to spare. -/
theorem encode_eq_wireForm_of_longest_write :
    let frame : Frame := .request
      (.write ⟨99, by decide⟩ ⟨999, by decide⟩ ⟨-99999, by decide, by decide⟩)
    let word : Bytes := Byte.stx :: List.replicate 5 0x39 ++ Byte.minus ::
      List.replicate 5 0x39 ++ [Byte.etx, 0x2e]
    frame.wireForm .plain = word ∧
      frame.push .plain = some (frame.encode .plain) ∧
      frame.encodeInto .plain (List.replicate 13 0xff)
        = (.error .overflow, List.replicate 13 0xff) ∧
      ∃ written, frame.encodeInto .plain (List.replicate 16 0xff) = (.ok 14, written) ∧
        written.take 14 = word ∧ written[14]? = some 0xff := by
  intro frame word
  have hword : frame.wireForm .plain = word := by decide
  have hlength : (frame.wireForm .plain).length = 14 := by
    rw [hword]
    decide
  obtain ⟨hpush, -, -, -, hshort, hlong⟩ := encode_eq_wireForm .plain frame
  obtain ⟨written, hwritten, -, hfront, hrest⟩ := hlong (List.replicate 16 0xff) (by decide)
  rw [hlength] at hwritten hfront hrest
  exact ⟨hword, hpush, hshort _ (by decide), written, hwritten, hfront.trans hword,
    hrest 14 (by decide)⟩

end Frame

end FieldBus
