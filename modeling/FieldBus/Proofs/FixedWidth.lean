import FieldBus.Proofs.Blame
import FieldBus.Proofs.Carrying
import FieldBus.Proofs.History
import Mathlib.Data.List.TakeWhile

/-!
# Registers of fixed width are wide enough

The receiver in registers relies on a good deal that it never looks at: that the number of two
digits is that of a station, that there is a station when the check byte has come, that the body
fits into its block, that no number wraps around, and that nothing is left of the frame before.  It
can rely on all of it.

What the registers must hold is read off the bytes since the opening byte: the digits up to the
first other byte are those of the station and the parameter, and those behind it are those of the
value.  `Registers.Sound` compares the registers with these digits, whose numbers are computed
without any bound; where the two agree, nothing has wrapped.

* `Registers.stationDigits`, `Registers.parameterDigits`, `Registers.valueDigits` — the digits of
  the three fields among the bytes.
* `Registers.Sound` — the registers are what these bytes make of them; `Registers.Safe` — whatever
  is looked up or stored next is found or has room (`Registers.Sound.safe`).
* `Registers.Filled` — what has to be said of each stage for that: every register was filled from
  its digits, modulo its width (`Registers.Filled.sound`).
* **`Registers.run_sound`** — any run of feedings and resets.  A call goes through the states that
  shorter calls end in (`Registers.feed_append`), so this is about the middle of a call as well.
-/

namespace FieldBus

namespace Stage

/-- Whether the receiver has nothing of a frame: it is in none, or in a broken one. -/
def isBlank : Stage → Bool
  | idle | skipping | skippingCheck => true
  | _ => false

/-- The byte that has opened the frame. -/
def opening? : Stage → Option UInt8
  | idle | skipping | skippingCheck => none
  | selectAddress | selectTerminator => some Byte.eot
  | _ => some Byte.stx

/-- The most digits that are counted in this stage. -/
def width : Stage → Nat
  | address | selectAddress => 1
  | parameter => 2
  | value | checksum => 5
  | _ => 0

/-- Whether the station field lies behind, or the sign that stands in its place in a reply. -/
def isBehindStation : Stage → Bool
  | parameter | terminator | value | checksum | selectTerminator => true
  | _ => false

end Stage

namespace Registers

/-! ## What the bytes determine -/

/-- The digits of the station behind the opening byte. -/
def stationDigits (seen : Bytes) : Bytes := (seen.tail.takeWhile Byte.isDigit).take 2

/-- The digits of the parameter, behind those of the station. -/
def parameterDigits (seen : Bytes) : Bytes := (seen.tail.takeWhile Byte.isDigit).drop 2

/-- The digits of the value, behind the sign. -/
def valueDigits (seen : Bytes) : Bytes :=
  (seen.tail.dropWhile Byte.isDigit).tail.takeWhile Byte.isDigit

/-- The digits that are counted in this stage.  The count of a value is kept until its frame is
complete. -/
def counted (seen : Bytes) : Stage → Bytes
  | .address | .selectAddress => stationDigits seen
  | .parameter => parameterDigits seen
  | .value | .checksum => valueDigits seen
  | _ => []

/-- The registers are what the bytes since the opening byte, this one included, make of them. -/
structure Sound (r : Registers) (seen : Bytes) : Prop where
  /-- Outside a frame nothing is left of the last one. -/
  eq_blank : r.stage.isBlank = true → r = blank r.stage r.body
  head?_eq : seen.head? = r.stage.opening?
  bytes_eq : r.body.bytes = if r.stage.opening? = some Byte.stx then seen.tail else []
  size_le : r.body.size ≤ 12
  count_eq : r.count.toNat = (counted seen r.stage).length
  count_le : r.count.toNat ≤ r.stage.width
  address_eq : r.address.toNat = Decimal.number (stationDigits seen)
  parameter_eq : r.parameter.toNat = Decimal.number (parameterDigits seen)
  magnitude_eq : r.magnitude.toInt = Decimal.number (valueDigits seen)
  length_le : (parameterDigits seen).length ≤ 3 ∧ (valueDigits seen).length ≤ 5
  /-- The station is there from its second digit on. -/
  station?_eq : r.station?.map Station.number =
    if (stationDigits seen).length = 2 then some (Decimal.number (stationDigits seen)) else none
  isSome_station? : r.stage.isBehindStation = true → r.isReply = false → r.station?.isSome = true

/-- Nothing that the receiver does next can fail but for the byte that comes. -/
structure Safe (r : Registers) : Prop where
  isSome_push : ∀ b, (r.body.push b).isSome = true
  exists_station : ∃ station, Station.ofInt r.address.toNat = .ok station
  exists_parameter : ∃ parameter, Parameter.ofInt r.parameter.toNat = .ok parameter
  exists_value : ∃ value, Value.ofInt r.signed = .ok value

section Fields

variable {seen a p v tail : Bytes} {o c : UInt8}

lemma allDigits_takeWhile (bytes : Bytes) : Decimal.AllDigits (bytes.takeWhile Byte.isDigit) :=
  fun _ hmem => List.mem_takeWhile_imp hmem

lemma allDigits_stationDigits (seen : Bytes) : Decimal.AllDigits (stationDigits seen) :=
  fun _ hmem => allDigits_takeWhile _ _ (List.mem_of_mem_take hmem)

lemma allDigits_parameterDigits (seen : Bytes) : Decimal.AllDigits (parameterDigits seen) :=
  fun _ hmem => allDigits_takeWhile _ _ (List.mem_of_mem_drop hmem)

lemma allDigits_valueDigits (seen : Bytes) : Decimal.AllDigits (valueDigits seen) :=
  allDigits_takeWhile _

lemma number_stationDigits_lt (seen : Bytes) : Decimal.number (stationDigits seen) < 10 ^ 2 :=
  Decimal.number_lt_of_length_le (allDigits_stationDigits seen) (List.length_take_le ..)

/-- The bytes have these digits in the three fields. -/
structure HasFields (seen a p v : Bytes) : Prop where
  station_eq : stationDigits seen = a
  parameter_eq : parameterDigits seen = p
  value_eq : valueDigits seen = v

/-- The digits end where the first other byte stands, and the value begins behind it. -/
lemma hasFields_append (hdigits : Decimal.AllDigits (a ++ p))
    (ha : a.length = 2 ∨ a.length < 2 ∧ p = [])
    (htail : ∀ c ∈ tail.head?, Byte.isDigit c = false) :
    HasFields (o :: (a ++ p ++ tail)) a p (tail.tail.takeWhile Byte.isDigit) := by
  have hstop : tail.takeWhile Byte.isDigit = [] ∧ tail.dropWhile Byte.isDigit = tail := by
    cases tail with
    | nil => exact ⟨rfl, rfl⟩
    | cons c rest => simp [htail c rfl]
  have htake : (a ++ p ++ tail).takeWhile Byte.isDigit = a ++ p := by
    rw [List.takeWhile_append_of_pos hdigits, hstop.1, List.append_nil]
  have hdrop : (a ++ p ++ tail).dropWhile Byte.isDigit = tail := by
    rw [List.dropWhile_append_of_pos hdigits, hstop.2]
  have hsplit : (a ++ p).take 2 = a ∧ (a ++ p).drop 2 = p := by
    rcases ha with ha | ⟨ha, rfl⟩
    · exact ⟨List.take_left' ha, List.drop_left' ha⟩
    · rw [List.append_nil]
      exact ⟨List.take_of_length_le ha.le, List.drop_of_length_le ha.le⟩
  constructor
  · rw [stationDigits, List.tail_cons, htake, hsplit.1]
  · rw [parameterDigits, List.tail_cons, htake, hsplit.2]
  · rw [valueDigits, List.tail_cons, hdrop]

lemma hasFields_fields (hdigits : Decimal.AllDigits (a ++ p))
    (ha : a.length = 2 ∨ a.length < 2 ∧ p = []) : HasFields (o :: (a ++ p)) a p [] := by
  have h : HasFields (o :: (a ++ p ++ [])) a p [] := hasFields_append hdigits ha (by simp)
  rwa [List.append_nil] at h

lemma hasFields_station (hdigits : Decimal.AllDigits a) (hlength : a.length ≤ 2) :
    HasFields (o :: a) a [] [] := by
  have h : HasFields (o :: (a ++ [])) a [] [] :=
    hasFields_fields (by simpa using hdigits) (hlength.eq_or_lt.imp id fun hlt => ⟨hlt, rfl⟩)
  rwa [List.append_nil] at h

end Fields

section Sound

variable {traffic : Traffic} {r : Registers} {phase : Phase} {block : Block} {stage : Stage}
  {seen a p v d : Bytes}

/-- The registers in a frame, filled modulo their widths from the digits of the fields. -/
structure Filled (r : Registers) (seen a p v d : Bytes) : Prop where
  fields : HasFields seen a p v
  parameter_le : p.length ≤ 3 := by simp
  value_le : v.length ≤ 5 := by simp
  address_eq : r.address = .ofNat (Decimal.number a) := by rfl
  parameter_eq : r.parameter = .ofNat (Decimal.number p) := by rfl
  magnitude_eq : r.magnitude = .ofNat (Decimal.number v) := by rfl
  counted_eq : counted seen r.stage = d := by rfl
  count_eq : r.count = .ofNat d.length := by rfl
  count_le : d.length ≤ r.stage.width := by exact Nat.zero_le _
  isBlank_eq : r.stage.isBlank = false := by rfl
  head?_eq : seen.head? = r.stage.opening? := by rfl
  length_le : seen.length ≤ 13
  bytes_eq : r.body.bytes = if r.stage.opening? = some Byte.stx then seen.tail else []
  station?_eq : r.station?.map Station.number =
    if a.length = 2 then some (Decimal.number a) else none
  isSome_station? : r.stage.isBehindStation = true → r.isReply = false →
    r.station?.isSome = true

/-- No field is too long for its register, so a register that was filled modulo its width holds the
number itself. -/
lemma Filled.sound (h : r.Filled seen a p v d) : r.Sound seen := by
  obtain ⟨rfl, rfl, rfl⟩ := h.fields
  obtain rfl := h.counted_eq
  have hcount : r.count.toNat = (counted seen r.stage).length := by
    rw [h.count_eq]
    refine UInt8.toNat_ofNat_of_lt' (h.count_le.trans_lt ?_)
    cases r.stage <;> decide
  constructor
  case eq_blank =>
    intro hblank
    rw [h.isBlank_eq] at hblank
    cases hblank
  case head?_eq => exact h.head?_eq
  case bytes_eq => exact h.bytes_eq
  case size_le =>
    have hlength := h.length_le
    rw [← Block.length_bytes, h.bytes_eq]
    split_ifs
    · rw [List.length_tail]
      omega
    · exact Nat.zero_le _
  case count_eq => exact hcount
  case count_le => exact hcount.trans_le h.count_le
  case address_eq =>
    rw [h.address_eq]
    exact UInt8.toNat_ofNat_of_lt' ((number_stationDigits_lt seen).trans (by decide))
  case parameter_eq =>
    have hlt := Decimal.number_lt_of_length_le (allDigits_parameterDigits seen) h.parameter_le
    rw [h.parameter_eq]
    exact UInt16.toNat_ofNat_of_lt' (hlt.trans (by decide))
  case magnitude_eq =>
    have hlt := Decimal.number_lt_of_length_le (allDigits_valueDigits seen) h.value_le
    rw [h.magnitude_eq]
    exact Int32.toInt_ofNat_of_lt (hlt.trans (by decide))
  case length_le => exact ⟨h.parameter_le, h.value_le⟩
  case station?_eq => exact h.station?_eq
  case isSome_station? => exact h.isSome_station?

/-- What is sound is safe. -/
lemma Sound.safe (h : r.Sound seen) : r.Safe := by
  have hstation := number_stationDigits_lt seen
  have hparameter := Decimal.number_lt_of_length_le (allDigits_parameterDigits seen) h.length_le.1
  have hvalue := Decimal.number_lt_of_length_le (allDigits_valueDigits seen) h.length_le.2
  rw [← h.address_eq] at hstation
  rw [← h.parameter_eq] at hparameter
  refine ⟨fun b => ?_, ?_, ?_, ?_⟩
  · have hsize := h.size_le
    rw [Option.isSome_iff_ne_none, Ne, Block.push_eq_none_iff]
    omega
  · exact ⟨_, dif_pos (by omega)⟩
  · exact ⟨_, dif_pos (by omega)⟩
  · have hrange : -99999 ≤ r.signed ∧ r.signed ≤ 99999 := by
      rw [signed_eq h.magnitude_eq hvalue]
      split_ifs <;> omega
    exact ⟨_, dif_pos hrange⟩

lemma sound_blank (hstage : stage.isBlank = true) (hbody : block.bytes = []) :
    (blank stage block).Sound [] := by
  have hsize : block.size ≤ 12 := by
    rw [← Block.length_bytes, hbody]
    decide
  cases stage with
  | idle | skipping | skippingCheck =>
      exact
        { eq_blank := fun _ => rfl, head?_eq := rfl, bytes_eq := hbody, size_le := hsize
          count_eq := rfl, count_le := Nat.zero_le _, address_eq := rfl, parameter_eq := rfl
          magnitude_eq := rfl, length_le := ⟨by decide, by decide⟩, station?_eq := rfl
          isSome_station? := by rintro ⟨⟩ }
  | _ => cases hstage

lemma sound_ofAddress {o : UInt8}
    (hstage : stage = .address ∧ o = Byte.stx ∨ stage = .selectAddress ∧ o = Byte.eot)
    (hbody : block.bytes = if o = Byte.stx then a else []) (ha : Decimal.AllDigits a)
    (hlength : a.length < 2) : (ofAddress stage block (.ofDigits a)).Sound (o :: a) := by
  have hfields : HasFields (o :: a) a [] [] := hasFields_station ha hlength.le
  have hshort : (o :: a).length ≤ 13 := by
    rw [List.length_cons]
    omega
  have hstation : (none : Option Station).map Station.number
      = if a.length = 2 then some (Decimal.number a) else none := by
    rw [if_neg (by omega)]
    rfl
  rcases hstage with ⟨rfl, rfl⟩ | ⟨rfl, rfl⟩ <;> exact Filled.sound
    { fields := hfields, counted_eq := hfields.station_eq, count_le := Nat.le_of_lt_succ hlength
      length_le := hshort, bytes_eq := hbody, station?_eq := hstation
      isSome_station? := by rintro ⟨⟩ }

/-- The station is in its register from its second digit on. -/
lemma station?_of_spelling {station : Station} (ha : station.Spelling a) :
    (some station).map Station.number
      = if a.length = 2 then some (Decimal.number a) else none := by
  rw [if_pos ha.length_eq, ha.denotes.number_eq]
  rfl

lemma sound_ofParameter {station : Station} (hbody : block.bytes = a ++ p)
    (ha : station.Spelling a) (hp : Decimal.AllDigits p) (hlength : p.length < 3) :
    (ofParameter block station (.ofDigits p)).Sound (Byte.stx :: (a ++ p)) := by
  have hfields : HasFields (Byte.stx :: (a ++ p)) a p [] :=
    hasFields_fields (Decimal.allDigits_append.mpr ⟨ha.denotes.allDigits, hp⟩) (.inl ha.length_eq)
  have hshort : (Byte.stx :: (a ++ p)).length ≤ 13 := by
    rw [List.length_cons, List.length_append, ha.length_eq]
    omega
  exact Filled.sound
    { fields := hfields, parameter_le := hlength.le
      address_eq := congrArg UInt8.ofNat ha.denotes.number_eq.symm
      counted_eq := hfields.parameter_eq, count_le := Nat.le_of_lt_succ hlength
      length_le := hshort, bytes_eq := hbody
      station?_eq := station?_of_spelling ha, isSome_station? := fun _ _ => rfl }

/-- Behind the parameter field, with an ETX behind it or without. -/
lemma sound_ofTarget {station : Station} {parameter : Parameter} {rest : Bytes}
    (hstage : stage = .terminator ∧ rest = [] ∨ stage = .checksum ∧ rest = [Byte.etx])
    (hbody : block.bytes = a ++ p ++ rest) (ha : station.Spelling a) (hp : parameter.Spelling p) :
    (ofTarget stage block (some (station, parameter))).Sound (Byte.stx :: (a ++ p ++ rest)) := by
  have hstop : ∀ c ∈ rest.head?, Byte.isDigit c = false := by
    rcases hstage with ⟨-, rfl⟩ | ⟨-, rfl⟩ <;> rintro c ⟨⟩
    rfl
  have hnone : rest.tail.takeWhile Byte.isDigit = [] := by
    rcases hstage with ⟨-, rfl⟩ | ⟨-, rfl⟩ <;> rfl
  have hfields : HasFields (Byte.stx :: (a ++ p ++ rest)) a p (rest.tail.takeWhile Byte.isDigit) :=
    hasFields_append (ha.allDigits_fields hp) (.inl ha.length_eq) hstop
  rw [hnone] at hfields
  have hshort : (Byte.stx :: (a ++ p ++ rest)).length ≤ 13 := by
    rw [List.length_cons, List.length_append, ha.length_fields hp]
    rcases hstage with ⟨-, rfl⟩ | ⟨-, rfl⟩ <;> decide
  have hcounted : counted (Byte.stx :: (a ++ p ++ rest)) stage = [] := by
    rcases hstage with ⟨rfl, -⟩ | ⟨rfl, -⟩
    · rfl
    · exact hfields.value_eq
  rcases hstage with ⟨rfl, rfl⟩ | ⟨rfl, rfl⟩ <;> exact Filled.sound
    { fields := hfields, parameter_le := hp.length_eq.le
      address_eq := congrArg UInt8.ofNat ha.denotes.number_eq.symm
      parameter_eq := congrArg UInt16.ofNat hp.denotes.number_eq.symm
      counted_eq := hcounted, length_le := hshort, bytes_eq := hbody
      station?_eq := station?_of_spelling ha, isSome_station? := fun _ _ => rfl }

lemma sound_selectTerminator {station : Station} (hbody : block.bytes = [])
    (ha : station.Spelling a) :
    (ofStation .selectTerminator block station).Sound (Byte.eot :: a) := by
  have hshort : (Byte.eot :: a).length ≤ 13 := by
    rw [List.length_cons, ha.length_eq]
    decide
  exact Filled.sound
    { fields := hasFields_station ha.denotes.allDigits ha.length_eq.le
      address_eq := congrArg UInt8.ofNat ha.denotes.number_eq.symm
      length_le := hshort, bytes_eq := hbody
      station?_eq := station?_of_spelling ha, isSome_station? := fun _ _ => rfl }

/-- Behind the sign of a value, with an ETX behind the digits or without. -/
lemma sound_ofValue {target : Option (Station × Parameter)} {front digits rest : Bytes}
    {sign : UInt8} (hstage : stage = .value ∧ rest = [] ∨ stage = .checksum ∧ rest = [Byte.etx])
    (hbody : block.bytes = front ++ sign :: (digits ++ rest)) (hfront : Front target front)
    (hsign : Byte.isSign sign = true) (hdigits : Decimal.AllDigits digits)
    (hlength : digits.length ≤ 5) :
    (ofValue stage block target (sign == Byte.minus) (.ofDigits digits)).Sound
      (Byte.stx :: (front ++ sign :: (digits ++ rest))) := by
  have hstop : ∀ c ∈ (sign :: (digits ++ rest)).head?, Byte.isDigit c = false := by
    rintro c ⟨⟩
    by_contra hdigit
    rw [Byte.isSign_of_isDigit (by simpa using hdigit)] at hsign
    cases hsign
  have hvalue : (sign :: (digits ++ rest)).tail.takeWhile Byte.isDigit = digits := by
    rw [List.tail_cons, List.takeWhile_append_of_pos hdigits]
    rcases hstage with ⟨-, rfl⟩ | ⟨-, rfl⟩ <;> exact List.append_nil _
  have hshort : (Byte.stx :: (front ++ sign :: (digits ++ rest))).length ≤ 13 := by
    have := hfront.length_le
    rcases hstage with ⟨-, rfl⟩ | ⟨-, rfl⟩ <;>
      simp only [List.length_cons, List.length_append, List.length_nil] <;> omega
  cases hfront with
  | none =>
      have hfields : HasFields (Byte.stx :: ([] ++ [] ++ sign :: (digits ++ rest))) [] []
          ((sign :: (digits ++ rest)).tail.takeWhile Byte.isDigit) :=
        hasFields_append Decimal.allDigits_nil (.inr ⟨by decide, rfl⟩) hstop
      rw [hvalue] at hfields
      rcases hstage with ⟨rfl, rfl⟩ | ⟨rfl, rfl⟩ <;> exact Filled.sound
        { fields := hfields, value_le := hlength, counted_eq := hfields.value_eq
          count_le := hlength, length_le := hshort, bytes_eq := hbody, station?_eq := rfl
          isSome_station? := by rintro - ⟨⟩ }
  | @some station parameter a p ha hp =>
      have hfields : HasFields (Byte.stx :: (a ++ p ++ sign :: (digits ++ rest))) a p
          ((sign :: (digits ++ rest)).tail.takeWhile Byte.isDigit) :=
        hasFields_append (ha.allDigits_fields hp) (.inl ha.length_eq) hstop
      rw [hvalue] at hfields
      rcases hstage with ⟨rfl, rfl⟩ | ⟨rfl, rfl⟩ <;> exact Filled.sound
        { fields := hfields, parameter_le := hp.length_eq.le, value_le := hlength
          address_eq := congrArg UInt8.ofNat ha.denotes.number_eq.symm
          parameter_eq := congrArg UInt16.ofNat hp.denotes.number_eq.symm
          counted_eq := hfields.value_eq, count_le := hlength, length_le := hshort
          bytes_eq := hbody, station?_eq := station?_of_spelling ha
          isSome_station? := fun _ _ => rfl }

/-- Registers that carry what the bytes determine are sound. -/
lemma Carries.sound (h : r.Carries phase) (hholds : phase.Holds traffic seen) : r.Sound seen := by
  cases h with
  | idle hbody => cases hholds; exact sound_blank rfl hbody
  | address hbody => cases hholds with
    | address ha hlength => exact sound_ofAddress (.inl ⟨rfl, rfl⟩) hbody ha hlength
  | parameter hbody => cases hholds with
    | parameter ha hp hlength => exact sound_ofParameter hbody ha hp hlength
  | terminator hbody => cases hholds with
    | terminator ha hp =>
      have hsound := sound_ofTarget (.inl ⟨rfl, rfl⟩) (by rwa [List.append_nil]) ha hp
      rwa [List.append_nil] at hsound
  | value hbody => cases hholds with
    | value hfront hsign hdigits hlength =>
      have hsound := sound_ofValue (.inl ⟨rfl, rfl⟩) (by rwa [List.append_nil]) hfront hsign
        hdigits hlength
      rwa [List.append_nil] at hsound
  | checkRead ha hp hbody => cases hholds; exact sound_ofTarget (.inr ⟨rfl, rfl⟩) hbody ha hp
  | checkValue hfront hvalue hbody =>
    cases hholds
    rw [List.append_assoc, List.cons_append] at hbody ⊢
    exact sound_ofValue (.inr ⟨rfl, rfl⟩) hbody hfront hvalue.isSign hvalue.allDigits
      hvalue.length_le
  | selectAddress hbody => cases hholds with
    | selectAddress hcommands ha hlength =>
      exact sound_ofAddress (.inr ⟨rfl, rfl⟩) hbody ha hlength
  | selectTerminator hbody => cases hholds with
    | selectTerminator hcommands ha => exact sound_selectTerminator hbody ha
  | skipping hbody => cases hholds; exact sound_blank rfl hbody
  | skippingCheck hbody => cases hholds; exact sound_blank rfl hbody

end Sound

end Registers

/-! ## Any run of calls -/

lemma Fault.breaksFrame_iff {fault : Fault} :
    fault.breaksFrame = true ↔ fault ∈ [framing, checksum, invalidDigit, overflow] := by
  cases fault <;> decide

namespace Receiver

/-- What can be done with a receiver. -/
inductive Operation where
  | feed (bytes : Bytes)
  | reset
  deriving DecidableEq

/-- An operation and what came of it: the report, and the number of bytes taken. -/
structure Entry where
  operation : Operation
  report? : Option Report
  taken : Nat
  deriving DecidableEq

/-- Does one operation, and makes the entry for it. -/
def operate (receiver : Receiver) : Operation → Entry × Receiver
  | .feed bytes =>
    let fed := receiver.feed bytes
    (⟨.feed bytes, fed.report?, fed.taken⟩, fed.receiver)
  | .reset => (⟨.reset, none, 0⟩, receiver.reset)

/-- The bytes taken since the last reset, when one more operation is done. -/
def Entry.hear (past : Bytes) (entry : Entry) : Bytes :=
  match entry.operation with
  | .feed bytes => past ++ bytes.take entry.taken
  | .reset => []

/-- The bytes taken since the last reset. -/
def heard (log : List Entry) : Bytes := log.foldl Entry.hear []

lemma heard_concat (log : List Entry) (entry : Entry) :
    heard (log ++ [entry]) = entry.hear (heard log) := by
  rw [heard, List.foldl_append]
  rfl

/-- Every defect that is reported has a fault of frames. -/
def BreaksFrames (log : List Entry) : Prop :=
  ∀ entry ∈ log, ∀ defect, entry.report? = some (.defect defect) → defect.fault.breaksFrame = true

/-- Behind any run the receiver holds the last of the bytes taken since the last reset, and no
defect was blamed on anything but a frame. -/
lemma follows_run (traffic : Traffic) (mode : CheckMode) (operations : List Operation) :
    (History.run operate (start traffic mode) operations).2.Follows traffic mode
        (heard (History.run operate (start traffic mode) operations).1) ∧
      BreaksFrames (History.run operate (start traffic mode) operations).1 := by
  refine History.run_invariant operate
    (fun log receiver => receiver.Follows traffic mode (heard log) ∧ BreaksFrames log)
    ⟨follows_start, by rintro entry ⟨⟩⟩ ?_ operations
  rintro log receiver operation ⟨hfollows, hblames⟩
  rw [heard_concat, BreaksFrames, List.forall_mem_append, List.forall_mem_singleton]
  cases operation with
  | feed bytes =>
      exact ⟨(hfollows.feed bytes).1, hblames,
        fun _ hreport => hfollows.breaksFrame_of_defect hreport⟩
  | reset => exact ⟨hfollows.inPhase List.nil_suffix .idle, hblames, by rintro defect ⟨⟩⟩

end Receiver

namespace Registers

open Receiver (Operation Entry)

/-- Does one operation, and makes the entry for it; there is no result if the receiver gets
stuck. -/
def operate (traffic : Traffic) (mode : CheckMode) (r : Registers) :
    Operation → Option (Entry × Registers)
  | .feed bytes =>
    (r.feed traffic mode bytes).map fun fed =>
      (⟨.feed bytes, fed.report?, fed.taken⟩, fed.registers)
  | .reset => some (⟨.reset, none, 0⟩, r.clear)

/-- Does one operation after the other, unless the receiver gets stuck.  There is one entry for
each. -/
def run (traffic : Traffic) (mode : CheckMode) (r : Registers) :
    List Operation → Option (List Entry × Registers)
  | [] => some ([], r)
  | operation :: rest => do
    let (entry, next) ← r.operate traffic mode operation
    let (log, last) ← next.run traffic mode rest
    some (entry :: log, last)

variable {traffic : Traffic} {mode : CheckMode} {r : Registers} {receiver : Receiver} {past : Bytes}

/-- Feeding registers is feeding the phase that they carry. -/
lemma feed_of_carries (h : r.Carries receiver.phase)
    (hfollows : receiver.Follows traffic mode past) (bytes : Bytes) :
    ∃ last, r.feed traffic mode bytes
        = some ⟨(receiver.feed bytes).report?, (receiver.feed bytes).taken, last⟩ ∧
      last.Carries (receiver.feed bytes).receiver.phase := by
  induction bytes generalizing r receiver past with
  | nil => exact ⟨r, rfl, h⟩
  | cons b rest ih =>
      have hcarries : (r.step traffic mode b).Carries (receiver.step b) := by
        obtain ⟨htraffic, hmode, seen, -, hholds⟩ := hfollows
        rw [Receiver.step, htraffic, hmode]
        exact carries_step mode b h hholds
      generalize houtcome : r.step traffic mode b = outcome at hcarries
      cases hstep : receiver.step b with
      | silent phase =>
          rw [hstep] at hcarries
          cases hcarries with
          | silent hnext =>
              obtain ⟨last, hfeed, hlast⟩ :=
                ih hnext ((Receiver.Passes.singleton hstep).follows hfollows)
              rw [Receiver.feed_cons_of_silent hstep]
              refine ⟨last, ?_, hlast⟩
              rw [feed, houtcome]
              dsimp only
              rw [hfeed]
              rfl
      | report report phase =>
          rw [hstep] at hcarries
          cases hcarries with
          | report hnext =>
              rw [Receiver.feed_cons_of_report hstep]
              exact ⟨_, by rw [feed, houtcome], hnext⟩
      | leave defect =>
          rw [hstep] at hcarries
          cases hcarries with
          | leave hnext =>
              rw [Receiver.feed_cons_of_leave hstep]
              exact ⟨_, by rw [feed, houtcome], hnext⟩

lemma operate_of_carries (h : r.Carries receiver.phase)
    (hfollows : receiver.Follows traffic mode past) (operation : Operation) :
    ∃ last, r.operate traffic mode operation = some ((receiver.operate operation).1, last) ∧
      last.Carries (receiver.operate operation).2.phase := by
  cases operation with
  | feed bytes =>
      obtain ⟨last, hfeed, hlast⟩ := feed_of_carries h hfollows bytes
      exact ⟨last, by rw [operate, hfeed]; rfl, hlast⟩
  | reset => exact ⟨r.clear, rfl, carries_clear⟩

/-- Whatever is done, the registers keep up with the phase. -/
lemma run_of_carries (h : r.Carries receiver.phase) (hfollows : receiver.Follows traffic mode past)
    (operations : List Operation) :
    ∃ last, r.run traffic mode operations
        = some ((History.run Receiver.operate receiver operations).1, last) ∧
      last.Carries (History.run Receiver.operate receiver operations).2.phase := by
  induction operations generalizing r receiver past with
  | nil => exact ⟨r, rfl, h⟩
  | cons operation rest ih =>
      obtain ⟨next, hoperate, hnext⟩ := operate_of_carries h hfollows operation
      have hfollows' : ∃ past', (receiver.operate operation).2.Follows traffic mode past' := by
        cases operation with
        | feed bytes => exact ⟨_, (hfollows.feed bytes).1⟩
        | reset => exact ⟨_, hfollows.reset⟩
      obtain ⟨past', hfollows'⟩ := hfollows'
      obtain ⟨last, hrun, hlast⟩ := ih hnext hfollows'
      exact ⟨last, by rw [run, hoperate]; simp [hrun, History.run], hlast⟩

/-- **Nothing that a receiver in registers relies on ever fails**, in whatever way it is fed and
reset.  It does not get stuck; it tells what the receiver with phases tells, and holds what that one
holds.  At any time the number in each register is that of all the digits that have come, outside a
frame everything is clear, and what is looked up or stored next is in range; so no defect is blamed
on anything but the frame. -/
theorem run_sound (traffic : Traffic) (mode : CheckMode) (operations : List Operation) :
    ∃ log registers seen, start.run traffic mode operations = some (log, registers) ∧
      log = (History.run Receiver.operate (.start traffic mode) operations).1 ∧
      registers.Carries (History.run Receiver.operate (.start traffic mode) operations).2.phase ∧
      seen <:+ Receiver.heard log ∧ registers.Sound seen ∧ registers.Safe ∧
      ∀ entry ∈ log, ∀ defect, entry.report? = some (.defect defect) →
        defect.fault ∈ [Fault.framing, .checksum, .invalidDigit, .overflow] := by
  have hstart : (Receiver.start traffic mode).Follows traffic mode [] := Receiver.follows_start
  obtain ⟨hfollows, hbreaks⟩ := Receiver.follows_run traffic mode operations
  obtain ⟨seen, hseen, hholds⟩ := hfollows.holds
  obtain ⟨registers, hrun, hcarries⟩ := run_of_carries carries_start hstart operations
  have hsound : registers.Sound seen := hcarries.sound hholds
  refine ⟨_, registers, seen, hrun, rfl, hcarries, hseen, hsound, hsound.safe, ?_⟩
  intro entry hentry defect hdefect
  exact Fault.breaksFrame_iff.mp (hbreaks entry hentry defect hdefect)

/-- The largest magnitude, in a write to parameter 999 of station 99. -/
example : (start.run .commands .plain
      [.feed ([Byte.stx] ++ List.replicate 5 0x39 ++ [Byte.minus] ++ List.replicate 5 0x39)]).map
      (fun done => (done.2.address, done.2.parameter, done.2.magnitude, done.2.count))
    = some (99, 999, 99999, 5) := by
  decide

end Registers

end FieldBus
