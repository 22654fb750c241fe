import FieldBus.Proofs.Held
import FieldBus.Proofs.Registers

/-!
# The registers of a phase

A receiver in registers does what the receiver with phases does.  `Registers.Carries` is the tie
between the two: the contents of the phase are in the registers that are meant for them, and all
other registers are clear.

Numbers go into registers by `ofNat`, which wraps around just as the arithmetic of the registers
does; so one more digit is one more digit on both sides, whatever the number.  That nothing is lost
by it is needed only where a register is compared or read back, and there what the phase holds of
the bytes keeps the number small.

* `Registers.ofAddress` … `Registers.ofValue` — the registers while a field is coming in.
* `Registers.Carries`, `Registers.Outcome.Carries` — the tie, for states and for steps.
* **`Registers.carries_step`** — a byte keeps the tie.
-/

namespace FieldBus

namespace Registers

/-! ## The registers of a phase -/

/-- The digits of a station are coming in. -/
def ofAddress (stage : Stage) (body : Block) (field : Numeral) : Registers :=
  { blank stage body with count := .ofNat field.count, address := .ofNat field.value }

/-- The station is known. -/
def ofStation (stage : Stage) (body : Block) (station : Station) : Registers :=
  { blank stage body with station? := some station, address := .ofNat station.number }

/-- The digits of a parameter are coming in. -/
def ofParameter (body : Block) (station : Station) (field : Numeral) : Registers :=
  { ofStation .parameter body station with
    count := .ofNat field.count, parameter := .ofNat field.value }

/-- The target of a frame is known, or there is none because the frame is a reply. -/
def ofTarget (stage : Stage) (body : Block) (target : Option (Station × Parameter)) : Registers :=
  { blank stage body with
    station? := target.map Prod.fst
    address := target.elim 0 fun (station, _) => .ofNat station.number
    parameter := target.elim 0 fun (_, parameter) => .ofNat parameter.number
    isReply := target.isNone }

/-- The digits of a value are coming in, or have come. -/
def ofValue (stage : Stage) (body : Block) (target : Option (Station × Parameter))
    (negative : Bool) (field : Numeral) : Registers :=
  { ofTarget stage body target with
    hasValue := target.isSome, count := .ofNat field.count, magnitude := .ofNat field.value,
    negative := negative }

/-- The registers hold the contents of the phase, and nothing else.  Behind the ETX they still hold
the fields, of which the phase has made the frame. -/
inductive Carries : Registers → Phase → Prop
  | idle {block : Block} (hbody : block.bytes = []) : Carries (blank .idle block) .idle
  | address {block : Block} {body : Bytes} {field : Numeral} (hbody : block.bytes = body) :
      Carries (ofAddress .address block field) (.address body field)
  | parameter {block : Block} {body : Bytes} {station : Station} {field : Numeral}
      (hbody : block.bytes = body) :
      Carries (ofParameter block station field) (.parameter body station field)
  | terminator {block : Block} {body : Bytes} {station : Station} {parameter : Parameter}
      (hbody : block.bytes = body) :
      Carries (ofTarget .terminator block (some (station, parameter)))
        (.terminator body station parameter)
  | value {block : Block} {body : Bytes} {target : Option (Station × Parameter)} {negative : Bool}
      {field : Numeral} (hbody : block.bytes = body) :
      Carries (ofValue .value block target negative field) (.value body target negative field)
  | checkRead {block : Block} {station : Station} {parameter : Parameter} {a p : Bytes}
      (ha : station.Spelling a) (hp : parameter.Spelling p)
      (hbody : block.bytes = a ++ p ++ [Byte.etx]) :
      Carries (ofTarget .checksum block (some (station, parameter)))
        (.checksum (a ++ p ++ [Byte.etx]) (.request (.read station parameter)))
  | checkValue {block : Block} {target : Option (Station × Parameter)} {front digits : Bytes}
      {sign : UInt8} {value : Value} (hfront : Front target front)
      (hvalue : value.Spelling sign digits)
      (hbody : block.bytes = front ++ sign :: digits ++ [Byte.etx]) :
      Carries (ofValue .checksum block target (sign == Byte.minus) (.ofDigits digits))
        (.checksum (front ++ sign :: digits ++ [Byte.etx]) (.ofTarget target value))
  | selectAddress {block : Block} {field : Numeral} (hbody : block.bytes = []) :
      Carries (ofAddress .selectAddress block field) (.selectAddress field)
  | selectTerminator {block : Block} {station : Station} (hbody : block.bytes = []) :
      Carries (ofStation .selectTerminator block station) (.selectTerminator station)
  | skipping {block : Block} (hbody : block.bytes = []) : Carries (blank .skipping block) .skipping
  | skippingCheck {block : Block} (hbody : block.bytes = []) :
      Carries (blank .skippingCheck block) .skippingCheck

/-- The outcome tells what the step tells, and leaves the registers of the phase that the step
leads to. -/
inductive Outcome.Carries : Outcome → Step → Prop
  | silent {next : Registers} {phase : Phase} (h : next.Carries phase) :
      Carries (.silent next) (.silent phase)
  | report {report : Report} {next : Registers} {phase : Phase} (h : next.Carries phase) :
      Carries (.report report next) (.report report phase)
  | leave {defect : Defect} {next : Registers} (h : next.Carries .idle) :
      Carries (.leave defect next) (.leave defect)

section Parts

variable {traffic : Traffic} {mode : CheckMode} {r : Registers} {phase : Phase} {body : Bytes}
  {b : UInt8}

lemma carries_clear : r.clear.Carries .idle := .idle (Block.bytes_clear _)

lemma carries_start : start.Carries .idle := .idle Block.bytes_empty

lemma Carries.station?_eq (h : r.Carries phase) : r.station? = phase.station? := by
  cases h with
  | @checkValue _ target => cases target <;> rfl
  | _ => rfl

lemma Carries.inBody_eq (h : r.Carries phase) : r.stage.inBody = phase.inBody := by
  cases h <;> rfl

/-! Behind an opening byte no digit has come yet, so nothing but the stage has changed. -/

lemma ofAddress_empty (stage : Stage) (block : Block) :
    ofAddress stage block .empty = blank stage block := rfl

lemma Carries.address_empty : (blank .address r.body.clear).Carries (.address [] .empty) := by
  rw [← ofAddress_empty]
  exact .address (Block.bytes_clear _)

lemma Carries.selectAddress_empty :
    (blank .selectAddress r.body.clear).Carries (.selectAddress .empty) := by
  rw [← ofAddress_empty]
  exact .selectAddress (Block.bytes_clear _)

lemma carries_begin (h : r.Carries .idle) :
    (r.begin traffic b).Carries (Phase.begin traffic b) := by
  rw [begin.eq_def, Phase.begin.eq_def]
  split_ifs
  · exact .silent .address_empty
  · cases traffic with
    | commands => exact .silent .selectAddress_empty
    | replies => exact .report h
  · exact .report h
  · exact .report h
  · exact .silent h

lemma carries_fail (h : r.Carries phase) (fault : Fault) :
    (r.fail fault b).Carries (phase.fail fault b) := by
  rw [fail, Phase.fail, h.station?_eq, h.inBody_eq]
  split_ifs
  · exact .leave carries_clear
  · exact .report (.skippingCheck (Block.bytes_clear _))
  · exact .report (.skipping (Block.bytes_clear _))
  · exact .report carries_clear

lemma carries_reject (h : r.Carries phase) : (r.reject b).Carries (phase.reject b) :=
  carries_fail h _

/-- As long as there is a cell left, a byte of the body is stored. -/
lemma store_of_room (hbody : r.body.bytes = body) (hroom : body.length < 14) :
    ∃ block : Block, block.bytes = body ++ [b] ∧
      ∀ goal, r.store b goal = goal { r with body := block } := by
  have hsize : r.body.size ≠ 14 := by
    rw [← Block.length_bytes, hbody]
    omega
  cases hpush : r.body.push b with
  | some block =>
      exact ⟨block, by rw [Block.bytes_push hpush, hbody], fun goal => by rw [store, hpush]⟩
  | none => exact absurd (Block.push_eq_none_iff.mp hpush) hsize

/-- Storing a byte of the body carries over, if what follows does. -/
lemma carries_store {goal : Registers → Outcome} {next : Bytes → Phase}
    (hbody : r.body.bytes = body) (hroom : body.length < 14)
    (hgoal : ∀ block : Block, block.bytes = body ++ [b] →
      (goal { r with body := block }).Carries (.silent (next (body ++ [b])))) :
    (r.store b goal).Carries (phase.extend body b next) := by
  obtain ⟨block, hblock, hstore⟩ := store_of_room hbody hroom
  rw [Phase.extend_of_lt hroom, hstore]
  exact hgoal block hblock

end Parts

/-! ## Digits in registers -/

/-- As long as the counts stay below 256, comparing registers is comparing the counts. -/
lemma ofNat_eq_iff {n m : Nat} (hn : n < 256) (hm : m < 256) :
    UInt8.ofNat n = UInt8.ofNat m ↔ n = m := by
  rw [← UInt8.toNat_inj, UInt8.toNat_ofNat_of_lt' hn, UInt8.toNat_ofNat_of_lt' hm]

section Digits

variable {stage next : Stage} {block : Block} {field : Numeral} {station : Station}
  {parameter : Parameter} {target : Option (Station × Parameter)} {negative : Bool} {d : Nat}
  {digits : Bytes} {b : UInt8}

/-- Arithmetic in registers and arithmetic of numbers wrap in the same way. -/
lemma push_ofAddress :
    { ofAddress stage block field with
      address := (ofAddress stage block field).address * 10 + UInt8.ofNat d
      count := (ofAddress stage block field).count + 1 }
        = ofAddress stage block (field.push d) := by
  simp [ofAddress, UInt8.ofNat_add, UInt8.ofNat_mul]

lemma push_ofParameter :
    { ofParameter block station field with
      parameter := (ofParameter block station field).parameter * 10 + UInt16.ofNat d
      count := (ofParameter block station field).count + 1 }
        = ofParameter block station (field.push d) := by
  simp [ofParameter, UInt8.ofNat_add, UInt16.ofNat_add, UInt16.ofNat_mul]

lemma pushStation_of_ne (hlt : digits.length < 2) (hcount : (digits ++ [b]).length ≠ 2) :
    (ofAddress stage block (.ofDigits digits)).pushStation (b.toNat - 0x30) next
      = .silent (ofAddress stage block (.ofDigits (digits ++ [b]))) := by
  have hne : ¬ (ofAddress stage block (.ofDigits (digits ++ [b]))).count = UInt8.ofNat 2 :=
    (ofNat_eq_iff (show (digits ++ [b]).length < 256 by simp; omega) (by decide)).not.mpr hcount
  rw [pushStation, push_ofAddress, Numeral.push_ofDigits]
  exact if_neg hne

/-- Behind the second digit there is a station, and nothing is left of the field. -/
lemma pushStation_of_spelling (hstation : station.Spelling (digits ++ [b])) :
    (ofAddress stage block (.ofDigits digits)).pushStation (b.toNat - 0x30) next
      = .silent (ofStation next block station) := by
  have heq : (ofAddress stage block (.ofDigits (digits ++ [b]))).count = UInt8.ofNat 2 :=
    congrArg UInt8.ofNat hstation.length_eq
  have hnumber : (ofAddress stage block (.ofDigits (digits ++ [b]))).address.toNat
      = Decimal.number (digits ++ [b]) := by
    refine UInt8.toNat_ofNat_of_lt' ?_
    rw [Numeral.value_ofDigits, hstation.denotes.number_eq]
    exact station.number_le.trans_lt (by decide)
  rw [pushStation, push_ofAddress, Numeral.push_ofDigits]
  refine (if_pos heq).trans ?_
  rw [hnumber, hstation.ofInt_eq]
  simp only [ofAddress, ofStation, blank, Numeral.value_ofDigits, hstation.denotes.number_eq]

lemma pushParameter_of_ne (hlt : digits.length < 3) (hcount : (digits ++ [b]).length ≠ 3) :
    (ofParameter block station (.ofDigits digits)).pushParameter (b.toNat - 0x30)
      = ofParameter block station (.ofDigits (digits ++ [b])) := by
  have hne : ¬ (ofParameter block station (.ofDigits (digits ++ [b]))).count = UInt8.ofNat 3 :=
    (ofNat_eq_iff (show (digits ++ [b]).length < 256 by simp; omega) (by decide)).not.mpr hcount
  rw [pushParameter, push_ofParameter, Numeral.push_ofDigits]
  exact if_neg hne

lemma pushParameter_of_spelling (hparameter : parameter.Spelling (digits ++ [b])) :
    (ofParameter block station (.ofDigits digits)).pushParameter (b.toNat - 0x30)
      = ofTarget .terminator block (some (station, parameter)) := by
  have heq : (ofParameter block station (.ofDigits (digits ++ [b]))).count = UInt8.ofNat 3 :=
    congrArg UInt8.ofNat hparameter.length_eq
  rw [pushParameter, push_ofParameter, Numeral.push_ofDigits]
  refine (if_pos heq).trans ?_
  simp only [ofParameter, Numeral.value_ofDigits, hparameter.denotes.number_eq]
  rfl

lemma pushValue_ofValue :
    (ofValue stage block target negative (.ofDigits digits)).pushValue (b.toNat - 0x30)
      = ofValue stage block target negative (.ofDigits (digits ++ [b])) := by
  rw [← Numeral.push_ofDigits]
  simp [pushValue, ofValue, UInt8.ofNat_add, Int32.ofNat_add, Int32.ofNat_mul]

end Digits

/-! ## One byte, stage by stage -/

section Stages

variable {traffic : Traffic} {mode : CheckMode} {block : Block} {seen : Bytes} {b : UInt8}

lemma carries_stepAddress {a : Bytes} (hbody : block.bytes = a) (ha : Decimal.AllDigits a)
    (hlength : a.length < 2) :
    ((ofAddress .address block (.ofDigits a)).stepAddress b).Carries
      (Phase.step traffic mode (.address a (.ofDigits a)) b) := by
  have hzero : (ofAddress .address block (.ofDigits a)).count = 0 ↔
      (Numeral.ofDigits a).count = 0 :=
    ofNat_eq_iff (show a.length < 256 by omega) (by decide)
  rw [stepAddress, Phase.step]
  by_cases hsign : (Numeral.ofDigits a).count = 0 ∧ Byte.isSign b = true
  · -- a sign right behind the STX
    rw [if_pos (by rwa [hzero]), if_pos hsign]
    obtain rfl : a = [] := List.length_eq_zero_iff.mp hsign.1
    refine carries_store hbody (by simp) fun block' hbody' => .silent ?_
    have hvalue : (ofValue .value block' none (b == Byte.minus) .empty).Carries
        (.value ([] ++ [b]) none (b == Byte.minus) .empty) := .value hbody'
    exact hvalue
  · rw [if_neg (by rwa [hzero]), if_neg hsign]
    by_cases hb : Byte.isDigit b = true
    · have hdigits := Decimal.allDigits_concat ha hb
      rw [Byte.digit_of_isDigit hb]
      dsimp only
      rw [Numeral.push_ofDigits]
      split_ifs with hcount
      · obtain ⟨station, hof, hstation⟩ := Station.ofInt_number hcount hdigits
        rw [Numeral.value_ofDigits, hof, Phase.complete]
        refine carries_store hbody (by omega) fun block' hbody' => ?_
        show ((ofAddress .address block' (.ofDigits a)).pushStation _ _).Carries _
        rw [pushStation_of_spelling hstation]
        have hparameter : (ofParameter block' station .empty).Carries
            (.parameter (a ++ [b]) station .empty) := .parameter hbody'
        exact .silent hparameter
      · refine carries_store hbody (by omega) fun block' hbody' => ?_
        show ((ofAddress .address block' (.ofDigits a)).pushStation _ _).Carries _
        rw [pushStation_of_ne hlength hcount]
        exact .silent (.address hbody')
    · rw [Byte.digit_of_not_isDigit (by simpa using hb)]
      exact carries_reject (.address hbody)

lemma carries_stepParameter {station : Station} {a p : Bytes} (hbody : block.bytes = a ++ p)
    (ha : station.Spelling a) (hp : Decimal.AllDigits p) (hlength : p.length < 3) :
    ((ofParameter block station (.ofDigits p)).stepParameter b).Carries
      (Phase.step traffic mode (.parameter (a ++ p) station (.ofDigits p)) b) := by
  have hroom : (a ++ p).length < 14 := by
    rw [List.length_append, ha.length_eq]
    omega
  rw [stepParameter, Phase.step]
  by_cases hb : Byte.isDigit b = true
  · rw [Byte.digit_of_isDigit hb]
    dsimp only
    rw [Numeral.push_ofDigits]
    by_cases hcount : (Numeral.ofDigits (p ++ [b])).count = 3
    · obtain ⟨parameter, hof, hparameter⟩ :=
        Parameter.ofInt_number hcount (Decimal.allDigits_concat hp hb)
      rw [if_pos hcount, Numeral.value_ofDigits, hof, Phase.complete]
      refine carries_store hbody hroom fun block' hbody' => .silent ?_
      show ((ofParameter block' station (.ofDigits p)).pushParameter _).Carries _
      rw [pushParameter_of_spelling hparameter]
      exact .terminator hbody'
    · rw [if_neg hcount]
      refine carries_store hbody hroom fun block' hbody' => .silent ?_
      show ((ofParameter block' station (.ofDigits p)).pushParameter _).Carries _
      rw [pushParameter_of_ne hlength hcount]
      exact .parameter hbody'
  · rw [Byte.digit_of_not_isDigit (by simpa using hb)]
    exact carries_reject (.parameter hbody)

lemma carries_stepTerminator {station : Station} {parameter : Parameter} {a p : Bytes}
    (hbody : block.bytes = a ++ p) (ha : station.Spelling a) (hp : parameter.Spelling p) :
    ((ofTarget .terminator block (some (station, parameter))).stepTerminator b).Carries
      (Phase.step traffic mode (.terminator (a ++ p) station parameter) b) := by
  have hroom : (a ++ p).length < 14 := by
    rw [ha.length_fields hp]
    decide
  rw [stepTerminator, Phase.step]
  split_ifs with hetx hsign
  · subst hetx
    refine carries_store hbody hroom fun block' hbody' => .silent ?_
    have hcheck : (ofTarget .checksum block' (some (station, parameter))).Carries
        (.checksum (a ++ p ++ [Byte.etx]) (.request (.read station parameter))) :=
      .checkRead ha hp hbody'
    exact hcheck
  · refine carries_store hbody hroom fun block' hbody' => .silent ?_
    have hvalue :
        (ofValue .value block' (some (station, parameter)) (b == Byte.minus) .empty).Carries
          (.value (a ++ p ++ [b]) (some (station, parameter)) (b == Byte.minus) .empty) :=
      .value hbody'
    exact hvalue
  · exact carries_reject (.terminator hbody)

/-- The ETX behind the digits of a value, if there is a digit. -/
lemma carries_stepValue_etx {target : Option (Station × Parameter)} {front digits : Bytes}
    {sign : UInt8} {value : Value} (hbody : block.bytes = front ++ sign :: digits)
    (hroom : (front ++ sign :: digits).length < 14) (hfront : Front target front)
    (hvalue : value.Spelling sign digits) :
    ((ofValue .value block target (sign == Byte.minus) (.ofDigits digits)).stepValue
        Byte.etx).Carries
      (.silent (.checksum (front ++ sign :: digits ++ [Byte.etx]) (.ofTarget target value))) := by
  have hzero : ¬ (ofValue .value block target (sign == Byte.minus) (.ofDigits digits)).count = 0 :=
    (ofNat_eq_iff (show digits.length < 256 from hvalue.length_le.trans_lt (by decide))
      (by decide)).not.mpr (Nat.ne_of_gt hvalue.length_pos)
  have hstored : (ofValue .value block target (sign == Byte.minus) (.ofDigits digits)).body.bytes
      = front ++ sign :: digits := hbody
  obtain ⟨block', hblock', hstore⟩ := store_of_room hstored hroom
  rw [stepValue, if_pos rfl, if_neg hzero, hstore]
  have hcheck : (ofValue .checksum block' target (sign == Byte.minus) (.ofDigits digits)).Carries
      (.checksum (front ++ sign :: digits ++ [Byte.etx]) (.ofTarget target value)) :=
    .checkValue hfront hvalue hblock'
  exact .silent hcheck

lemma carries_stepValue {target : Option (Station × Parameter)} {front digits : Bytes}
    {sign : UInt8} (hbody : block.bytes = front ++ sign :: digits) (hfront : Front target front)
    (hsign : Byte.isSign sign = true) (hdigits : Decimal.AllDigits digits)
    (hlength : digits.length ≤ 5) :
    ((ofValue .value block target (sign == Byte.minus) (.ofDigits digits)).stepValue b).Carries
      (Phase.step traffic mode
        (.value (front ++ sign :: digits) target (sign == Byte.minus) (.ofDigits digits)) b) := by
  have hroom : (front ++ sign :: digits).length < 14 := by
    have := hfront.length_le
    rw [List.length_append, List.length_cons]
    omega
  have hcarries : (ofValue .value block target (sign == Byte.minus) (.ofDigits digits)).Carries
      (.value (front ++ sign :: digits) target (sign == Byte.minus) (.ofDigits digits)) :=
    .value hbody
  by_cases hetx : b = Byte.etx
  · subst hetx
    by_cases hcount : (Numeral.ofDigits digits).count = 0
    · have hzero : (ofValue .value block target (sign == Byte.minus) (.ofDigits digits)).count
          = 0 := congrArg UInt8.ofNat hcount
      rw [stepValue, if_pos rfl, if_pos hzero, Phase.step, if_pos rfl, if_pos hcount]
      exact carries_fail hcarries _
    · obtain ⟨value, -, hvalue⟩ :=
        Value.ofInt_signed hsign hdigits (Nat.pos_of_ne_zero hcount) hlength
      rw [Phase.step_value_etx hvalue hroom]
      exact carries_stepValue_etx hbody hroom hfront hvalue
  · rw [stepValue, if_neg hetx, Phase.step, if_neg hetx]
    by_cases hb : Byte.isDigit b = true
    · have hfive : (ofValue .value block target (sign == Byte.minus) (.ofDigits digits)).count = 5 ↔
          (Numeral.ofDigits digits).count = 5 :=
        ofNat_eq_iff (show digits.length < 256 by omega) (by decide)
      rw [Byte.digit_of_isDigit hb]
      dsimp only
      by_cases hcount : (Numeral.ofDigits digits).count = 5
      · rw [if_pos (hfive.mpr hcount), if_pos hcount]
        exact carries_fail hcarries _
      · rw [if_neg (hfive.not.mpr hcount), if_neg hcount, Numeral.push_ofDigits]
        refine carries_store hbody hroom fun block' hbody' => .silent ?_
        show ((ofValue .value block' target (sign == Byte.minus) (.ofDigits digits)).pushValue
          _).Carries _
        rw [pushValue_ofValue]
        exact .value hbody'
    · rw [Byte.digit_of_not_isDigit (by simpa using hb)]
      exact carries_reject hcarries

/-- A magnitude of five digits can change its sign without wrapping around. -/
lemma signed_eq {r : Registers} {n : Nat} (hmagnitude : r.magnitude.toInt = n) (hlt : n < 10 ^ 5) :
    r.signed = if r.negative then -(n : Int) else n := by
  rw [signed]
  split_ifs
  · rw [Int32.toInt_neg, hmagnitude]
    exact Int.bmod_eq_of_le (by omega) (by omega)
  · exact hmagnitude

/-- The parameter and the station of a request are there to be taken. -/
lemma frame?_of_request {r : Registers} {station : Station} {parameter : Parameter} (value : Value)
    (hreply : r.isReply = false) (hstation : r.station? = some station)
    (hparameter : r.parameter = .ofNat parameter.number) :
    r.frame? value = some (.request (if r.hasValue then .write station parameter value
      else .read station parameter)) := by
  have hle := parameter.number_le
  have hof : Parameter.ofInt r.parameter.toNat = .ok parameter := by
    rw [hparameter, UInt16.toNat_ofNat_of_lt' (hle.trans_lt (by decide)), Parameter.ofInt,
      dif_pos (by omega)]
    rfl
  rw [frame?, if_neg (by rw [hreply]; decide), hof, hstation]

lemma frame?_ofValue {target : Option (Station × Parameter)} {negative : Bool} {field : Numeral}
    (value : Value) :
    (ofValue .checksum block target negative field).frame? value
      = some (.ofTarget target value) := by
  rcases target with _ | ⟨station, parameter⟩
  · rfl
  · exact frame?_of_request value rfl rfl rfl

/-- The check byte of the frame that the registers hold. -/
lemma carries_stepChecksum {r : Registers} {body : Bytes} {frame : Frame} {value : Value}
    (hcarries : r.Carries (.checksum body frame)) (hbody : r.body.bytes = body)
    (hvalue : Value.ofInt r.signed = .ok value) (hframe : r.frame? value = some frame) :
    (r.stepChecksum mode b).Carries (Phase.step traffic mode (.checksum body frame) b) := by
  rw [stepChecksum, Phase.step, hbody, hvalue]
  dsimp only
  rw [hframe]
  split_ifs
  · exact .report carries_clear
  · exact carries_fail hcarries _

lemma carries_checkValue {target : Option (Station × Parameter)} {front digits : Bytes}
    {sign : UInt8} {value : Value} (hfront : Front target front)
    (hvalue : value.Spelling sign digits)
    (hbody : block.bytes = front ++ sign :: digits ++ [Byte.etx]) :
    ((ofValue .checksum block target (sign == Byte.minus) (.ofDigits digits)).stepChecksum mode
        b).Carries
      (Phase.step traffic mode
        (.checksum (front ++ sign :: digits ++ [Byte.etx]) (.ofTarget target value)) b) := by
  have hsigned :
      Value.ofInt (ofValue .checksum block target (sign == Byte.minus) (.ofDigits digits)).signed
        = .ok value := by
    have hlt := Decimal.number_lt_of_length_le hvalue.allDigits hvalue.length_le
    have hmagnitude : (Int32.ofNat (Decimal.number digits)).toInt = Decimal.number digits :=
      Int32.toInt_ofNat_of_lt (hlt.trans (by decide))
    rw [signed_eq hmagnitude hlt]
    exact (congrArg _ (Phase.signed_eq sign _)).trans hvalue.ofInt_eq
  exact carries_stepChecksum (.checkValue hfront hvalue hbody) hbody hsigned (frame?_ofValue value)

lemma carries_stepSelectAddress {a : Bytes} (hbody : block.bytes = []) (ha : Decimal.AllDigits a)
    (hlength : a.length < 2) :
    ((ofAddress .selectAddress block (.ofDigits a)).stepSelectAddress traffic b).Carries
      (Phase.step traffic mode (.selectAddress (.ofDigits a)) b) := by
  rw [stepSelectAddress, Phase.step]
  by_cases hb : Byte.isDigit b = true
  · rw [Byte.digit_of_isDigit hb]
    dsimp only
    rw [Numeral.push_ofDigits]
    by_cases hcount : (Numeral.ofDigits (a ++ [b])).count = 2
    · obtain ⟨station, hof, hstation⟩ :=
        Station.ofInt_number hcount (Decimal.allDigits_concat ha hb)
      rw [if_pos hcount, Numeral.value_ofDigits, hof, Phase.complete,
        pushStation_of_spelling hstation]
      exact .silent (.selectTerminator hbody)
    · rw [if_neg hcount, pushStation_of_ne hlength hcount]
      exact .silent (.selectAddress hbody)
  · have hzero : (ofAddress .selectAddress block (.ofDigits a)).count = 0 ↔
        (Numeral.ofDigits a).count = 0 :=
      ofNat_eq_iff (show a.length < 256 by omega) (by decide)
    rw [Byte.digit_of_not_isDigit (by simpa using hb)]
    dsimp only
    by_cases hcount : (Numeral.ofDigits a).count = 0
    · rw [if_pos (hzero.mpr hcount), if_pos hcount]
      exact carries_begin carries_clear
    · rw [if_neg (hzero.not.mpr hcount), if_neg hcount]
      exact carries_reject (.selectAddress hbody)

lemma carries_stepSelectTerminator {station : Station} (hbody : block.bytes = []) :
    ((ofStation .selectTerminator block station).stepSelectTerminator b).Carries
      (Phase.step traffic mode (.selectTerminator station) b) := by
  rw [stepSelectTerminator, Phase.step]
  split_ifs
  · exact .report carries_clear
  · exact carries_reject (.selectTerminator hbody)

lemma carries_stepSkipping (hbody : block.bytes = []) :
    ((blank .skipping block).stepSkipping traffic b).Carries
      (Phase.step traffic mode .skipping b) := by
  rw [stepSkipping, Phase.step]
  split_ifs
  · exact carries_begin carries_clear
  · exact .silent (.skippingCheck hbody)
  · exact .silent (.skipping hbody)

/-- **A byte does to the registers what it does to the phase that they carry.**  In particular it
never gets stuck, and a register never holds anything but the number that it stands for. -/
theorem carries_step {r : Registers} {phase : Phase} (mode : CheckMode) (b : UInt8)
    (h : r.Carries phase) (hholds : phase.Holds traffic seen) :
    (r.step traffic mode b).Carries (phase.step traffic mode b) := by
  cases h with
  | idle hbody => exact carries_begin (.idle hbody)
  | address hbody => cases hholds with
    | address ha hlength => exact carries_stepAddress hbody ha hlength
  | parameter hbody => cases hholds with
    | parameter ha hp hlength => exact carries_stepParameter hbody ha hp hlength
  | terminator hbody => cases hholds with
    | terminator ha hp => exact carries_stepTerminator hbody ha hp
  | value hbody => cases hholds with
    | value hfront hsign hdigits hlength =>
      exact carries_stepValue hbody hfront hsign hdigits hlength
  | checkRead ha hp hbody =>
    exact carries_stepChecksum (.checkRead ha hp hbody) hbody rfl
      (frame?_of_request .zero rfl rfl rfl)
  | checkValue hfront hvalue hbody => exact carries_checkValue hfront hvalue hbody
  | selectAddress hbody => cases hholds with
    | selectAddress hcommands ha hlength => exact carries_stepSelectAddress hbody ha hlength
  | selectTerminator hbody => exact carries_stepSelectTerminator hbody
  | skipping hbody => exact carries_stepSkipping hbody
  | skippingCheck hbody => exact .silent (.idle hbody)

end Stages

end Registers

end FieldBus
