import FieldBus.Proofs.Feeding
import FieldBus.Proofs.WireWord

/-!
# What a receiver holds of the bytes it has taken

A phase carries bodies, numbers and flags that nothing in its type ties to one another.
`Phase.Holds` is the tie: a phase holds the bytes since the opening byte if its contents are what
those bytes determine.

`Phase.isOpen` tells the phases in which a frame has got so far that an opening byte breaks it.
There a byte does one of four things, and `Phase.Stepped` says which: it is held as well, it makes
the held bytes a word of a frame, it breaks the frame, or it interrupts it and is left
(`Phase.step_of_isOpen`).  What matters to a run is less, and true of every phase:
`Phase.Kept` says that whatever is held after a byte, and whatever is reported as a frame, are the
last of the bytes seen (`Phase.kept_step`).

A receiver starts out holding nothing and keeps the tie from there
(**`Receiver.Follows.feed`**), so it is there in every receiver that feeding and resetting can lead
to (`Receiver.Reachable.follows`).
-/

namespace FieldBus

/-- What stands in front of the sign of a value: the fields of the target of a write, or nothing
for a value reply. -/
inductive Front : Option (Station × Parameter) → Bytes → Prop
  | none : Front none []
  | some {station : Station} {parameter : Parameter} {a p : Bytes}
      (ha : station.Spelling a) (hp : parameter.Spelling p) :
      Front (some (station, parameter)) (a ++ p)

/-- The frame that carries a value: a write to the target, or a reply if there is none. -/
def Frame.ofTarget : Option (Station × Parameter) → Value → Frame
  | some (station, parameter), value => .request (.write station parameter value)
  | none, value => .reply (.value value)

namespace Front

variable {target : Option (Station × Parameter)} {front : Bytes}

lemma length_le (h : Front target front) : front.length ≤ 5 := by
  cases h with
  | none => simp
  | some ha hp => exact Nat.le_of_eq (ha.length_fields hp)

/-- A value behind its sign, with the target in front of it, is the body of a frame. -/
lemma body {value : Value} {sign : UInt8} {digits : Bytes} (h : Front target front)
    (hv : value.Spelling sign digits) :
    (Frame.ofTarget target value).Body (front ++ sign :: digits ++ [Byte.etx]) := by
  cases h with
  | none => exact .value hv
  | some ha hp => exact .write ha hp hv

end Front

namespace Phase

/-- The phase is what the bytes since the opening byte, this one included, determine. -/
inductive Holds (traffic : Traffic) : Phase → Bytes → Prop
  | idle : Holds traffic .idle []
  | address {a : Bytes} (ha : Decimal.AllDigits a) (hlength : a.length < 2) :
      Holds traffic (.address a (.ofDigits a)) (Byte.stx :: a)
  | parameter {station : Station} {a p : Bytes} (ha : station.Spelling a)
      (hp : Decimal.AllDigits p) (hlength : p.length < 3) :
      Holds traffic (.parameter (a ++ p) station (.ofDigits p)) (Byte.stx :: (a ++ p))
  | terminator {station : Station} {parameter : Parameter} {a p : Bytes}
      (ha : station.Spelling a) (hp : parameter.Spelling p) :
      Holds traffic (.terminator (a ++ p) station parameter) (Byte.stx :: (a ++ p))
  | value {target : Option (Station × Parameter)} {front digits : Bytes} {sign : UInt8}
      (hfront : Front target front) (hsign : Byte.isSign sign = true)
      (hdigits : Decimal.AllDigits digits) (hlength : digits.length ≤ 5) :
      Holds traffic
        (.value (front ++ sign :: digits) target (sign == Byte.minus) (.ofDigits digits))
        (Byte.stx :: (front ++ sign :: digits))
  | checksum {frame : Frame} {body : Bytes} (hbody : frame.Body body) :
      Holds traffic (.checksum body frame) (Byte.stx :: body)
  | selectAddress {a : Bytes} (hcommands : traffic = .commands) (ha : Decimal.AllDigits a)
      (hlength : a.length < 2) :
      Holds traffic (.selectAddress (.ofDigits a)) (Byte.eot :: a)
  | selectTerminator {station : Station} {a : Bytes} (hcommands : traffic = .commands)
      (ha : station.Spelling a) :
      Holds traffic (.selectTerminator station) (Byte.eot :: a)
  | skipping : Holds traffic .skipping []
  | skippingCheck : Holds traffic .skippingCheck []

namespace Holds

variable {traffic : Traffic}

lemma address_nil : Holds traffic (.address [] .empty) [Byte.stx] :=
  address Decimal.allDigits_nil (by simp)

lemma parameter_nil {station : Station} {a : Bytes} (ha : station.Spelling a) :
    Holds traffic (.parameter a station .empty) (Byte.stx :: a) := by
  have h : Holds traffic (.parameter (a ++ []) station (.ofDigits [])) (Byte.stx :: (a ++ [])) :=
    parameter ha Decimal.allDigits_nil (by simp)
  rwa [List.append_nil] at h

lemma value_nil {target : Option (Station × Parameter)} {front : Bytes} {sign : UInt8}
    (hfront : Front target front) (hsign : Byte.isSign sign = true) :
    Holds traffic (.value (front ++ [sign]) target (sign == Byte.minus) .empty)
      (Byte.stx :: (front ++ [sign])) :=
  value hfront hsign Decimal.allDigits_nil (by simp)

lemma selectAddress_nil (hcommands : traffic = .commands) :
    Holds traffic (.selectAddress .empty) [Byte.eot] :=
  selectAddress hcommands Decimal.allDigits_nil (by simp)

end Holds

/-- Whether a frame has got so far that an opening byte breaks it. -/
def isOpen : Phase → Bool
  | idle | skipping | skippingCheck => false
  | selectAddress field => field.count != 0
  | _ => true

/-- What a byte can do in an open phase that holds the bytes `seen`. -/
inductive Stepped (traffic : Traffic) (mode : CheckMode) (phase : Phase) (seen : Bytes)
    (b : UInt8) : Step → Prop
  | on {next : Phase} (hopen : next.isOpen = true) (hnext : next.Holds traffic (seen ++ [b])) :
      Stepped traffic mode phase seen b (.silent next)
  | complete {frame : Frame} (hword : frame.WireWord traffic mode (seen ++ [b])) :
      Stepped traffic mode phase seen b (.report (.frame frame) .idle)
  | broken {fault : Fault} {next : Phase} (hopens : Byte.opensFrame b = false)
      (hnext : next = .idle ∨ next = .skipping ∨ next = .skippingCheck) :
      Stepped traffic mode phase seen b (.report (.defect ⟨fault, phase.station?⟩) next)
  | interrupted {fault : Fault} (hopens : Byte.opensFrame b = true) :
      Stepped traffic mode phase seen b (.leave ⟨fault, phase.station?⟩)

section Open

variable {traffic : Traffic} {mode : CheckMode} {phase : Phase} {seen : Bytes} {b : UInt8}

lemma stepped_fail (fault : Fault) :
    Stepped traffic mode phase seen b (phase.fail fault b) := by
  rw [fail]
  split_ifs with hopens hbody hetx
  · exact .interrupted hopens
  · exact .broken (by simpa using hopens) (.inr (.inr rfl))
  · exact .broken (by simpa using hopens) (.inr (.inl rfl))
  · exact .broken (by simpa using hopens) (.inl rfl)

lemma stepped_reject : Stepped traffic mode phase seen b (phase.reject b) :=
  stepped_fail _

lemma extend_of_lt {body : Bytes} {next : Bytes → Phase} (h : body.length < 14) :
    phase.extend body b next = .silent (next (body ++ [b])) := by
  rw [extend, if_pos (show body.length < Block.capacity from h)]

/-! ### One step for each phase -/

lemma step_address {a : Bytes} (ha : Decimal.AllDigits a) (hlength : a.length < 2) :
    Stepped traffic mode (.address a (.ofDigits a)) (Byte.stx :: a) b
      (step traffic mode (.address a (.ofDigits a)) b) := by
  rw [step]
  split_ifs with hsign
  · -- a sign right behind the STX
    obtain ⟨hcount, hb⟩ := hsign
    obtain rfl : a = [] := List.length_eq_zero_iff.mp hcount
    rw [extend_of_lt (by simp)]
    exact .on rfl (.value_nil .none hb)
  · by_cases hb : Byte.isDigit b = true
    · rw [Byte.digit_of_isDigit hb]
      dsimp only
      rw [Numeral.push_ofDigits]
      have hdigits := Decimal.allDigits_concat ha hb
      split_ifs with hcount
      · obtain ⟨station, hof, hstation⟩ := Station.ofInt_number hcount hdigits
        rw [Numeral.value_ofDigits, hof, complete, extend_of_lt (by omega)]
        exact .on rfl (.parameter_nil hstation)
      · rw [extend_of_lt (by omega)]
        refine .on rfl (.address hdigits ?_)
        simp only [Numeral.count_ofDigits, List.length_append, List.length_singleton] at hcount ⊢
        omega
    · rw [Byte.digit_of_not_isDigit (by simpa using hb)]
      exact stepped_reject

lemma step_parameter {station : Station} {a p : Bytes} (ha : station.Spelling a)
    (hp : Decimal.AllDigits p) (hlength : p.length < 3) :
    Stepped traffic mode (.parameter (a ++ p) station (.ofDigits p)) (Byte.stx :: (a ++ p)) b
      (step traffic mode (.parameter (a ++ p) station (.ofDigits p)) b) := by
  have hroom : (a ++ p).length < 14 := by
    rw [List.length_append, ha.length_eq]
    omega
  rw [step]
  by_cases hb : Byte.isDigit b = true
  · rw [Byte.digit_of_isDigit hb]
    dsimp only
    rw [Numeral.push_ofDigits]
    have hdigits := Decimal.allDigits_concat hp hb
    split_ifs with hcount
    · -- three digits are always in range, so the fault of the range check cannot come up
      obtain ⟨parameter, hof, hparameter⟩ := Parameter.ofInt_number hcount hdigits
      rw [Numeral.value_ofDigits, hof, complete, extend_of_lt hroom, List.append_assoc]
      refine .on rfl ?_
      rw [List.cons_append, List.append_assoc]
      exact .terminator ha hparameter
    · rw [extend_of_lt hroom, List.append_assoc]
      refine .on rfl ?_
      rw [List.cons_append, List.append_assoc]
      refine .parameter ha hdigits ?_
      simp only [Numeral.count_ofDigits, List.length_append, List.length_singleton] at hcount ⊢
      omega
  · rw [Byte.digit_of_not_isDigit (by simpa using hb)]
    exact stepped_reject

lemma step_terminator {station : Station} {parameter : Parameter} {a p : Bytes}
    (ha : station.Spelling a) (hp : parameter.Spelling p) :
    Stepped traffic mode (.terminator (a ++ p) station parameter) (Byte.stx :: (a ++ p)) b
      (step traffic mode (.terminator (a ++ p) station parameter) b) := by
  have hroom : (a ++ p).length < 14 := by
    rw [ha.length_fields hp]
    omega
  rw [step]
  split_ifs with hetx hsign
  · subst hetx
    rw [extend_of_lt hroom]
    exact .on rfl (.checksum (.read ha hp))
  · rw [extend_of_lt hroom]
    exact .on rfl (.value_nil (.some ha hp) hsign)
  · exact stepped_reject

/-- The sign that a receiver keeps as a flag, put back in front of a magnitude. -/
lemma signed_eq (sign : UInt8) (magnitude : Nat) :
    (if (sign == Byte.minus) = true then -(magnitude : Int) else magnitude)
      = Value.signed sign magnitude := by
  simp [Value.signed]

/-- The ETX behind the digits of a value, if there is a digit. -/
lemma step_value_etx {target : Option (Station × Parameter)} {body digits : Bytes} {sign : UInt8}
    {value : Value} (hv : value.Spelling sign digits) (hroom : body.length < 14) :
    step traffic mode (.value body target (sign == Byte.minus) (.ofDigits digits)) Byte.etx
      = .silent (.checksum (body ++ [Byte.etx]) (.ofTarget target value)) := by
  have hcount : ¬ (Numeral.ofDigits digits).count = 0 := Nat.ne_of_gt hv.length_pos
  simp only [step]
  rw [if_pos trivial, if_neg hcount, Numeral.value_ofDigits, signed_eq, hv.ofInt_eq, complete,
    extend_of_lt hroom]
  rcases target with _ | ⟨station, parameter⟩ <;> rfl

lemma step_value {target : Option (Station × Parameter)} {front digits : Bytes} {sign : UInt8}
    (hfront : Front target front) (hsign : Byte.isSign sign = true)
    (hdigits : Decimal.AllDigits digits) (hlength : digits.length ≤ 5) :
    Stepped traffic mode
      (.value (front ++ sign :: digits) target (sign == Byte.minus) (.ofDigits digits))
      (Byte.stx :: (front ++ sign :: digits)) b
      (step traffic mode
        (.value (front ++ sign :: digits) target (sign == Byte.minus) (.ofDigits digits)) b) := by
  have hroom : (front ++ sign :: digits).length < 14 := by
    have := hfront.length_le
    rw [List.length_append, List.length_cons]
    omega
  by_cases hetx : b = Byte.etx
  · -- the ETX makes a body of what is held, if there is a digit
    subst hetx
    by_cases hcount : (Numeral.ofDigits digits).count = 0
    · rw [step, if_pos rfl, if_pos hcount]
      exact stepped_fail _
    · have hpos : 0 < digits.length := Nat.pos_of_ne_zero hcount
      obtain ⟨value, _, hvalue⟩ := Value.ofInt_signed hsign hdigits hpos hlength
      rw [step_value_etx hvalue hroom]
      exact .on rfl (.checksum (hfront.body hvalue))
  · rw [step, if_neg hetx]
    by_cases hb : Byte.isDigit b = true
    · rw [Byte.digit_of_isDigit hb]
      dsimp only
      by_cases hcount : (Numeral.ofDigits digits).count = 5
      · -- a sixth digit
        rw [if_pos hcount]
        exact stepped_fail _
      · rw [if_neg hcount, extend_of_lt hroom, Numeral.push_ofDigits, List.append_assoc]
        refine .on rfl ?_
        rw [show Byte.stx :: (front ++ sign :: digits) ++ [b]
          = Byte.stx :: (front ++ sign :: (digits ++ [b])) by simp]
        have hmore := Decimal.allDigits_concat hdigits hb
        have hlength' : (digits ++ [b]).length ≤ 5 := by
          rw [Numeral.count_ofDigits] at hcount
          rw [List.length_append, List.length_singleton]
          omega
        exact .value hfront hsign hmore hlength'
    · rw [Byte.digit_of_not_isDigit (by simpa using hb)]
      exact stepped_reject

lemma step_checksum {frame : Frame} {body : Bytes} (hbody : frame.Body body) :
    Stepped traffic mode (.checksum body frame) (Byte.stx :: body) b
      (step traffic mode (.checksum body frame) b) := by
  rw [step]
  split_ifs with hchecks
  · have hb : checkByte mode body = b := by simpa [checks] using hchecks
    rw [← hb]
    exact .complete (.checked hbody)
  · exact stepped_fail _

lemma step_selectAddress {a : Bytes} (hcommands : traffic = .commands)
    (ha : Decimal.AllDigits a) (hlength : a.length < 2) (hne : a ≠ []) :
    Stepped traffic mode (.selectAddress (.ofDigits a)) (Byte.eot :: a) b
      (step traffic mode (.selectAddress (.ofDigits a)) b) := by
  rw [step]
  by_cases hb : Byte.isDigit b = true
  · rw [Byte.digit_of_isDigit hb]
    dsimp only
    rw [Numeral.push_ofDigits]
    have hdigits := Decimal.allDigits_concat ha hb
    have hcount : (a ++ [b]).length = 2 := by
      have := List.length_pos_iff.mpr hne
      rw [List.length_append, List.length_singleton]
      omega
    obtain ⟨station, hof, hstation⟩ := Station.ofInt_number hcount hdigits
    rw [Numeral.count_ofDigits, if_pos hcount, Numeral.value_ofDigits, hof]
    exact .on rfl (.selectTerminator hcommands hstation)
  · rw [Byte.digit_of_not_isDigit (by simpa using hb)]
    dsimp only
    rw [Numeral.count_ofDigits, if_neg (by simpa using hne)]
    exact stepped_reject

lemma step_selectTerminator {station : Station} {a : Bytes} (hcommands : traffic = .commands)
    (ha : station.Spelling a) :
    Stepped traffic mode (.selectTerminator station) (Byte.eot :: a) b
      (step traffic mode (.selectTerminator station) b) := by
  rw [step]
  split_ifs with henq
  · subst henq
    exact .complete (.select hcommands ha)
  · exact stepped_reject

/-- **What a byte does to a frame that has begun**, the receiver holding what came of it. -/
theorem step_of_isOpen (mode : CheckMode) (b : UInt8) (hholds : phase.Holds traffic seen)
    (hopen : phase.isOpen = true) :
    Stepped traffic mode phase seen b (phase.step traffic mode b) := by
  cases hholds with
  | idle => cases hopen
  | address ha hlength => exact step_address ha hlength
  | parameter ha hp hlength => exact step_parameter ha hp hlength
  | terminator ha hp => exact step_terminator ha hp
  | value hfront hsign hdigits hlength => exact step_value hfront hsign hdigits hlength
  | checksum hbody => exact step_checksum hbody
  | selectAddress hcommands ha hlength =>
      refine step_selectAddress hcommands ha hlength ?_
      -- behind the bare EOT the phase is not open yet
      rintro rfl
      cases hopen
  | selectTerminator hcommands ha => exact step_selectTerminator hcommands ha
  | skipping => cases hopen
  | skippingCheck => cases hopen

/-- An opening byte interrupts a frame that has begun, wherever that has got to.  In the place of
the check byte too: no check byte of a body is an opening byte. -/
theorem step_of_opensFrame (mode : CheckMode) (hholds : phase.Holds traffic seen)
    (hopen : phase.isOpen = true) (hb : Byte.opensFrame b = true) :
    ∃ fault, phase.step traffic mode b = .leave ⟨fault, phase.station?⟩ := by
  have hdigit := Byte.isDigit_of_opensFrame hb
  have hsign : Byte.isSign b = false := by
    rcases Byte.opensFrame_iff.mp hb with rfl | rfl <;> rfl
  have hetx : b ≠ Byte.etx := by
    rintro rfl
    cases hb
  have henq : b ≠ Byte.enq := by
    rintro rfl
    cases hb
  have hfail : ∀ fault, phase.fail fault b = .leave ⟨fault, phase.station?⟩ := by
    intro fault
    rw [fail, if_pos hb]
  cases hholds with
  | idle => cases hopen
  | address ha hlength =>
      rw [step, if_neg (by simp [hsign]), Byte.digit_of_not_isDigit hdigit]
      exact ⟨_, hfail _⟩
  | parameter ha hp hlength =>
      rw [step, Byte.digit_of_not_isDigit hdigit]
      exact ⟨_, hfail _⟩
  | terminator ha hp =>
      rw [step, if_neg hetx, if_neg (by simp [hsign])]
      exact ⟨_, hfail _⟩
  | value hfront hsign hdigits hlength =>
      rw [step, if_neg hetx, Byte.digit_of_not_isDigit hdigit]
      exact ⟨_, hfail _⟩
  | @checksum frame body hbody =>
      have hchecks : checks mode body b = false := by
        rw [checks, beq_eq_false_iff_ne]
        rintro rfl
        rw [hbody.opensFrame_checkByte] at hb
        cases hb
      rw [step, if_neg (by simp [hchecks])]
      exact ⟨_, hfail _⟩
  | @selectAddress a hcommands ha hlength =>
      rw [step, Byte.digit_of_not_isDigit hdigit]
      dsimp only
      rw [if_neg (by simpa [isOpen] using hopen)]
      exact ⟨_, hfail _⟩
  | selectTerminator hcommands ha =>
      rw [step, if_neg henq]
      exact ⟨_, hfail _⟩
  | skipping => cases hopen
  | skippingCheck => cases hopen

end Open

/-! ## Every phase -/

/-- What a byte can do in any phase that holds the bytes `seen`: what is held afterwards, and what
is reported as a frame, are the last of the bytes seen. -/
inductive Kept (traffic : Traffic) (mode : CheckMode) (seen : Bytes) (b : UInt8) : Step → Prop
  | silent {next : Phase} {rest : Bytes} (hrest : rest <:+ seen ++ [b])
      (hnext : next.Holds traffic rest) : Kept traffic mode seen b (.silent next)
  | frame {frame : Frame} {word : Bytes} (hsuffix : word <:+ seen ++ [b])
      (hword : frame.WireWord traffic mode word) :
      Kept traffic mode seen b (.report (.frame frame) .idle)
  | defect {defect : Defect} {next : Phase} (hnext : next.Holds traffic []) :
      Kept traffic mode seen b (.report (.defect defect) next)
  | leave {defect : Defect} : Kept traffic mode seen b (.leave defect)

section Every

variable {traffic : Traffic} {mode : CheckMode} {phase : Phase} {seen : Bytes} {b : UInt8}

lemma kept_of_stepped {step : Step} (h : Stepped traffic mode phase seen b step) :
    Kept traffic mode seen b step := by
  cases h with
  | on hopen hnext => exact .silent (List.suffix_refl _) hnext
  | complete hword => exact .frame (List.suffix_refl _) hword
  | broken hopens hnext =>
      rcases hnext with rfl | rfl | rfl
      · exact .defect .idle
      · exact .defect .skipping
      · exact .defect .skippingCheck
  | interrupted hopens => exact .leave

lemma kept_begin : Kept traffic mode seen b (begin traffic b) := by
  have hlast : [b] <:+ seen ++ [b] := List.suffix_append seen [b]
  simp only [begin]
  split_ifs with hstx heot hack hnak
  · subst hstx
    exact .silent hlast .address_nil
  · subst heot
    cases traffic with
    | commands => exact .silent hlast (.selectAddress_nil rfl)
    | replies => exact .frame hlast (.eot rfl)
  · subst hack
    exact .frame hlast .ack
  · subst hnak
    exact .frame hlast .nak
  · exact .silent List.nil_suffix .idle

/-- **A step keeps the tie between the phase and the bytes.** -/
theorem kept_step (mode : CheckMode) (b : UInt8) (hholds : phase.Holds traffic seen) :
    Kept traffic mode seen b (phase.step traffic mode b) := by
  by_cases hopen : phase.isOpen = true
  · exact kept_of_stepped (step_of_isOpen mode b hholds hopen)
  · -- elsewhere the bytes held so far do not matter: most bytes are treated as between frames
    cases hholds with
    | idle => exact kept_begin
    | skipping =>
        rw [step]
        split_ifs
        · exact kept_begin
        · exact .silent List.nil_suffix .skippingCheck
        · exact .silent List.nil_suffix .skipping
    | skippingCheck => exact .silent List.nil_suffix .idle
    | @selectAddress a hcommands ha hlength =>
        obtain rfl : a = [] := by simpa [isOpen] using hopen
        rw [step]
        by_cases hb : Byte.isDigit b = true
        · rw [Byte.digit_of_isDigit hb]
          exact .silent (List.suffix_refl _)
            (.selectAddress (a := [b]) hcommands (by simp [hb]) (by simp))
        · rw [Byte.digit_of_not_isDigit (by simpa using hb)]
          exact kept_begin
    | _ => exact absurd rfl hopen

end Every

end Phase

/-! ## Runs -/

namespace Receiver

/-- The receiver has taken the bytes `past`, and what it holds are the last of them. -/
structure Follows (traffic : Traffic) (mode : CheckMode) (past : Bytes) (receiver : Receiver) :
    Prop where
  traffic_eq : receiver.traffic = traffic
  mode_eq : receiver.mode = mode
  holds : ∃ seen, seen <:+ past ∧ receiver.phase.Holds traffic seen

variable {receiver : Receiver} {traffic : Traffic} {mode : CheckMode} {past : Bytes}

lemma follows_start : (start traffic mode).Follows traffic mode past :=
  ⟨rfl, rfl, [], List.nil_suffix, .idle⟩

namespace Follows

lemma inPhase {next seen : Bytes} {phase : Phase} (h : receiver.Follows traffic mode past)
    (hseen : seen <:+ next) (hholds : phase.Holds traffic seen) :
    (receiver.inPhase phase).Follows traffic mode next :=
  ⟨h.traffic_eq, h.mode_eq, seen, hseen, hholds⟩

lemma reset (h : receiver.Follows traffic mode past) :
    receiver.reset.Follows traffic mode past :=
  h.inPhase List.nil_suffix .idle

/-- **A run keeps the tie as well**, and a frame that is reported has a word that the bytes taken
end with. -/
theorem feed (h : receiver.Follows traffic mode past) (bytes : Bytes) :
    (receiver.feed bytes).receiver.Follows traffic mode
        (past ++ bytes.take (receiver.feed bytes).taken) ∧
      ∀ frame, (receiver.feed bytes).report? = some (.frame frame) →
        ∃ word, word <:+ past ++ bytes.take (receiver.feed bytes).taken ∧
          frame.WireWord traffic mode word := by
  induction bytes generalizing receiver past with
  | nil =>
      refine ⟨by simpa [Receiver.feed] using h, ?_⟩
      intro frame hreport
      cases hreport
  | cons b rest ih =>
      -- what is held grows by the byte at most, and so stays at the end of what was taken
      obtain ⟨seen, hseen, hholds⟩ := h.holds
      have hlast : seen ++ [b] <:+ past ++ [b] := List.suffix_append_self_iff.mpr hseen
      have hkept : Phase.Kept traffic mode seen b (receiver.step b) := by
        rw [step, h.traffic_eq, h.mode_eq]
        exact Phase.kept_step mode b hholds
      cases hstep : receiver.step b with
      | silent next =>
          rw [hstep] at hkept
          cases hkept with
          | silent hrest hnext =>
              have hfeed := ih (h.inPhase (hrest.trans hlast) hnext)
              rw [feed_cons_of_silent hstep]
              simpa using hfeed
      | report report next =>
          rw [hstep] at hkept
          rw [feed_cons_of_report hstep]
          cases hkept with
          | frame hsuffix hword =>
              refine ⟨h.inPhase List.nil_suffix .idle, ?_⟩
              rintro frame ⟨⟩
              exact ⟨_, hsuffix.trans hlast, hword⟩
          | defect hnext =>
              refine ⟨h.inPhase List.nil_suffix hnext, ?_⟩
              rintro frame ⟨⟩
      | leave defect =>
          rw [feed_cons_of_leave hstep]
          refine ⟨h.inPhase List.nil_suffix .idle, ?_⟩
          rintro frame ⟨⟩

end Follows

/-- Bytes that pass belong to what the receiver then holds. -/
lemma Passes.follows {bytes : Bytes} {next : Phase} (h : receiver.Passes bytes next)
    (hfollows : receiver.Follows traffic mode past) :
    (receiver.inPhase next).Follows traffic mode (past ++ bytes) := by
  have hfeed := (hfollows.feed bytes).1
  rw [Passes] at h
  rw [h, List.take_length] at hfeed
  exact hfeed

namespace Follows

/-- A call with a report is silent up to the byte that brings it, and in front of that byte the
phase is what the bytes taken so far determine. -/
lemma exists_holds_of_report {bytes : Bytes} {report : Report}
    (h : receiver.Follows traffic mode past)
    (hreport : (receiver.feed bytes).report? = some report) :
    ∃ front b rest phase seen, bytes = front ++ b :: rest ∧ receiver.Passes front phase ∧
      seen <:+ past ++ front ∧ phase.Holds traffic seen ∧
      ((∃ next, phase.step traffic mode b = .report report next ∧
          receiver.feed bytes = ⟨some report, front.length + 1, receiver.inPhase next⟩) ∨
        ∃ defect, report = .defect defect ∧ phase.step traffic mode b = .leave defect ∧
          receiver.feed bytes = ⟨some report, front.length, receiver.inPhase .idle⟩) := by
  obtain ⟨front, b, rest, phase, hbytes, hpasses, hlast⟩ := exists_step_of_report hreport
  obtain ⟨htraffic, hmode, seen, hseen, hholds⟩ := hpasses.follows h
  rw [step, htraffic, hmode, phase_inPhase] at hlast
  exact ⟨front, b, rest, phase, seen, hbytes, hpasses, hseen, hholds, hlast⟩

/-- Behind a report nothing is held of the bytes before. -/
lemma feed_of_report {bytes : Bytes} {report : Report}
    (h : receiver.Follows traffic mode past)
    (hreport : (receiver.feed bytes).report? = some report) :
    (receiver.feed bytes).receiver.Follows traffic mode [] := by
  obtain ⟨front, b, rest, phase, seen, -, -, -, hholds, hlast⟩ := h.exists_holds_of_report hreport
  have hkept := Phase.kept_step mode b hholds
  rcases hlast with ⟨next, hstep, hfeed⟩ | ⟨defect, -, -, hfeed⟩
  · rw [hfeed]
    rw [hstep] at hkept
    cases hkept with
    | frame => exact h.inPhase List.nil_suffix .idle
    | defect hnext => exact h.inPhase List.nil_suffix hnext
  · rw [hfeed]
    exact h.inPhase List.nil_suffix .idle

/-- Behind a frame the receiver is between frames. -/
lemma isIdle_of_frame {bytes : Bytes} {frame : Frame} (h : receiver.Follows traffic mode past)
    (hreport : (receiver.feed bytes).report? = some (.frame frame)) :
    (receiver.feed bytes).receiver.isIdle = true := by
  obtain ⟨front, b, rest, phase, seen, -, -, -, hholds, hlast⟩ := h.exists_holds_of_report hreport
  have hkept := Phase.kept_step mode b hholds
  rcases hlast with ⟨next, hstep, hfeed⟩ | ⟨defect, hdefect, -, -⟩
  · rw [hfeed]
    rw [hstep] at hkept
    cases hkept
    rfl
  · cases hdefect

end Follows

/-- The receivers that a history of feeding and resetting can lead to. -/
inductive Reachable (traffic : Traffic) (mode : CheckMode) : Receiver → Prop
  | start : Reachable traffic mode (.start traffic mode)
  | feed {receiver : Receiver} (bytes : Bytes) (h : Reachable traffic mode receiver) :
      Reachable traffic mode (receiver.feed bytes).receiver
  | reset {receiver : Receiver} (h : Reachable traffic mode receiver) :
      Reachable traffic mode receiver.reset

/-- **In every state that a receiver can be in, its phase is what some bytes determine.** -/
theorem Reachable.follows (h : Reachable traffic mode receiver) :
    ∃ past, receiver.Follows traffic mode past := by
  induction h with
  | start => exact ⟨[], follows_start⟩
  | feed bytes _ ih =>
      obtain ⟨past, hpast⟩ := ih
      exact ⟨_, (hpast.feed bytes).1⟩
  | reset _ ih =>
      obtain ⟨past, hpast⟩ := ih
      exact ⟨past, hpast.reset⟩

end Receiver

end FieldBus
